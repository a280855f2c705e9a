-- A rebuild that takes over old contexts against one that starts from nothing
-- (rebuild_crypto_runtime in forwarder.c).
import NeIp.Sample

open ne_ip.packet_crypto ne_ip.config ne_ip.crypto_dispatch ne_ip.forwarder ne_ip.sample

namespace ne_ip.fresh_rebuild

/-! ## What one turn enters -/

section

variable {o : Openssl} {tls : Tls} (he : tls.evp_ok = true) (old : PolicyTables)
include he

/-- Reused or new, the policy of the turn is ready when it wants a context. -/
theorem rebuild_policy_ready (s : Rebuild) (q : CryptoPolicy × Nat) (i : Nat) :
    (rebuild_policy o tls old s q).ready i = (s.ready i || (q.2 == i && wants_ctx q.1)) := by
  have hset : (if i = q.2 then true else s.ready i) = (s.ready i || (q.2 == i && true)) := by
    by_cases hi : i = q.2
    · subst hi
      simp
    · rw [if_neg hi, beq_false_of_ne (Ne.symm hi)]
      simp
  unfold rebuild_policy
  cases hw : wants_ctx q.1 with
  | false => simp
  | true =>
    rw [Bool.not_true, if_neg Bool.false_ne_true]
    split
    · exact hset
    · simp only [packet_crypto_init, he, if_true]
      exact hset

/-- The policy enters the index where no earlier one has its action and id. -/
theorem rebuild_policy_index (s : Rebuild) (q : CryptoPolicy × Nat) (a : PolicyAction)
    (id : UInt8) :
    (rebuild_policy o tls old s q).index_by_action_id a id =
      (s.index_by_action_id a id).or
        (if wants_ctx q.1 = true ∧ a = q.1.action ∧ id = q.1.wire_id then some q.2 else none) := by
  have hadd : (if a = q.1.action ∧ id = q.1.wire_id ∧ s.index_by_action_id a id = none then some q.2
      else s.index_by_action_id a id) = (s.index_by_action_id a id).or
        (if a = q.1.action ∧ id = q.1.wire_id then some q.2 else none) := by
    cases s.index_by_action_id a id with
    | none => simp
    | some pj => simp
  unfold rebuild_policy
  cases hw : wants_ctx q.1 with
  | false => simp
  | true =>
    simp only [Bool.not_true, Bool.false_eq_true, if_false, true_and]
    split
    · exact hadd
    · simp only [packet_crypto_init, he, if_true]
      exact hadd

/-! ## What the loop enters -/

theorem foldl_ready (qs : List (CryptoPolicy × Nat)) (s : Rebuild) (i : Nat) :
    (qs.foldl (rebuild_policy o tls old) s).ready i =
      (s.ready i || qs.any fun q => q.2 == i && wants_ctx q.1) := by
  induction qs generalizing s with
  | nil => rw [List.foldl_nil, List.any_nil, Bool.or_false]
  | cons q qs ih => rw [List.foldl_cons, ih, rebuild_policy_ready he, List.any_cons, Bool.or_assoc]

theorem foldl_index (qs : List (CryptoPolicy × Nat)) (s : Rebuild) (a : PolicyAction) (id : UInt8) :
    (qs.foldl (rebuild_policy o tls old) s).index_by_action_id a id =
      (s.index_by_action_id a id).or (qs.findSome? fun q =>
        if wants_ctx q.1 = true ∧ a = q.1.action ∧ id = q.1.wire_id then some q.2 else none) := by
  induction qs generalizing s with
  | nil => rw [List.foldl_nil, List.findSome?_nil, Option.or_none]
  | cons q qs ih =>
    rw [List.foldl_cons, ih, rebuild_policy_index he, List.findSome?_cons, Option.or_assoc]
    congr 1
    split
    · rfl
    · rfl

/-- The ready flags do not depend on the old tables. -/
theorem rebuild_loop_ready (n : Nat) (policies : List CryptoPolicy) (i : Nat) :
    (rebuild_loop o tls old n policies).ready i =
      policies.zipIdx.any fun q => q.2 == i && wants_ctx q.1 := by
  unfold rebuild_loop
  rw [foldl_ready he, Bool.false_or]

/-- Nor does the index. -/
theorem rebuild_loop_index (n : Nat) (policies : List CryptoPolicy) (a : PolicyAction)
    (id : UInt8) :
    (rebuild_loop o tls old n policies).index_by_action_id a id =
      policies.zipIdx.findSome? fun q =>
        if wants_ctx q.1 = true ∧ a = q.1.action ∧ id = q.1.wire_id then some q.2 else none := by
  unfold rebuild_loop
  rw [foldl_index he, Option.none_or]

/-- A ready flag belongs to a policy. -/
theorem exists_of_rebuild_loop_ready {n : Nat} {policies : List CryptoPolicy} {i : Nat}
    (h : (rebuild_loop o tls old n policies).ready i = true) : ∃ cp, policies[i]? = some cp := by
  rw [rebuild_loop_ready he, List.any_eq_true] at h
  obtain ⟨q, hq, hi⟩ := h
  simp only [Bool.and_eq_true, beq_iff_eq] at hi
  rw [← hi.1]
  exact ⟨q.1, List.mem_zipIdx_iff_getElem?.mp hq⟩

end

/-! ## Rebuilds in a row -/

/-- The tables of a process that has no policies yet, or none any more. -/
def EmptyTables (rt : Runtime) : Prop := rt.active.policies = []

/-- The runtime after a row of rebuilds, each by a thread with its own settings. -/
def rebuilds_in_a_row (o : Openssl) (calls : List (Tls × AppConfig)) (rt : Runtime) : Runtime :=
  calls.foldl (fun rt c => (rebuild_crypto_runtime o c.1 c.2 rt).1) rt

theorem EmptyTables.ctxsOf {rt : Runtime} (h : EmptyTables rt) (o : Openssl) :
    CtxsOf o rt.active.policies rt.active.ctx rt.active.ready := by
  intro pi cp hpi
  rw [show rt.active.policies = [] from h] at hpi
  simp at hpi

/-- Each ready context belongs to the policy beside it, whatever moved where. -/
theorem rebuilds_in_a_row_ctxsOf {o : Openssl} {rt : Runtime}
    (h : CtxsOf o rt.active.policies rt.active.ctx rt.active.ready)
    (calls : List (Tls × AppConfig)) :
    let t := (rebuilds_in_a_row o calls rt).active
    CtxsOf o t.policies t.ctx t.ready := by
  unfold rebuilds_in_a_row
  refine List.foldlRecOn
    (motive := fun rt : Runtime => CtxsOf o rt.active.policies rt.active.ctx rt.active.ready)
    _ _ h ?_
  intro rt hrt c _
  exact (rebuild_crypto_runtime_tablesOf c.1 c.2 hrt).ctx_eq

/-- After any row of rebuilds the last one leaves what it would make of its configuration from
empty tables, and every ready context is the one that an init makes for its policy. -/
theorem the_last_rebuild_is_one_from_scratch {o : Openssl} {rt empty : Runtime}
    (h : EmptyTables rt) (hempty : EmptyTables empty) (calls : List (Tls × AppConfig)) {tls : Tls}
    (he : tls.evp_ok = true) (cfg : AppConfig) :
    let last := (rebuild_crypto_runtime o tls cfg (rebuilds_in_a_row o calls rt)).1.active
    let fresh := (rebuild_crypto_runtime o tls cfg empty).1.active
    last.ready = fresh.ready ∧ last.index_by_action_id = fresh.index_by_action_id ∧
      (∀ pi, last.ready pi = true → last.ctx pi = fresh.ctx pi) ∧
      ∀ pi, last.ready pi = true → ∃ cp, cfg.policies[pi]? = some cp ∧
        last.ctx pi =
          (packet_crypto_init o { tls with aes_bits := cp.aes_bits } cp.key.toList).2.1 := by
  intro last fresh
  have hready : last.ready = fresh.ready := by
    funext pi
    exact (rebuild_loop_ready he _ _ _ _).trans (rebuild_loop_ready he _ _ _ _).symm
  have hlast := rebuild_crypto_runtime_tablesOf tls cfg
    (rebuilds_in_a_row_ctxsOf (h.ctxsOf o) calls)
  have hfresh := rebuild_crypto_runtime_tablesOf tls cfg (hempty.ctxsOf o)
  have hpolicy : ∀ pi, last.ready pi = true → ∃ cp, cfg.policies[pi]? = some cp := fun pi hr =>
    exists_of_rebuild_loop_ready he _ hr
  refine ⟨hready, ?_, fun pi hr => ?_, fun pi hr => ?_⟩
  · funext a id
    exact (rebuild_loop_index he _ _ _ _ _).trans (rebuild_loop_index he _ _ _ _ _).symm
  · obtain ⟨cp, hcp⟩ := hpolicy pi hr
    have hr' : fresh.ready pi = true := by
      rw [← hready]
      exact hr
    exact (hlast.ctx_eq pi cp hcp hr).trans (hfresh.ctx_eq pi cp hcp hr').symm
  · obtain ⟨cp, hcp⟩ := hpolicy pi hr
    exact ⟨cp, hcp, hlast.ctx_eq pi cp hcp hr⟩

/-- Policy 8 moves to the place of policy 7, which comes back behind it. -/
theorem two_policies_that_change_places_keep_their_keys :
    let calls : List (Tls × AppConfig) :=
      [({}, sampleCfg [samplePolicy 7 .encrypt_l4, samplePolicy 8 .encrypt_l3] (by decide)),
        ({}, sampleCfg [samplePolicy 8 .encrypt_l3] (by decide))]
    let cfg := sampleCfg [samplePolicy 8 .encrypt_l3, samplePolicy 7 .encrypt_l4] (by decide)
    let last := (rebuild_crypto_runtime sampleOpenssl {} cfg
      (rebuilds_in_a_row sampleOpenssl calls Runtime.boot)).1.active
    let fresh := (rebuild_crypto_runtime sampleOpenssl {} cfg Runtime.boot).1.active
    last.ready 1 = true ∧ last.ready = fresh.ready ∧
      last.index_by_action_id = fresh.index_by_action_id ∧
      (∀ pi, last.ready pi = true → last.ctx pi = fresh.ctx pi) ∧
      ∀ pi, last.ready pi = true → ∃ cp, cfg.policies[pi]? = some cp ∧
        last.ctx pi =
          (packet_crypto_init sampleOpenssl { aes_bits := cp.aes_bits } cp.key.toList).2.1 := by
  intro calls cfg last fresh
  refine ⟨by decide +kernel, ?_⟩
  have hboot : EmptyTables Runtime.boot := rfl
  have hevp : ({} : Tls).evp_ok = true := rfl
  exact the_last_rebuild_is_one_from_scratch hboot hboot calls hevp cfg

end ne_ip.fresh_rebuild
