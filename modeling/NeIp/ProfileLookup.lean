-- The laws of the profile lookup: what a notification does when the database
-- cannot be asked whether the profile still exists.
import NeIp.Daemon
import NeIp.Runs
import NeIp.Sample

open runs ne_ip.packet_crypto ne_ip.config ne_ip.db_runtime ne_ip.forwarder ne_ip.daemon
open ne_ip.sample

namespace ne_ip.profile_lookup

/-! ## The lookup -/

/-- How the query of `ne_profile_id_exists` goes: the environment has no database, the
connection is refused, the query fails, or the database answers with some rows. -/
inductive IdQuery where
  | no_environment
  | no_connection
  | query_failed
  | tuples (n : Nat)

/-- `ne_profile_id_exists` (db_runtime.c). -/
def ne_profile_id_exists : IdQuery → Int
  | .no_environment => -1
  | .no_connection => -1
  | .query_failed => -1
  | .tuples n => if 0 < n then 0 else -1

/-- The database did not answer. -/
def IdQuery.failed : IdQuery → Bool
  | .tuples _ => false
  | _ => true

/-- `handle_profile_notify` with the lookup that it begins with. -/
def notify_with_lookup (o : Openssl) (n : Notify) (q : IdQuery) (d : Daemon) : Daemon :=
  (handle_profile_notify o { n with exists_in_db := ne_profile_id_exists q == 0 } d).2

theorem ne_profile_id_exists_of_failed {q : IdQuery} (h : q.failed = true) :
    ne_profile_id_exists q = -1 := by
  cases q with
  | tuples n => simp [IdQuery.failed] at h
  | _ => rfl

/-! ## What the law asks for -/

/-- The active ids, the active slot and the forwarder are as before. -/
structure Untouched (d d' : Daemon) : Prop where
  active_ids : d'.active_ids = d.active_ids
  active_slot : d'.rt.active_slot = d.rt.active_slot
  slot : d'.rt.cfg_slots d.rt.active_slot = d.rt.cfg_slots d.rt.active_slot
  fwd_cfg : d'.rt.fwd_cfg = d.rt.fwd_cfg
  thread : d'.rt.thread = d.rt.thread
  running : d'.running = d.running
  joining : d'.joining = d.joining

/-- No failed lookup has an effect, and an id goes only when there is no row for it. -/
structure UnloadsOnlyAbsent (q : IdQuery) (d d' : Daemon) : Prop where
  failure : q.failed = true → Untouched d d'
  removal : ∀ id ∈ d.active_ids, id ∉ d'.active_ids → q = .tuples 0

/-- Without a forwarder thread there are no active ids, and none remain while it stops. -/
structure Idle (d : Daemon) : Prop where
  idle : d.rt.has_thread = false → d.active_ids = []
  stopping : d.joining = true → d.active_ids = []

/-! ## What a load does to the active ids -/

theorem apply_active_configs_ids (o : Openssl) (n : Notify) (d : Daemon) :
    (apply_active_configs o n d).2.active_ids = d.active_ids ∧
      (d.rt.has_thread = true → (apply_active_configs o n d).2.rt.has_thread = true) ∧
      ((apply_active_configs o n d).2.rt.has_thread = false →
        (apply_active_configs o n d).1 = false) := by
  unfold apply_active_configs runtime_start reload_slot stage
  split
  · exact ⟨rfl, id, fun _ => rfl⟩
  dsimp only
  split
  · split
    · exact ⟨rfl, fun _ => rfl, fun h => absurd h (Bool.false_ne_true ∘ Eq.symm)⟩
    · exact ⟨rfl, id, fun _ => rfl⟩
  rename_i hth
  have hth' : d.rt.has_thread = true := by simpa using hth
  split
  · exact ⟨rfl, id, fun h => by simp [hth'] at h⟩
  · split
    · exact ⟨rfl, id, fun h => by simp [hth'] at h⟩
    · exact ⟨rfl, id, fun h => by simp [hth'] at h⟩

theorem active_ids_remove_iff (ids : List Int) (id : Int) :
    (active_ids_remove ids id).1 = true ↔ id ∈ ids := by
  simp only [active_ids_remove, List.any_eq_true, beq_iff_eq, exists_eq_right]

theorem mem_active_ids_remove {ids : List Int} {id a : Int} (h : a ∈ ids) (hne : a ≠ id) :
    a ∈ (active_ids_remove ids id).2 := by
  unfold active_ids_remove
  exact List.mem_filter.mpr ⟨h, by simpa using hne⟩

/-- A load removes no id, and a load without a thread that fails leaves no id. -/
theorem load_profile_and_run_ids (o : Openssl) (n : Notify) {d : Daemon} (h : Idle d) :
    (∀ id ∈ d.active_ids, id ∈ (load_profile_and_run o n d).2.active_ids) ∧
      ((load_profile_and_run o n d).2.rt.has_thread = false →
        (load_profile_and_run o n d).2.active_ids = []) := by
  unfold load_profile_and_run
  have hd : (if !d.rt.has_thread then { d with active_ids := [] } else d) = d := by
    cases hth : d.rt.has_thread with
    | true => rfl
    | false =>
      have hnil := h.idle hth
      cases d
      simp only at hnil
      rw [hnil]
      rfl
  rw [hd]
  dsimp only
  obtain ⟨hids, hkeep, hfail⟩ := apply_active_configs_ids o n
    { d with active_ids := (active_ids_add d.active_ids n.profile_id).2 }
  unfold active_ids_add at hids hkeep hfail ⊢
  by_cases hany : d.active_ids.any (· == n.profile_id) = true
  · rw [if_pos hany, if_neg (show ¬ (0 : Int) < 0 by decide), if_pos rfl]
    exact ⟨fun _ hid => hid, h.idle⟩
  rw [if_neg hany] at hids hkeep hfail ⊢
  have hnew : n.profile_id ∉ d.active_ids := by simpa using hany
  by_cases hfull : d.active_ids.length ≥ MAX_ACTIVE_PROFILE_IDS
  · rw [if_pos hfull, if_pos (show (-1 : Int) < 0 by decide)]
    exact ⟨fun _ hid => hid, h.idle⟩
  rw [if_neg hfull] at hids hkeep hfail ⊢
  rw [if_neg (show ¬ (1 : Int) < 0 by decide), if_neg (show ¬ (1 : Int) = 0 by decide)]
  dsimp only at hids hkeep hfail ⊢
  split
  · dsimp only
    rw [hids]
    refine ⟨fun a ha => mem_active_ids_remove (List.mem_append_left _ ha) ?_, ?_⟩
    · rintro rfl
      exact hnew ha
    · intro hth
      cases hold : d.rt.has_thread with
      | true =>
        rw [hkeep hold] at hth
        simp at hth
      | false =>
        rw [h.idle hold]
        simp [active_ids_remove]
  · rename_i hok
    rw [hids]
    refine ⟨fun a ha => List.mem_append_left _ ha, ?_⟩
    intro hth
    rw [hfail hth] at hok
    simp at hok

/-! ## The states of a run -/

theorem handle_profile_notify_idle (o : Openssl) (n : Notify) {d : Daemon} (h : Idle d)
    (hj : d.joining = false) : Idle (handle_profile_notify o n d).2 := by
  have hflag := handle_profile_notify_flag o n d
  unfold handle_profile_notify at hflag ⊢
  cases hex : n.exists_in_db with
  | true =>
    rw [if_pos rfl]
    dsimp only
    obtain ⟨-, hidle⟩ := load_profile_and_run_ids o n h
    have hjoin : (load_profile_and_run o n d).2.joining = false :=
      (load_profile_and_run_sameFlag o n d).joining.trans hj
    have hload : Idle (load_profile_and_run o n d).2 :=
      ⟨hidle, fun hs => by rw [hjoin] at hs; exact absurd hs Bool.false_ne_true⟩
    split
    · exact hload
    · split <;> exact hload
  | false =>
    rw [if_neg Bool.false_ne_true]
    dsimp only
    split
    · exact h
    split
    · rename_i hnil
      unfold runtime_stop_forwarder
      dsimp only
      split
      · exact ⟨fun _ => hnil, fun _ => hnil⟩
      · exact ⟨fun _ => hnil, fun _ => hnil⟩
    · rename_i hne
      have hth : d.rt.has_thread = true := by
        by_contra hno
        refine hne ?_
        rw [h.idle (Bool.eq_false_iff.mpr hno)]
        rfl
      obtain ⟨-, hkeep, -⟩ := apply_active_configs_ids o n
        { d with active_ids := (active_ids_remove d.active_ids n.profile_id).2 }
      have hsame := apply_active_configs_sameFlag o n
        { d with active_ids := (active_ids_remove d.active_ids n.profile_id).2 }
      refine ⟨fun hno => ?_, fun hs => ?_⟩
      · rw [hkeep hth] at hno
        simp at hno
      · rw [hsame.joining, show ({ d with active_ids := _ } : Daemon).joining = false from hj] at hs
        simp at hs

/-- The forwarder thread leaves alone what belongs to the main thread. -/
theorem forwarder_thread_main_ids {o : Openssl} {i : InitEnv} {d d' : Daemon}
    (h : forwarder_thread_main o i d = some d') :
    d'.active_ids = d.active_ids ∧ d'.rt.has_thread = d.rt.has_thread ∧ d'.joining = d.joining := by
  have hinit : (thread_init o i d).active_ids = d.active_ids ∧
      (thread_init o i d).rt.has_thread = d.rt.has_thread ∧
      (thread_init o i d).joining = d.joining := by
    unfold thread_init leave
    split
    · exact ⟨rfl, rfl, rfl⟩
    · dsimp only
      split <;> exact ⟨rfl, rfl, rfl⟩
  unfold forwarder_thread_main leave at h
  split at h
  · cases h
  · cases h
    exact hinit
  · cases h
    split <;> exact ⟨rfl, rfl, rfl⟩
  · cases h
    split <;> exact ⟨rfl, rfl, rfl⟩
  · cases h
    split <;> exact ⟨rfl, rfl, rfl⟩
  · cases h
    exact ⟨rfl, rfl, rfl⟩
  · split at h
    · cases h
      exact ⟨rfl, rfl, rfl⟩
    · cases h
  · cases h

theorem idle_step {o : Openssl} {d d' : Daemon} {e : Event} (h : Idle d) (hs : Step o d e d') :
    Idle d' := by
  unfold Step step at hs
  cases e with
  | notify n =>
    dsimp only at hs
    split at hs
    · simp at hs
    · rename_i hj
      obtain rfl := Option.some.inj hs
      exact handle_profile_notify_idle o n h (by simpa using hj)
  | join =>
    unfold pthread_join at hs
    dsimp only at hs
    split at hs
    · rename_i hj
      obtain rfl := Option.some.inj hs
      exact ⟨fun _ => h.stopping hj.1, fun hn => absurd hn Bool.false_ne_true⟩
    · simp at hs
  | thread i =>
    obtain ⟨h1, h2, h3⟩ := forwarder_thread_main_ids hs
    exact ⟨fun hth => h1.trans (h.idle (h2.symm.trans hth)),
      fun hj => h1.trans (h.stopping (h3.symm.trans hj))⟩

theorem idle_run {o : Openssl} {d : Daemon} {es : List Event} (h : Run (Step o) {} es d) : Idle d :=
  h.invariant ⟨fun _ => rfl, fun _ => rfl⟩ fun _ _ _ => idle_step

/-! ## The law -/

/-- A notification without an answer does nothing to a profile that is not active, and drops
one that is. -/
theorem notify_of_failed (o : Openssl) (n : Notify) {q : IdQuery} (hq : q.failed = true)
    (d : Daemon) :
    (n.profile_id ∉ d.active_ids → notify_with_lookup o n q d = d) ∧
      (n.profile_id ∈ d.active_ids →
        (notify_with_lookup o n q d).active_ids = (active_ids_remove d.active_ids n.profile_id).2) := by
  unfold notify_with_lookup handle_profile_notify
  dsimp only
  rw [ne_profile_id_exists_of_failed hq, if_neg (by decide)]
  constructor
  · intro hnew
    have hrem := Bool.eq_false_iff.mpr fun h => hnew ((active_ids_remove_iff _ _).mp h)
    rw [hrem]
    rfl
  · intro hold
    rw [(active_ids_remove_iff _ _).mpr hold, if_neg (by decide)]
    split
    · unfold runtime_stop_forwarder
      dsimp only
      split <;> rfl
    · exact (apply_active_configs_ids o _ _).1

/-- In every state that a run can reach (`idle_run`): failed lookups leave everything as it is,
and ids go only when the database has no row, exactly when the lookup goes through or the
profile is not active. -/
theorem a_lookup_unloads_only_absent_profiles_iff_no_active_one_is_looked_up_in_vain
    (o : Openssl) (n : Notify) (q : IdQuery) (d : Daemon) (hidle : Idle d) :
    UnloadsOnlyAbsent q d (notify_with_lookup o n q d) ↔
      (q.failed = true → n.profile_id ∉ d.active_ids) := by
  constructor
  · intro h hq hmem
    have hids := ((notify_of_failed o n hq d).2 hmem).symm.trans (h.failure hq).active_ids
    rw [← hids] at hmem
    simp [active_ids_remove] at hmem
  · intro h
    refine ⟨fun hq => ?_, fun id hid hgone => ?_⟩
    · rw [(notify_of_failed o n hq d).1 (h hq)]
      exact ⟨rfl, rfl, rfl, rfl, rfl, rfl, rfl⟩
    · cases q with
      | tuples k =>
        cases k with
        | zero => rfl
        | succ k =>
          -- the row is there, and a load removes nothing
          have hload := (load_profile_and_run_ids o { n with exists_in_db := true } hidle).1 id hid
          refine absurd ?_ hgone
          unfold notify_with_lookup handle_profile_notify
          rw [if_pos (by simp [ne_profile_id_exists])]
          dsimp only
          split
          · exact hload
          · split <;> exact hload
      | _ =>
        rw [(notify_of_failed o n rfl d).1 (h rfl)] at hgone
        exact absurd hid hgone

/-- Profile 1 is loaded, and its forwarder runs. -/
def load : Event := .notify { profile_id := 1, exists_in_db := true, db := sampleDb }

def thread : Event := .thread { now := 1, addr := fun _ => none }

def firstRun : List Event := [load, thread, thread, thread, thread, thread]

def running : Daemon := (firstRun.foldlM (daemon.step sampleOpenssl) {}).getD {}

theorem running_run : Run (Step sampleOpenssl) {} firstRun running := Run.of_foldlM rfl

theorem a_failed_lookup_of_another_profile_does_nothing :
    UnloadsOnlyAbsent .no_connection running
      (notify_with_lookup sampleOpenssl { profile_id := 2, exists_in_db := true, db := sampleDb }
        .no_connection running) :=
  (a_lookup_unloads_only_absent_profiles_iff_no_active_one_is_looked_up_in_vain sampleOpenssl
    { profile_id := 2, exists_in_db := true, db := sampleDb } .no_connection running
    (idle_run running_run)).mpr (by decide)

/-- The row of profile 1 exists, the connection is refused, and the forwarder is stopped. -/
theorem a_refused_connection_stops_the_forwarder :
    Run (Step sampleOpenssl) {} firstRun running ∧ (sampleDb 1).isSome = true ∧
      running.active_ids = [1] ∧ running.rt.thread = .looping ∧
      (notify_with_lookup sampleOpenssl { profile_id := 1, exists_in_db := true, db := sampleDb }
        .no_connection running).active_ids = [] ∧
      (notify_with_lookup sampleOpenssl { profile_id := 1, exists_in_db := true, db := sampleDb }
        .no_connection running).running = false :=
  ⟨running_run, rfl, rfl, rfl, rfl, rfl⟩

end ne_ip.profile_lookup
