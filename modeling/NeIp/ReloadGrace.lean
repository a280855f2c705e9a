-- The laws of the grace after a reload: what the previous tables hold over a run
-- of inits and reloads, and when a policy that a reload takes away is among them.
import NeIp.Runs
import NeIp.Sample

open byte_buf runs ne_ip.packet_crypto ne_ip.config ne_ip.crypto_dispatch ne_ip.forwarder
open ne_ip.sample

namespace ne_ip.reload_grace

/-! ## Inits, reloads and traffic as steps -/

/-- What happens to the runtime, each at a reading of the monotonic clock. Traffic only moves
the nonce counter. -/
inductive Event where
  | init (now : Nat) (tls : Tls) (addr : Nat → Option (UInt32 × Option UInt32)) (cfg : AppConfig)
  | reload (now : Nat) (tls : Tls) (cfg : AppConfig)
  | traffic (now : Nat) (nonce_counter : Nat)

def Event.now : Event → Nat
  | .init now .. => now
  | .reload now .. => now
  | .traffic now _ => now

/-- The runtime, the last reading of the clock, and what is remembered of the last init with
crypto on: its time and the tables it replaced. -/
structure State where
  rt : Runtime
  clock : Nat := 0
  replaced : Option (Nat × PolicyTables) := none

/-- One step; the clock does not go back, and a reload has to be accepted. -/
def step (o : Openssl) (s : State) (e : Event) : Option State :=
  if e.now < s.clock then none
  else
    match e with
    | .init now tls addr cfg =>
      some {
        rt := (forwarder_init o tls now addr cfg s.rt).2
        clock := now
        replaced := if cfg.crypto_enabled then some (now, s.rt.active) else s.replaced }
    | .reload now tls cfg =>
      (forwarder_reload_config o tls cfg s.rt).map fun rt => { s with rt, clock := now }
    | .traffic now nonce_counter =>
      some { s with rt := { s.rt with nonce_counter }, clock := now }

def Step (o : Openssl) (s : State) (e : Event) (t : State) : Prop := step o s e = some t

/-! ## Where the previous tables come from -/

/-- The previous tables and their grace are those that the last init with crypto on took, or
they are empty. -/
structure Snapshot (s : State) : Prop where
  taken : ∀ t0 old, s.replaced = some (t0, old) → old.policies ≠ [] →
    s.rt.prev = old ∧ s.rt.prev_grace_until_ms = (t0 + POLICY_RELOAD_GRACE_MS) % 2 ^ 64
  empty : (∀ t0 old, s.replaced = some (t0, old) → old.policies = []) → s.rt.prev.policies = []
  clock : ∀ t0 old, s.replaced = some (t0, old) → t0 ≤ s.clock

/-- Every init with crypto on takes the snapshot, also one that then fails. -/
theorem forwarder_init_prev (o : Openssl) (tls : Tls) (now : Nat)
    (addr : Nat → Option (UInt32 × Option UInt32)) (cfg : AppConfig) (rt : Runtime) :
    (forwarder_init o tls now addr cfg rt).2.prev =
        (if cfg.crypto_enabled then (snapshot_prev now rt).prev else rt.prev) ∧
      (forwarder_init o tls now addr cfg rt).2.prev_grace_until_ms =
        (if cfg.crypto_enabled then (snapshot_prev now rt).prev_grace_until_ms
          else rt.prev_grace_until_ms) := by
  have hcrypto : (init_crypto o tls now cfg rt).2.prev =
        (if cfg.crypto_enabled then (snapshot_prev now rt).prev else rt.prev) ∧
      (init_crypto o tls now cfg rt).2.prev_grace_until_ms =
        (if cfg.crypto_enabled then (snapshot_prev now rt).prev_grace_until_ms
          else rt.prev_grace_until_ms) := by
    unfold init_crypto rebuild_crypto_runtime
    cases hen : cfg.crypto_enabled with
    | false => exact ⟨rfl, rfl⟩
    | true =>
      cases he : rt.active.policies.isEmpty <;>
        simp only [snapshot_prev, he, Bool.not_true, Bool.false_eq_true, if_false, if_true] <;>
        split
      · exact ⟨rfl, rfl⟩
      · split <;> exact ⟨rfl, rfl⟩
      · exact ⟨rfl, rfl⟩
      · split <;> exact ⟨rfl, rfl⟩
  unfold forwarder_init
  dsimp only
  split
  · exact hcrypto
  · exact hcrypto

theorem snapshot_step {o : Openssl} {s t : State} {e : Event} (h : Snapshot s)
    (hstep : Step o s e t) : Snapshot t := by
  unfold Step step at hstep
  split at hstep
  · simp at hstep
  rename_i hclock
  rw [Nat.not_lt] at hclock
  cases e with
  | init now tls addr cfg =>
    dsimp only at hstep
    rw [← Option.some.inj hstep]
    obtain ⟨hprev, huntil⟩ := forwarder_init_prev o tls now addr cfg s.rt
    cases hen : cfg.crypto_enabled with
    | false =>
      rw [hen, if_neg Bool.false_ne_true] at hprev huntil
      refine ⟨?_, ?_, ?_⟩
      · intro t0 old hr hne
        rw [if_neg Bool.false_ne_true] at hr
        rw [hprev, huntil]
        exact h.taken t0 old hr hne
      · intro hr
        rw [if_neg Bool.false_ne_true] at hr
        rw [hprev]
        exact h.empty hr
      · intro t0 old hr
        rw [if_neg Bool.false_ne_true] at hr
        exact Nat.le_trans (h.clock t0 old hr) hclock
    | true =>
      rw [hen, if_pos rfl] at hprev huntil
      unfold snapshot_prev at hprev huntil
      refine ⟨?_, ?_, ?_⟩
      · intro t0 old hr hne
        rw [if_pos rfl] at hr
        obtain ⟨rfl, rfl⟩ := Prod.mk.inj (Option.some.inj hr)
        have hfull : s.rt.active.policies.isEmpty = false := List.isEmpty_eq_false_iff.mpr hne
        rw [hfull, if_neg Bool.false_ne_true] at hprev huntil
        exact ⟨hprev, huntil⟩
      · intro hr
        rw [if_pos rfl] at hr
        have hnil := hr now s.rt.active rfl
        rw [hnil, List.isEmpty_nil, if_pos rfl] at hprev
        rw [hprev]
      · intro t0 old hr
        rw [if_pos rfl] at hr
        rw [← (Prod.mk.inj (Option.some.inj hr)).1]
  | reload now tls cfg =>
    dsimp only at hstep
    obtain ⟨rt', hre, rfl⟩ := Option.map_eq_some_iff.mp hstep
    obtain ⟨-, -, hprev, huntil, -⟩ := forwarder_reload_config_some hre
    refine ⟨?_, ?_, ?_⟩
    · intro t0 old hr hne
      rw [hprev, huntil]
      exact h.taken t0 old hr hne
    · intro hr
      rw [hprev]
      exact h.empty hr
    · intro t0 old hr
      exact Nat.le_trans (h.clock t0 old hr) hclock
  | traffic now nonce_counter =>
    dsimp only at hstep
    rw [← Option.some.inj hstep]
    exact ⟨h.taken, h.empty, fun t0 old hr => Nat.le_trans (h.clock t0 old hr) hclock⟩

theorem snapshot_boot : Snapshot { rt := Runtime.boot } :=
  ⟨fun _ _ h => absurd h (by simp), fun _ => rfl, fun _ _ h => absurd h (by simp)⟩

/-! ## What a reload leaves in the previous tables -/

/-- The tables hold a policy with a ready context, and their index leads to it. -/
def Holds (t : PolicyTables) (q : CryptoPolicy) (ctx : PacketCryptoCtx) : Prop :=
  ∃ pi, t.policies[pi]? = some q ∧ t.ready pi = true ∧ t.ctx pi = ctx ∧
    t.index_by_action_id q.action q.wire_id = some pi

/-- After a reload at `now` packets under `q` can still be decrypted for the whole grace. -/
structure Graced (rt : Runtime) (now : Nat) (q : CryptoPolicy) (ctx : PacketCryptoCtx) :
    Prop where
  holds : Holds rt.prev q ctx
  active : ∀ t, now ≤ t → t ≤ now + POLICY_RELOAD_GRACE_MS → prev_policy_grace_active rt t = true

theorem Holds.ne_nil {t : PolicyTables} {q : CryptoPolicy} {ctx : PacketCryptoCtx}
    (h : Holds t q ctx) : t.policies ≠ [] := by
  obtain ⟨pi, hpi, -⟩ := h
  exact List.ne_nil_of_mem (List.mem_of_getElem? hpi)

/-- With a grace that was set at `t0` the previous tables are in use for the next grace period
exactly when `t0` is now. -/
theorem grace_from_now_iff {rt : Runtime} {t0 now : Nat} (hne : rt.prev.policies ≠ [])
    (huntil : rt.prev_grace_until_ms = t0 + POLICY_RELOAD_GRACE_MS) (hle : t0 ≤ now) :
    (∀ t, now ≤ t → t ≤ now + POLICY_RELOAD_GRACE_MS → prev_policy_grace_active rt t = true) ↔
      0 < now ∧ t0 = now := by
  have hactive : ∀ t, prev_policy_grace_active rt t = true ↔
      t ≠ 0 ∧ t ≤ t0 + POLICY_RELOAD_GRACE_MS := by
    intro t
    have hg : POLICY_RELOAD_GRACE_MS = 60000 := rfl
    unfold prev_policy_grace_active
    rw [huntil, List.isEmpty_eq_false_iff.mpr hne]
    simp only [Bool.not_false, Bool.true_and, Bool.and_eq_true, bne_iff_ne, decide_eq_true_eq]
    omega
  simp only [hactive]
  constructor
  · intro h
    have h1 := h now (Nat.le_refl _) (Nat.le_add_right _ _)
    have h2 := h (now + POLICY_RELOAD_GRACE_MS) (Nat.le_add_right _ _) (Nat.le_refl _)
    omega
  · rintro ⟨hpos, rfl⟩ t h1 h2
    exact ⟨by omega, h2⟩

/-- After any run of inits, reloads and traffic, an accepted reload leaves a policy with its
context in grace exactly when the last init with crypto on was at the same reading of the
clock, and the tables it replaced hold the policy with that context. -/
theorem a_reload_leaves_a_policy_in_grace_iff_an_init_just_replaced_it {o : Openssl}
    {es : List Event} {s : State} (hrun : Run (Step o) { rt := Runtime.boot } es s)
    {now : Nat} (hnow : s.clock ≤ now) (hclock : now + POLICY_RELOAD_GRACE_MS < 2 ^ 64)
    {tls : Tls} {cfg : AppConfig} {rt' : Runtime}
    (hreload : forwarder_reload_config o tls cfg s.rt = some rt') (q : CryptoPolicy)
    (ctx : PacketCryptoCtx) :
    Graced rt' now q ctx ↔
      0 < now ∧ ∃ old, s.replaced = some (now, old) ∧ Holds old q ctx := by
  have hinv := hrun.invariant snapshot_boot fun _ _ _ h => snapshot_step h
  obtain ⟨-, -, hprev, huntil, -⟩ := forwarder_reload_config_some hreload
  have hgrace : ∀ t0 old, s.replaced = some (t0, old) → old.policies ≠ [] →
      rt'.prev = old ∧ rt'.prev_grace_until_ms = t0 + POLICY_RELOAD_GRACE_MS ∧ t0 ≤ now := by
    intro t0 old hr hne
    obtain ⟨h1, h2⟩ := hinv.taken t0 old hr hne
    have hle := hinv.clock t0 old hr
    rw [hprev, huntil, h1, h2, Nat.mod_eq_of_lt (by omega)]
    exact ⟨rfl, rfl, by omega⟩
  constructor
  · intro hg
    have hne := hg.holds.ne_nil
    -- the previous tables are not empty, so an init has filled them
    by_cases hex : ∃ t0 old, s.replaced = some (t0, old) ∧ old.policies ≠ []
    · obtain ⟨t0, old, hr, hold⟩ := hex
      obtain ⟨h1, h2, h3⟩ := hgrace t0 old hr hold
      obtain ⟨hpos, rfl⟩ := (grace_from_now_iff hne h2 h3).mp hg.active
      exact ⟨hpos, old, hr, by rw [← h1]; exact hg.holds⟩
    · exfalso
      apply hne
      rw [hprev]
      refine hinv.empty fun t0 old hr => ?_
      by_contra hold
      exact hex ⟨t0, old, hr, hold⟩
  · rintro ⟨hpos, old, hr, hh⟩
    obtain ⟨h1, h2, h3⟩ := hgrace now old hr hh.ne_nil
    have hh' : Holds rt'.prev q ctx := by
      rw [h1]
      exact hh
    exact ⟨hh', (grace_from_now_iff hh'.ne_nil h2 h3).mpr ⟨hpos, rfl⟩⟩

/-- A configuration with the policy of one id. -/
def only (id : Nat) : AppConfig := sampleCfg [samplePolicy id .encrypt_l4] one_policy_le

/-- A step of a concrete run. -/
def after (s : State) (e : Event) : State := (step sampleOpenssl s e).getD s

def bootState : State where
  rt := Runtime.boot

/-- An init with policy 7. -/
def initAt (now : Nat) : Event := .init now {} (fun _ => none) (only 7)

/-- The runtime after a reload that replaces policy 7 by policy 8. -/
def reloaded (s : State) : Runtime :=
  (forwarder_reload_config sampleOpenssl {} (only 8) s.rt).getD s.rt

/-- Two inits with policy 7, and the reload in the millisecond of the second one. -/
theorem a_reload_right_after_a_second_init_leaves_policy_7_in_grace :
    Graced (reloaded (after (after bootState (initAt 5)) (initAt 9))) 9 (samplePolicy 7 .encrypt_l4)
      (init_ctx sampleOpenssl 128 masterKey.toList) :=
  (a_reload_leaves_a_policy_in_grace_iff_an_init_just_replaced_it
    ((Run.single (s := bootState) (e := initAt 5) rfl).snoc (t := after bootState (initAt 5))
      (u := after (after bootState (initAt 5)) (initAt 9)) (e := initAt 9) rfl) (by decide)
    (by decide)
    (show forwarder_reload_config sampleOpenssl {} (only 8) _ = _ from rfl)
    (samplePolicy 7 .encrypt_l4) (init_ctx sampleOpenssl 128 masterKey.toList)).mpr
    ⟨by decide, _, rfl, 0, rfl, rfl, rfl, rfl⟩

/-- An init with policy 7, which gets its context, and later the reload: there are no previous
policies, and there is no grace. -/
theorem a_reload_leaves_no_grace :
    (after bootState (initAt 5)).rt.active.policies = [samplePolicy 7 .encrypt_l4] ∧
    (after bootState (initAt 5)).rt.active.ready 0 = true ∧
    forwarder_reload_config sampleOpenssl {} (only 8) (after bootState (initAt 5)).rt =
      some (reloaded (after bootState (initAt 5))) ∧
    (reloaded (after bootState (initAt 5))).prev.policies = [] ∧
    ∀ now, prev_policy_grace_active (reloaded (after bootState (initAt 5))) now = false :=
  ⟨rfl, rfl, rfl, rfl, fun _ => rfl⟩

end ne_ip.reload_grace
