-- One configuration for each packet: what a packet thread finds in its section is what
-- it found when it entered, as long as no reload switches the slot without a drain.
import NeIp.ReloadDrain

open runs drain_gate ne_ip.packet_crypto ne_ip.config ne_ip.crypto_dispatch ne_ip.forwarder
open ne_ip.sample
open ne_ip.daemon hiding Event step Step
open ne_ip.packet_critical ne_ip.reload_drain

namespace ne_ip.one_config

variable {ι : Type}

/-! ## What a thread relies on -/

/-- The context that a policy has for a thread: its own, when there is one. -/
def ownCtx (active : PolicyTables) (cp : PolicyPtr) : Option Nat :=
  if cp.idx < MAX_CRYPTO_POLICIES ∧ active.ready cp.idx then some cp.idx else none

/-- `fwd->cfg` and what it points to are what the thread saw when it entered, so its policy
has its index, and the policy's context is used if it was ready. -/
structure Keeps (s : State ι) (i : ι) : Prop where
  fwd_cfg : s.fwd_cfg = (s.work i).seen.slot
  cfg : s.cfg_slots (s.work i).seen.slot = (s.work i).seen.cfg
  active : s.globals.active = (s.work i).seen.active
  cp : ∀ cp, (s.work i).cp = some cp → ptr_diff cp s.fwd_cfg = some cp.idx
  use_ctx : ∀ use_ctx, (s.work i).use_ctx = some use_ctx →
    ∃ cp, (s.work i).cp = some cp ∧ use_ctx = ownCtx (s.work i).seen.active cp

def OneConfig (s : State ι) : Prop := ∀ i, s.gate.readers i = .inside → Keeps s i

/-- A reload that found nothing to reload switches the slot only while nobody is in a section. -/
def Quiet (s : State ι) : Event ι → Prop
  | .main _ => s.main = .fast → ∀ i, s.gate.readers i ≠ .inside
  | _ => True

instance [Fintype ι] (s : State ι) : (e : Event ι) → Decidable (Quiet s e)
  | .main _ => inferInstanceAs (Decidable (s.main = .fast → ∀ i, s.gate.readers i ≠ .inside))
  | .packet _ | .select _ _ | .use _ | .apply _ => inferInstanceAs (Decidable True)

/-! ## What a step keeps -/

/-- A thread that a step does not move keeps what it relies on with the slot and the tables. -/
theorem Keeps.same {s s' : State ι} {i : ι} (h : Keeps s i) (hwork : s'.work i = s.work i)
    (hfwd : s'.fwd_cfg = s.fwd_cfg) (hslot : s'.cfg_slots s.fwd_cfg = s.cfg_slots s.fwd_cfg)
    (hactive : s'.globals.active = s.globals.active) : Keeps s' i where
  fwd_cfg := by rw [hfwd, hwork, h.fwd_cfg]
  cfg := by rw [hwork, ← h.fwd_cfg, hslot, h.fwd_cfg, h.cfg]
  active := by rw [hactive, hwork, h.active]
  cp := by rw [hfwd, hwork]; exact h.cp
  use_ctx := by rw [hwork]; exact h.use_ctx

variable [DecidableEq ι]

theorem OneConfig.packet {s : State ι} (h : OneConfig s) (i : ι) : OneConfig (packet_step s i) := by
  intro j hj
  by_cases hij : j = i
  · subst hij
    -- it enters, and sees what is there
    have hlook : s.gate.readers j = .looking := reader_inside hj
    have hwork : (packet_step s j).work j = { seen := s.seen } := by
      unfold packet_step
      rw [if_pos hlook]
      exact Function.update_self j _ s.work
    exact ⟨by rw [hwork]; rfl, by rw [hwork]; rfl, by rw [hwork]; rfl, by rw [hwork]; nofun,
      by rw [hwork]; nofun⟩
  · have hin : s.gate.readers j = .inside := (reader_other hij).symm.trans hj
    refine (h j hin).same ?_ rfl rfl rfl
    unfold packet_step
    dsimp only
    split
    · exact Function.update_of_ne hij _ _
    · rfl

theorem OneConfig.select {s s' : State ι} (h : OneConfig s) {i : ι} {idx : Nat}
    (hstep : select_policy s i idx = some s') : OneConfig s' := by
  unfold select_policy at hstep
  split at hstep
  · rename_i hc
    obtain rfl := Option.some.inj hstep
    intro j hj
    have hk := h j hj
    by_cases hij : j = i
    · subst hij
      refine ⟨?_, ?_, ?_, ?_, ?_⟩ <;> simp only [Function.update_self]
      · exact hk.fwd_cfg
      · exact hk.cfg
      · exact hk.active
      · intro cp hcp
        obtain rfl := Option.some.inj hcp
        exact if_pos rfl
      · intro use_ctx hu
        obtain ⟨cp, hcp, -⟩ := hk.use_ctx use_ctx hu
        rw [hc.2.1] at hcp
        simp at hcp
    · exact hk.same (Function.update_of_ne hij _ _) rfl rfl rfl
  · simp at hstep

theorem OneConfig.use {s s' : State ι} (h : OneConfig s) {i : ι}
    (hstep : use_policy s i = some s') : OneConfig s' := by
  unfold use_policy at hstep
  split at hstep
  · simp at hstep
  rename_i cp hcp
  split at hstep
  · obtain rfl := Option.some.inj hstep
    intro j hj
    have hk := h j hj
    by_cases hij : j = i
    · subst hij
      refine ⟨?_, ?_, ?_, ?_, ?_⟩ <;> simp only [Function.update_self]
      · exact hk.fwd_cfg
      · exact hk.cfg
      · exact hk.active
      · exact hk.cp
      · intro use_ctx hu
        obtain rfl := Option.some.inj hu
        refine ⟨cp, hcp, ?_⟩
        rw [hk.cp cp hcp, ← hk.active]
        rfl
    · exact hk.same (Function.update_of_ne hij _ _) rfl rfl rfl
  · simp at hstep

omit [DecidableEq ι] in
/-- The copy goes into the slot that is not in use. -/
theorem OneConfig.apply [Fintype ι] {s : State ι} (h : OneConfig s) (hheld : Held s)
    (hm : s.main = .idle) (merged_cfg : AppConfig) :
    OneConfig { s with
      main := .staged
      cfg_slots := set_slot s.cfg_slots (1 - s.active_slot) merged_cfg } := by
  intro j hj
  refine (h j hj).same rfl rfl (set_slot_of_ne ?_ merged_cfg) rfl
  rw [hheld.on_active_slot (Or.inl hm)]
  exact next_slot_ne s.active_slot

omit [DecidableEq ι] in
theorem OneConfig.main [Fintype ι] {s s' : State ι} (h : OneConfig s) (hheld : Held s)
    (hquiet : s.main = .fast → ∀ i, s.gate.readers i ≠ .inside) (hstep : MainStep s s') :
    OneConfig s' := by
  intro j hj
  rw [hstep.readers] at hj
  cases hstep with
  | check | pause | wait | drained | resume | finish => exact (h j hj).same rfl rfl rfl rfl
  | switch_at_once hm => exact absurd hj (hquiet hm j)
  | switch hm => exact absurd hj (hheld.alone (Or.inl hm) j)
  | rebuild _ _ hm => exact absurd hj (hheld.alone (Or.inr (Or.inl hm)) j)

theorem OneConfig.step [Fintype ι] {o : Openssl} {s s' : State ι} {e : Event ι} (h : OneConfig s)
    (hheld : Held s) (hquiet : Quiet s e) (hstep : Step o s e s') : OneConfig s' := by
  unfold Step packet_critical.step at hstep
  cases e with
  | packet i =>
    obtain rfl := Option.some.inj hstep
    exact h.packet i
  | select i idx => exact h.select hstep
  | use i => exact h.use hstep
  | apply merged_cfg =>
    simp only at hstep
    split at hstep
    · obtain rfl := Option.some.inj hstep
      exact h.apply hheld ‹_› merged_cfg
    · simp at hstep
  | main tls => exact h.main hheld hquiet (main_step_cases hstep)

/-- A switch at once is seen by everyone who is in a section. -/
theorem OneConfig.quiet [Fintype ι] {o : Openssl} {s s' : State ι} {e : Event ι}
    (h : OneConfig s) (hheld : Held s) (hstep : Step o s e s') (h' : OneConfig s') :
    Quiet s e := by
  cases e with
  | packet | select | use | apply => trivial
  | main tls =>
    intro hm i hin
    have hk := h i hin
    have hmain := main_step_cases hstep
    cases hmain with
    | switch_at_once =>
      have hk' := (h' i hin).fwd_cfg
      dsimp only at hk'
      rw [← hk.fwd_cfg, hheld.on_active_slot (Or.inr hm)] at hk'
      exact next_slot_ne s.active_slot hk'.symm
    | check _ h1 | pause h1 | wait h1 | drained h1 | switch h1 | rebuild _ _ h1 | resume h1
    | finish h1 => simp [hm] at h1

/-- For any number of threads and any interleaving with any reloads of which none switches at
once with somebody in a section, every thread in a section finds what it saw when it entered;
and the next step leaves it so exactly when it is no such switch. -/
theorem a_packet_sees_one_configuration_unless_a_reload_does_not_wait [Fintype ι] {o : Openssl}
    {globals : Runtime} {slot : Fin 2} {cfg_slots : Fin 2 → AppConfig} {es : List (Event ι)}
    {s : State ι} (hrun : Run (Guarded Quiet (Step o)) (initial globals slot cfg_slots) es s) :
    OneConfig s ∧ ∀ e s', Step o s e s' → (OneConfig s' ↔ Quiet s e) := by
  have hinv : Held s ∧ OneConfig s := by
    refine hrun.invariant (P := fun s => Held s ∧ OneConfig s)
      ⟨held_initial globals slot cfg_slots, nofun⟩ ?_
    rintro t e u ⟨hheld, hone⟩ ⟨hquiet, hstep⟩
    exact ⟨hheld.step hstep, hone.step hheld hquiet hstep⟩
  obtain ⟨hheld, hone⟩ := hinv
  refine ⟨hone, fun e s' hstep => ⟨hone.quiet hheld hstep, fun hquiet => ?_⟩⟩
  exact hone.step hheld hquiet hstep

/-- A thread that goes in. -/
def enters (i : Fin 2) : List (Event (Fin 2)) := [.packet i, .packet i, .packet i, .packet i]

/-- Policy 0 for the packet of thread 0, while a reload with a new policy begins to wait. -/
def waitedFor : List (Event (Fin 2)) :=
  enters 0 ++ [.select 0 0,
    .apply (sampleCfg [samplePolicy 8 .encrypt_l4] one_policy_le), .main {}, .main {},
    .use 0]

theorem a_packet_sees_one_configuration_while_a_reload_waits_for_it :
    OneConfig (afterAll (sampleState 7) waitedFor) :=
  have hrun : Run (Guarded Quiet (Step sampleOpenssl)) (sampleState 7) waitedFor
      (afterAll (sampleState 7) waitedFor) := Run.guarded_of_foldlM rfl
  (a_packet_sees_one_configuration_unless_a_reload_does_not_wait hrun).1

/-- The same with a reload of the configuration that is in use. -/
def switchedUnder : List (Event (Fin 2)) :=
  enters 0 ++ [.select 0 0,
    .apply (sampleCfg [samplePolicy 7 .encrypt_l4] one_policy_le), .main {}, .main {},
    .use 0]

/-- The policy is to encrypt and its context is ready, but its index is gone, and the packet is
taken for one without a context. -/
theorem a_packet_loses_its_policy_under_a_reload_that_does_not_wait :
    Run (Step sampleOpenssl) (sampleState 7) switchedUnder
      (afterAll (sampleState 7) switchedUnder) ∧
    (afterAll (sampleState 7) switchedUnder).gate.readers 0 = .inside ∧
    ((afterAll (sampleState 7) switchedUnder).work 0).cp = some ⟨0, 0⟩ ∧
    ((sampleState 7).cfg_slots 0).policies[0]? = some (samplePolicy 7 .encrypt_l4) ∧
    (sampleState 7).globals.active.ready 0 = true ∧
    ((afterAll (sampleState 7) switchedUnder).work 0).use_ctx = some none ∧
    ¬ OneConfig (afterAll (sampleState 7) switchedUnder) := by
  refine ⟨Run.of_foldlM rfl, rfl, rfl, rfl, rfl, rfl, fun h => ?_⟩
  have hslot : (1 : Fin 2) = 0 := (h 0 rfl).fwd_cfg
  simp at hslot

end ne_ip.one_config
