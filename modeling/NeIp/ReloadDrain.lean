-- The hot reload against the packet threads: it changes what they use while nobody
-- is in a packet section, except where it finds nothing to reload and does not wait.
import NeIp.PacketCritical
import NeIp.Sample

open runs drain_gate ne_ip.packet_crypto ne_ip.config ne_ip.crypto_dispatch ne_ip.forwarder
open ne_ip.sample
open ne_ip.daemon hiding Event step Step
open ne_ip.packet_critical

namespace ne_ip.reload_drain

variable {ι : Type}

/-! ## The drain -/

/-- Where the reload is as the writer of the gate. -/
def writerOf : MainPc → WriterPc
  | .draining => .draining
  | .switching | .rebuilding | .resuming => .exclusive
  | _ => .idle

/-- The slot that `fwd->cfg` points to: between the switch and the end it is the next one. -/
def slotOf (s : State ι) : Fin 2 :=
  match s.main with
  | .rebuilding | .resuming | .finishing => 1 - s.active_slot
  | _ => s.active_slot

structure Held [Fintype ι] (s : State ι) : Prop where
  gate : Inv s.gate
  writer : s.gate.writer = writerOf s.main
  slot : s.fwd_cfg = slotOf s

theorem held_initial [Fintype ι] (globals : Runtime) (slot : Fin 2) (cfg_slots : Fin 2 → AppConfig) :
    Held (initial (ι := ι) globals slot cfg_slots) :=
  ⟨inv_open, rfl, rfl⟩

/-- A reload that has not switched yet leaves `fwd->cfg` on the active slot. -/
theorem Held.on_active_slot [Fintype ι] {s : State ι} (h : Held s)
    (hm : s.main = .idle ∨ s.main = .fast) : s.fwd_cfg = s.active_slot := by
  rw [h.slot]
  unfold slotOf
  rcases hm with hm | hm <;> rw [hm]

variable [DecidableEq ι]

omit [DecidableEq ι] in
theorem Held.main_step [Fintype ι] {s s' : State ι} (h : Held s) (hstep : MainStep s s') :
    Held s' := by
  obtain ⟨hgate, hwriter, hslot⟩ := h
  unfold slotOf at hslot
  cases hstep with
  | check pc hm hpc =>
    simp only [hm, writerOf] at hwriter hslot
    rcases hpc with rfl | rfl | rfl <;> exact ⟨hgate, hwriter, hslot⟩
  | switch_at_once hm =>
    simp only [hm, writerOf] at hwriter
    exact ⟨hgate, hwriter, rfl⟩
  | pause hm =>
    simp only [hm, writerOf] at hwriter hslot
    exact ⟨hgate.write, by simp only [Gate.write, hwriter]; rfl, hslot⟩
  | wait hm hpos =>
    simp only [hm, writerOf] at hwriter hslot
    exact ⟨hgate.write, by simp only [Gate.write, hwriter, if_pos hpos]; rfl, hslot⟩
  | drained hm hzero =>
    simp only [hm, writerOf] at hwriter hslot
    exact ⟨hgate.write, by simp only [Gate.write, hwriter, if_neg hzero]; rfl, hslot⟩
  | switch hm =>
    simp only [hm, writerOf] at hwriter
    exact ⟨hgate, hwriter, rfl⟩
  | rebuild globals cfg_slots hm =>
    simp only [hm, writerOf] at hwriter hslot
    exact ⟨hgate, hwriter, hslot⟩
  | resume hm =>
    simp only [hm, writerOf] at hwriter hslot
    exact ⟨hgate.write, by simp only [Gate.write, hwriter]; rfl, hslot⟩
  | finish hm =>
    simp only [hm, writerOf] at hwriter hslot
    exact ⟨hgate, hwriter, hslot⟩

theorem Held.step [Fintype ι] {o : Openssl} {s s' : State ι} {e : Event ι} (h : Held s)
    (hstep : Step o s e s') : Held s' := by
  unfold Step packet_critical.step at hstep
  cases e with
  | packet i =>
    obtain rfl := Option.some.inj hstep
    exact ⟨h.gate.reader i, (reader_writer s.gate i).trans h.writer, h.slot⟩
  | select i idx =>
    simp only [select_policy] at hstep
    split at hstep
    · obtain rfl := Option.some.inj hstep
      exact ⟨h.gate, h.writer, h.slot⟩
    · simp at hstep
  | use i =>
    simp only [use_policy] at hstep
    split at hstep
    · simp at hstep
    split at hstep
    · obtain rfl := Option.some.inj hstep
      exact ⟨h.gate, h.writer, h.slot⟩
    · simp at hstep
  | apply merged_cfg =>
    simp only at hstep
    split at hstep
    · rename_i hm
      obtain rfl := Option.some.inj hstep
      have hwriter := h.writer
      have hslot := h.slot
      unfold slotOf at hslot
      simp only [hm, writerOf] at hwriter hslot
      exact ⟨h.gate, hwriter, hslot⟩
    · simp at hstep
  | main tls => exact h.main_step (main_step_cases hstep)

/-- Between the end of its wait loop and the store that lets the packets go on. -/
def drained (s : State ι) : Prop :=
  s.main = .switching ∨ s.main = .rebuilding ∨ s.main = .resuming

omit [DecidableEq ι] in
theorem Held.alone [Fintype ι] {s : State ι} (h : Held s) (hd : drained s) (i : ι) :
    s.gate.readers i ≠ .inside := by
  refine h.gate.exclusive (h.writer.trans ?_) i
  rcases hd with hm | hm | hm <;> rw [hm] <;> rfl

/-- For any number of packet threads and any interleaving with any reloads, nobody is in a
packet section while a reload has drained it, and the counter counts those in a section and
those that are counted for a moment. -/
theorem a_drained_reload_is_alone [Fintype ι] {o : Openssl} {globals : Runtime} {slot : Fin 2}
    {cfg_slots : Fin 2 → AppConfig} {es : List (Event ι)} {s : State ι}
    (hrun : Run (Step o) (initial globals slot cfg_slots) es s) :
    (drained s → ∀ i, s.gate.readers i ≠ .inside) ∧
    s.gate.counter =
      number (· == .inside) s.gate.readers + number ReaderPc.transient s.gate.readers ∧
    0 ≤ s.gate.counter := by
  have h := hrun.invariant (held_initial globals slot cfg_slots) fun _ _ _ => Held.step
  have hcount := h.gate.counter
  rw [number_counted] at hcount
  exact ⟨h.alone, by exact_mod_cast hcount, by omega⟩

/-! ## The reload in one step -/

/-- The two models have the same slots and globals. -/
structure Shows (s : State ι) (d : Daemon) : Prop where
  fwd_cfg : d.rt.fwd_cfg = some s.fwd_cfg
  active_slot : d.rt.active_slot = s.active_slot
  cfg_slots : d.rt.cfg_slots = s.cfg_slots
  globals : { d.globals with fwd_cfg := d.rt.cfg_slots s.fwd_cfg } =
    { s.globals with fwd_cfg := s.cfg_slots s.fwd_cfg }

/-- What is left of a reload of `cfg` whose `forwarder_reload_config` gives `r`. -/
structure Reloaded (s t : State ι) (cfg : AppConfig) (r : Option Runtime) : Prop where
  rejected : r = none → t.fwd_cfg = s.fwd_cfg ∧ t.active_slot = s.active_slot ∧
    t.cfg_slots = set_slot s.cfg_slots (1 - s.active_slot) cfg ∧ t.globals = s.globals
  accepted : ∀ g, r = some g → t.fwd_cfg = 1 - s.active_slot ∧
    t.active_slot = 1 - s.active_slot ∧
    t.cfg_slots = set_slot s.cfg_slots (1 - s.active_slot) g.fwd_cfg ∧
    { t.globals with fwd_cfg := g.fwd_cfg } = g

/-- The globals with the configuration in use. -/
def State.runtime (s : State ι) : Runtime :=
  { s.globals with fwd_cfg := s.cfg_slots s.active_slot }

omit [DecidableEq ι] in
/-- It is what the daemon does at once. -/
theorem Reloaded.shows {o : Openssl} {tls : Tls} {s t : State ι} {d : Daemon} {cfg : AppConfig}
    (hr : Reloaded s t cfg (forwarder_reload_config o tls cfg (State.runtime s))) (h : Shows s d)
    (hslot : s.fwd_cfg = s.active_slot) : Shows t (reload_slot o tls cfg (stage cfg d)).2 := by
  obtain ⟨hfwd, hactive, hslots, hglobals⟩ := h
  have hkeep : set_slot s.cfg_slots (1 - s.active_slot) cfg s.active_slot =
      s.cfg_slots s.active_slot := set_slot_of_ne (next_slot_ne s.active_slot) cfg
  have hrt : { (stage cfg d).globals with fwd_cfg := (stage cfg d).rt.cfg_slots s.fwd_cfg } =
      State.runtime s := by
    simp only [stage, hactive, hslots, hslot, hkeep] at hglobals ⊢
    exact hglobals
  unfold reload_slot
  rw [show (stage cfg d).rt.fwd_cfg = some s.fwd_cfg from hfwd]
  dsimp only
  rw [hrt]
  generalize forwarder_reload_config o tls cfg (State.runtime s) = r at hr
  cases r with
  | none =>
    obtain ⟨h1, h2, h3, h4⟩ := hr.rejected rfl
    refine ⟨hfwd.trans (by rw [h1]), hactive.trans h2.symm, ?_, ?_⟩
    · simp only [stage, hactive, hslots, h3]
    · rw [h1, h3, h4, hslot, hkeep, ← hslot]
      simpa only [stage, hactive, hslots, hslot, hkeep, State.runtime] using hrt
  | some g =>
    obtain ⟨h1, h2, h3, h4⟩ := hr.accepted g rfl
    refine ⟨?_, ?_, ?_, ?_⟩
    · simp only [stage, hactive, h1]
    · simp only [stage, hactive, h2]
    · simp only [stage, hactive, hslots, h3, set_slot_set_slot]
    · simp only [stage, hactive, hslots, h3, h1, set_slot_self, h4]

omit [DecidableEq ι] in
theorem runtime_staged (s : State ι) (cfg : AppConfig) :
    set_slot s.cfg_slots (1 - s.active_slot) cfg s.active_slot = s.cfg_slots s.active_slot :=
  set_slot_of_ne (next_slot_ne s.active_slot) cfg

/-- When no thread is counted, the steps of the main thread taken one after the other are the
reload that the daemon makes at once. -/
theorem the_steps_of_a_reload_make_the_reload [Fintype ι] {o : Openssl} {tls : Tls}
    {s : State ι} {d : Daemon} (hheld : Held s) (hidle : s.main = .idle)
    (hcount : s.gate.counter = 0) (h : Shows s d) (cfg : AppConfig) :
    ∃ n s', Run (Step o) s (.apply cfg :: List.replicate n (.main tls)) s' ∧
      s'.main = .idle ∧ Shows s' (reload_slot o tls cfg (stage cfg d)).2 := by
  have hslot := hheld.on_active_slot (Or.inl hidle)
  have hwriter : s.gate.writer = .idle := by
    rw [hheld.writer, hidle]
    rfl
  have hkeep := runtime_staged s cfg
  have hself := set_slot_self s.cfg_slots (1 - s.active_slot) cfg
  have hsome := forwarder_reload_config_isSome o tls cfg (State.runtime s)
  cases htop : same_topology (s.cfg_slots s.active_slot) cfg with
  | false =>
    refine ⟨1, _, Run.of_foldlM (t := { s with
      main := .idle, cfg_slots := set_slot s.cfg_slots (1 - s.active_slot) cfg }) ?_, rfl,
      Reloaded.shows ⟨?_, ?_⟩ h hslot⟩
    · simp [step, main_step, hidle, hslot, hkeep, htop]
    · exact fun _ => ⟨rfl, rfl, rfl, rfl⟩
    · intro g hg
      rw [hg, show (State.runtime s).fwd_cfg = s.cfg_slots s.active_slot from rfl, htop] at hsome
      simp at hsome
  | true =>
    by_cases hsame : crypto_runtime_changed (s.cfg_slots s.active_slot) cfg = false ∧
        forwarding_runtime_changed (s.cfg_slots s.active_slot) cfg = false
    · have hr : forwarder_reload_config o tls cfg (State.runtime s) =
          some { State.runtime s with fwd_cfg := cfg } := by
        simp [forwarder_reload_config, State.runtime, htop, hsame]
      refine ⟨3, _, Run.of_foldlM (t := { s with
        main := .idle, fwd_cfg := 1 - s.active_slot, active_slot := 1 - s.active_slot
        cfg_slots := set_slot s.cfg_slots (1 - s.active_slot) cfg }) ?_, rfl,
        Reloaded.shows ⟨?_, ?_⟩ h hslot⟩
      · simp [step, main_step, hidle, hslot, hkeep, htop, hsame]
      · simp [hr]
      · intro g hg
        obtain rfl := Option.some.inj (hr.symm.trans hg)
        exact ⟨rfl, rfl, rfl, rfl⟩
    · obtain ⟨g, hg⟩ := Option.isSome_iff_exists.mp (hsome.trans htop)
      have hrebuild : forwarder_reload_config o tls cfg { s.globals with
          fwd_cfg := s.cfg_slots s.active_slot } = some g := hg
      have hdrained : ¬ 0 < s.gate.write.counter := by
        simp [Gate.write, hwriter, hcount]
      refine ⟨7, _, Run.of_foldlM (t := { s with
        main := .idle, gate := s.gate.write.write.write, globals := g
        fwd_cfg := 1 - s.active_slot, active_slot := 1 - s.active_slot
        cfg_slots := set_slot (set_slot s.cfg_slots (1 - s.active_slot) cfg) (1 - s.active_slot)
          g.fwd_cfg }) ?_, rfl, Reloaded.shows ⟨?_, ?_⟩ h hslot⟩
      · simp [step, main_step, hidle, hslot, hkeep, htop, hsame, hdrained, hrebuild]
      · simp [hg]
      · intro g' hg'
        obtain rfl := Option.some.inj (hg.symm.trans hg')
        exact ⟨rfl, rfl, set_slot_set_slot _ _ _ _, rfl⟩

/-! ## Two threads -/

/-- What the run of two threads starts from: the forwarder is up with the policy of one id. -/
def sampleState (id : Nat) : State (Fin 2) :=
  let cfg := sampleCfg [samplePolicy id .encrypt_l4] one_policy_le
  initial (forwarder_init sampleOpenssl {} 5 (fun _ => none) cfg Runtime.boot).2 0 fun _ => cfg

/-- A thread that goes in, and one that counts itself in while a reload waits for it. -/
def waitingReload : List (Event (Fin 2)) :=
  [.packet 0, .packet 0, .packet 0, .packet 0, .packet 1, .packet 1,
    .apply (sampleCfg [samplePolicy 8 .encrypt_l4] one_policy_le), .main {}, .main {},
    .packet 1, .main {}, .packet 0, .packet 1, .packet 1, .main {}]

def afterAll (s : State (Fin 2)) (es : List (Event (Fin 2))) : State (Fin 2) :=
  (es.foldlM (step sampleOpenssl) s).getD s

/-- The reload waits for both and is alone after it. -/
theorem a_reload_waits_for_two_threads :
    drained (afterAll (sampleState 7) waitingReload) ∧
    ∀ i, (afterAll (sampleState 7) waitingReload).gate.readers i ≠ .inside :=
  have hrun : Run (Step sampleOpenssl) (sampleState 7) waitingReload
      (afterAll (sampleState 7) waitingReload) := Run.of_foldlM rfl
  ⟨Or.inl rfl, (a_drained_reload_is_alone hrun).1 (Or.inl rfl)⟩

end ne_ip.reload_drain
