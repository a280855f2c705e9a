-- The packet threads and the hot reload (forwarder.c, main.c): the threads handle
-- packets in a section that a reload drains before it changes what they use.
import NeIp.DrainGate
import NeIp.Daemon
import NeIp.Runs

open runs drain_gate ne_ip.packet_crypto ne_ip.config ne_ip.crypto_dispatch ne_ip.forwarder
open ne_ip.daemon

namespace ne_ip.packet_critical

/-! ## The state -/

/-- A `const struct crypto_policy *` into `cfg_slots[slot].policies`. -/
structure PolicyPtr where
  slot : Fin 2
  idx : Nat
  deriving DecidableEq, Repr

/-- `cp - fwd->cfg->policies`. The arrays of the two slots are further apart than
`MAX_CRYPTO_POLICIES` policies, so that a pointer into the other one has no index. -/
def ptr_diff (cp : PolicyPtr) (slot : Fin 2) : Option Nat :=
  if cp.slot = slot then some cp.idx else none

/-- What a thread could use when it entered its section. -/
structure Seen where
  slot : Fin 2
  cfg : AppConfig
  active : PolicyTables

/-- What a thread has done in its section: the policy that it selected, and the context that
it uses for it, `some none` being `bypass_crypto`. `seen` is kept for the laws only. -/
structure Work where
  seen : Seen
  cp : Option PolicyPtr := none
  use_ctx : Option (Option Nat) := none

/-- Where the main thread is in `apply_active_configs`: the merged configuration has been
copied into the next slot; in the `forwarder_reload_config` after it, the check has found
nothing to reload; or the packets are drained, `fwd->cfg` is switched, the crypto tables are
rebuilt, and the packets go on; and then the next slot becomes the active one. -/
inductive MainPc where
  | idle
  | staged
  | fast
  | pausing
  | draining
  | switching
  | rebuilding
  | resuming
  | finishing
  deriving DecidableEq, Repr

/-- The packet threads are those of `ι`. The gate is `g_reload_pause`, `g_inflight_packets` and
where each thread is in `packet_critical_enter` and `packet_critical_leave`. -/
structure State (ι : Type) where
  gate : Gate ι
  main : MainPc
  globals : Runtime
  fwd_cfg : Fin 2
  active_slot : Fin 2
  cfg_slots : Fin 2 → AppConfig
  work : ι → Work

/-- After `forwarder_init`, before the first packet. -/
def initial {ι : Type} (globals : Runtime) (slot : Fin 2) (cfg_slots : Fin 2 → AppConfig) :
    State ι where
  gate := Gate.open ι
  main := .idle
  globals := globals
  fwd_cfg := slot
  active_slot := slot
  cfg_slots := cfg_slots
  work := fun _ => { seen := { slot, cfg := cfg_slots slot, active := globals.active } }

variable {ι : Type} [DecidableEq ι]

/-! ## The packet threads -/

/-- What a thread that enters now sees. -/
def State.seen (s : State ι) : Seen where
  slot := s.fwd_cfg
  cfg := s.cfg_slots s.fwd_cfg
  active := s.globals.active

/-- The next atomic step of `packet_critical_enter`, or `packet_critical_leave`. -/
def packet_step (s : State ι) (i : ι) : State ι :=
  { s with
    gate := s.gate.reader i
    work := if s.gate.readers i = .looking then
        Function.update s.work i { seen := s.seen }
      else s.work }

/-- The selection of a policy: any policy of the configuration in use. -/
def select_policy (s : State ι) (i : ι) (idx : Nat) : Option (State ι) :=
  if s.gate.readers i = .inside ∧ (s.work i).cp = none ∧
      idx < (s.cfg_slots s.fwd_cfg).policies.length then
    some { s with
      work := Function.update s.work i { s.work i with cp := some ⟨s.fwd_cfg, idx⟩ } }
  else none

/-- The context for the selected policy, by its index in the configuration in use. -/
def use_policy (s : State ι) (i : ι) : Option (State ι) :=
  match (s.work i).cp with
  | none => none
  | some cp =>
    if s.gate.readers i = .inside ∧ (s.work i).use_ctx = none then
      let use_ctx :=
        match ptr_diff cp s.fwd_cfg with
        | none => none
        | some pi => if pi < MAX_CRYPTO_POLICIES ∧ s.globals.active.ready pi then some pi else none
      some { s with work := Function.update s.work i { s.work i with use_ctx := some use_ctx } }
    else none

/-! ## The main thread -/

/-- The next atomic step of `apply_active_configs` after the copy. `tls` are the crypto settings
of the main thread. -/
def main_step (o : Openssl) (tls : Tls) (s : State ι) : Option (State ι) :=
  let next_slot := 1 - s.active_slot
  let old := s.cfg_slots s.fwd_cfg
  let cfg := s.cfg_slots next_slot
  match s.main with
  | .idle => none
  | .staged =>
    some { s with main :=
      if !same_topology old cfg then .idle
      else if !crypto_runtime_changed old cfg && !forwarding_runtime_changed old cfg then .fast
      else .pausing }
  | .fast => some { s with main := .finishing, fwd_cfg := next_slot }
  | .pausing => some { s with main := .draining, gate := s.gate.write }
  | .draining =>
    some { s with
      main := if 0 < s.gate.counter then .draining else .switching
      gate := s.gate.write }
  | .switching => some { s with main := .rebuilding, fwd_cfg := next_slot }
  | .rebuilding =>
    match forwarder_reload_config o tls cfg { s.globals with fwd_cfg := s.cfg_slots s.active_slot } with
    | none => some { s with main := .resuming }
    | some globals =>
      some { s with
        main := .resuming
        globals
        cfg_slots := set_slot s.cfg_slots next_slot globals.fwd_cfg }
  | .resuming => some { s with main := .finishing, gate := s.gate.write }
  | .finishing => some { s with main := .idle, active_slot := next_slot }

/-! ## The steps -/

inductive Event (ι : Type) where
  | packet (i : ι)
  | select (i : ι) (idx : Nat)
  | use (i : ι)
  /-- An `apply_active_configs` begins: the copy of the merged configuration. -/
  | apply (merged_cfg : AppConfig)
  | main (tls : Tls)

def step (o : Openssl) (s : State ι) : Event ι → Option (State ι)
  | .packet i => some (packet_step s i)
  | .select i idx => select_policy s i idx
  | .use i => use_policy s i
  | .apply merged_cfg =>
    if s.main = .idle then
      some { s with
        main := .staged
        cfg_slots := set_slot s.cfg_slots (1 - s.active_slot) merged_cfg }
    else none
  | .main tls => main_step o tls s

def Step (o : Openssl) (s : State ι) (e : Event ι) (s' : State ι) : Prop := step o s e = some s'

/-! ## What a step of the main thread can do -/

inductive MainStep (s : State ι) : State ι → Prop where
  | check (pc : MainPc) : s.main = .staged → pc = .idle ∨ pc = .fast ∨ pc = .pausing →
      MainStep s { s with main := pc }
  | switch_at_once : s.main = .fast →
      MainStep s { s with main := .finishing, fwd_cfg := 1 - s.active_slot }
  | pause : s.main = .pausing → MainStep s { s with main := .draining, gate := s.gate.write }
  | wait : s.main = .draining → 0 < s.gate.counter →
      MainStep s { s with main := .draining, gate := s.gate.write }
  | drained : s.main = .draining → ¬ 0 < s.gate.counter →
      MainStep s { s with main := .switching, gate := s.gate.write }
  | switch : s.main = .switching →
      MainStep s { s with main := .rebuilding, fwd_cfg := 1 - s.active_slot }
  | rebuild (globals : Runtime) (cfg_slots : Fin 2 → AppConfig) : s.main = .rebuilding →
      MainStep s { s with main := .resuming, globals := globals, cfg_slots := cfg_slots }
  | resume : s.main = .resuming → MainStep s { s with main := .finishing, gate := s.gate.write }
  | finish : s.main = .finishing →
      MainStep s { s with main := .idle, active_slot := 1 - s.active_slot }

omit [DecidableEq ι] in
theorem main_step_cases {o : Openssl} {tls : Tls} {s s' : State ι}
    (h : main_step o tls s = some s') : MainStep s s' := by
  unfold main_step at h
  cases hm : s.main with
  | idle => simp [hm] at h
  | staged =>
    simp only [hm] at h
    obtain rfl := Option.some.inj h
    refine .check _ hm ?_
    split
    · exact Or.inl rfl
    · split
      · exact Or.inr (Or.inl rfl)
      · exact Or.inr (Or.inr rfl)
  | fast =>
    simp only [hm] at h
    obtain rfl := Option.some.inj h
    exact .switch_at_once hm
  | pausing =>
    simp only [hm] at h
    obtain rfl := Option.some.inj h
    exact .pause hm
  | draining =>
    simp only [hm] at h
    obtain rfl := Option.some.inj h
    split
    · exact .wait hm ‹_›
    · exact .drained hm ‹_›
  | switching =>
    simp only [hm] at h
    obtain rfl := Option.some.inj h
    exact .switch hm
  | rebuilding =>
    simp only [hm] at h
    split at h
    · obtain rfl := Option.some.inj h
      exact .rebuild s.globals s.cfg_slots hm
    · obtain rfl := Option.some.inj h
      exact .rebuild _ _ hm
  | resuming =>
    simp only [hm] at h
    obtain rfl := Option.some.inj h
    exact .resume hm
  | finishing =>
    simp only [hm] at h
    obtain rfl := Option.some.inj h
    exact .finish hm

omit [DecidableEq ι] in
theorem MainStep.work {s s' : State ι} (h : MainStep s s') : s'.work = s.work := by
  cases h <;> rfl

omit [DecidableEq ι] in
theorem MainStep.readers {s s' : State ι} (h : MainStep s s') :
    s'.gate.readers = s.gate.readers := by
  cases h <;> first | rfl | exact write_readers s.gate

end ne_ip.packet_critical
