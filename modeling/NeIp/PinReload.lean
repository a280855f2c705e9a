-- Pinned policies under hot reload (forwarder.c): an entry keeps a bare index, and the
-- array that it points into is replaced with every reload.
import NeIp.PolicySelect
import NeIp.Runs
import NeIp.Sample
import NeIp.TcpPolicyPin

open ne_ip.packet_crypto ne_ip.config ne_ip.flow ne_ip.flow_table ne_ip.forwarder ne_ip.policy_select
open ne_ip.tcp_policy_pin ne_ip.sample runs

namespace ne_ip.pin_reload

/-- The runtime and the pins. `set_policy` is no data of the program: it keeps the policy that
was in force when the entry of a flow was last set. -/
structure PinState where
  rt : Runtime
  pins : PinTable
  set_policy : PinKey → Option CryptoPolicy

/-- After `forwarder_init`. -/
def PinState.start (rt : Runtime) : PinState where
  rt := rt
  pins := tcp_policy_pin_clear_all
  set_policy := fun _ => none

/-! ## What the threads do with the pins -/

def set_pin (s : PinState) (now : Nat) (f : FlowKey) (pi : Nat) : PinState :=
  { s with
    pins := tcp_policy_pin_set s.rt.crypto_enabled now f pi s.pins
    set_policy := fun key =>
      if s.rt.crypto_enabled ∧ key = pin_key f then s.rt.fwd_cfg.policies[pi]? else s.set_policy key }

def remove_pin (s : PinState) (f : FlowKey) : PinState :=
  { s with pins := tcp_policy_pin_remove s.rt.crypto_enabled f s.pins }

def lookup_pin (s : PinState) (now : Nat) (f : FlowKey) : Option Nat × PinState :=
  let r := tcp_policy_pin_lookup s.rt now f s.pins
  (r.1, { s with pins := r.2 })

/-- What `worker_thread` does with the pins for a packet with a flow. `reaches_remove` says that
the packet was encrypted and sent and ends its connection. -/
def worker_pins (s : PinState) (now local_idx : Nat) (f : FlowKey) (reaches_remove : Bool) :
    PinState :=
  if !s.rt.crypto_enabled ∨ f.protocol ≠ IPPROTO_TCP then s
  else
    let r := lookup_pin s now f
    match r.1.or (crypto_select_policy_for_local s.rt.fwd_cfg local_idx f) with
    | none => r.2
    | some pi =>
      let s := if pin_usable s.rt pi then set_pin r.2 now f pi else r.2
      if reaches_remove then remove_pin s f else s

/-- `policy_index_from_action_id_current`. -/
def policy_index_from_action_id_current (rt : Runtime) (action : PolicyAction) (policy_id : UInt8) :
    Option Nat :=
  match rt.active.index_by_action_id action policy_id with
  | none => none
  | some pi =>
    if pi < rt.fwd_cfg.policies.length ∧ pi < MAX_CRYPTO_POLICIES ∧ rt.active.ready pi then some pi
    else none

/-- What `wan_queue_thread_l3l4` does with the pins for a decrypted packet with a flow. -/
def wan_pins (s : PinState) (now : Nat) (f : FlowKey) (action : PolicyAction) (policy_id : UInt8) :
    PinState :=
  match policy_index_from_action_id_current s.rt action policy_id with
  | none => s
  | some pi => if f.protocol = IPPROTO_TCP then set_pin s now f pi else s

/-- What happens to the pins: a packet of either side, an operation on its own (a set with the
index of some policy), the gc of one bucket, and a reload. -/
inductive PinEvent where
  | outbound (now local_idx : Nat) (f : FlowKey) (reaches_remove : Bool)
  | inbound (now : Nat) (f : FlowKey) (action : PolicyAction) (policy_id : UInt8)
  | lookup (now : Nat) (f : FlowKey)
  | set (now : Nat) (f : FlowKey) (pi : Nat)
  | remove (f : FlowKey)
  | gc (now i : Nat)
  | reload (tls : Tls) (cfg : AppConfig)

/-- A reload clears the pins when it rebuilds the crypto tables. -/
def reload_pins (o : Openssl) (tls : Tls) (cfg : AppConfig) (s : PinState) : Option PinState :=
  (forwarder_reload_config o tls cfg s.rt).map fun rt =>
    { s with rt, pins := if rebuilds s.rt cfg then tcp_policy_pin_clear_all else s.pins }

def pin_step (o : Openssl) (s : PinState) : PinEvent → Option PinState
  | .outbound now local_idx f reaches_remove => some (worker_pins s now local_idx f reaches_remove)
  | .inbound now f action policy_id => some (wan_pins s now f action policy_id)
  | .lookup now f => some (lookup_pin s now f).2
  | .set now f pi => if pi < s.rt.fwd_cfg.policies.length then some (set_pin s now f pi) else none
  | .remove f => some (remove_pin s f)
  | .gc now i => some { s with pins := tcp_policy_pin_gc_bucket now i s.pins }
  | .reload tls cfg => reload_pins o tls cfg s

/-! ## The invariant -/

/-- The index of an entry still names what it named when the entry was set. -/
def NamesItsPolicy (s : PinState) (e : PinEntry) : Prop :=
  ∃ cp, s.rt.fwd_cfg.policies[e.policy_pi]? = some cp ∧ s.set_policy e.key = some cp

structure PinsOk (s : PinState) : Prop where
  flag : s.rt.crypto_enabled = s.rt.fwd_cfg.crypto_enabled
  buckets : ∀ i, BucketOk i (s.pins i)
  meaning : s.rt.crypto_enabled = true → ∀ i e, e ∈ s.pins i → NamesItsPolicy s e

/-- One bucket with no new flow and no new index. -/
theorem PinsOk.set_bucket {s : PinState} (h : PinsOk s) {idx : Nat} {bucket : List PinEntry}
    (hb : BucketOk idx bucket)
    (hold : ∀ e ∈ bucket, ∃ e0 ∈ s.pins idx, e.key = e0.key ∧ e.policy_pi = e0.policy_pi) :
    PinsOk { s with pins := s.pins.set_bucket idx bucket } := by
  refine ⟨h.flag, BucketOk.set_bucket h.buckets hb, fun hen i e he => ?_⟩
  rcases PinTable.mem_set_bucket he with ⟨-, hmem⟩ | ⟨-, hmem⟩
  · obtain ⟨e0, he0, hkey, hpi⟩ := hold e hmem
    obtain ⟨cp, hcp, hset⟩ := h.meaning hen idx e0 he0
    exact ⟨cp, by rw [hpi]; exact hcp, by rw [hkey]; exact hset⟩
  · exact h.meaning hen i e hmem

/-- Entries that are gone do no harm. -/
theorem PinsOk.drop_from_bucket {s : PinState} (h : PinsOk s) {idx : Nat} {bucket : List PinEntry}
    (hs : bucket.Sublist (s.pins idx)) :
    PinsOk { s with pins := s.pins.set_bucket idx bucket } :=
  h.set_bucket ((h.buckets idx).sublist hs) fun e he => ⟨e, hs.subset he, rfl, rfl⟩

theorem PinsOk.remove {s : PinState} (h : PinsOk s) (f : FlowKey) : PinsOk (remove_pin s f) := by
  unfold remove_pin tcp_policy_pin_remove
  split
  · exact h
  · exact h.drop_from_bucket List.eraseP_sublist

theorem PinsOk.lookup {s : PinState} (h : PinsOk s) (now : Nat) (f : FlowKey) :
    PinsOk (lookup_pin s now f).2 := by
  unfold lookup_pin tcp_policy_pin_lookup
  split
  · exact h
  dsimp only
  split
  · exact h
  split
  · refine h.set_bucket ((h.buckets _).touch_first _ fun _ => rfl) fun e he => ?_
    rcases touch_first_mem (h.buckets _).nodup he with ⟨-, hmem⟩ | ⟨e0, hmem, -, rfl⟩
    · exact ⟨e, hmem, rfl, rfl⟩
    · exact ⟨e0, hmem, rfl, rfl⟩
  · exact h.drop_from_bucket List.eraseP_sublist

/-- After a set the entry of the flow names the policy of its new index. -/
theorem PinsOk.set {s : PinState} (h : PinsOk s) (now : Nat) (f : FlowKey) {pi : Nat}
    (hpi : pi < s.rt.fwd_cfg.policies.length) : PinsOk (set_pin s now f pi) := by
  have hmax := s.rt.fwd_cfg.policies_le
  unfold set_pin tcp_policy_pin_set
  split
  · rename_i hoff
    have hoff' : s.rt.crypto_enabled = false := by
      rcases hoff with hoff | hoff
      · simpa using hoff
      · omega
    refine ⟨h.flag, h.buckets, fun hen => ?_⟩
    rw [hoff'] at hen
    exact absurd hen Bool.false_ne_true
  have hbucket := (h.buckets (tcp_policy_pin_hash (pin_key f))).pin_bucket pi now
  refine ⟨h.flag, BucketOk.set_bucket h.buckets hbucket, fun hen i e he => ?_⟩
  -- the entry of another flow names what it named before
  have hother : e.key ≠ pin_key f → ∀ j, e ∈ s.pins j → ∃ cp,
      s.rt.fwd_cfg.policies[e.policy_pi]? = some cp ∧
        (if s.rt.crypto_enabled ∧ e.key = pin_key f then s.rt.fwd_cfg.policies[pi]?
          else s.set_policy e.key) = some cp := by
    intro hkey j hmem
    rw [if_neg fun hc => hkey hc.2]
    exact h.meaning hen j e hmem
  rcases PinTable.mem_set_bucket he with ⟨-, hmem⟩ | ⟨hi, hmem⟩
  · rcases pin_bucket_mem (h.buckets _).nodup hmem with ⟨hkey, hidx⟩ | ⟨hkey, hmem'⟩
    · refine ⟨s.rt.fwd_cfg.policies[pi], ?_, ?_⟩
      · rw [hidx]
        exact List.getElem?_eq_getElem hpi
      · dsimp only
        rw [if_pos ⟨hen, hkey⟩]
        exact List.getElem?_eq_getElem hpi
    · exact hother hkey _ hmem'
  · -- an entry of the same flow would be in the bucket of its hash
    refine hother (fun hkey => hi ?_) i hmem
    rw [← hkey]
    exact ((h.buckets i).hash e hmem).symm

theorem PinsOk.worker {s : PinState} (h : PinsOk s) (now local_idx : Nat) (f : FlowKey)
    (reaches_remove : Bool) : PinsOk (worker_pins s now local_idx f reaches_remove) := by
  unfold worker_pins
  split
  · exact h
  have hlook := h.lookup now f
  dsimp only
  split
  · exact hlook
  rename_i pi _
  have hset : PinsOk (if pin_usable s.rt pi then set_pin (lookup_pin s now f).2 now f pi
      else (lookup_pin s now f).2) := by
    split
    · rename_i husable
      refine hlook.set now f ?_
      unfold pin_usable at husable
      split at husable
      · simp at husable
      · exact (List.getElem?_eq_some_iff.mp ‹_›).1
    · exact hlook
  split
  · exact hset.remove f
  · exact hset

theorem PinsOk.wan {s : PinState} (h : PinsOk s) (now : Nat) (f : FlowKey) (action : PolicyAction)
    (policy_id : UInt8) : PinsOk (wan_pins s now f action policy_id) := by
  unfold wan_pins
  split
  · exact h
  rename_i pi hpi
  split
  · refine h.set now f ?_
    unfold policy_index_from_action_id_current at hpi
    split at hpi
    · simp at hpi
    split at hpi
    · rename_i hcond
      obtain rfl := Option.some.inj hpi
      exact hcond.1
    · simp at hpi
  · exact h

/-! ## Reloads -/

theorem same_enabled {a b : AppConfig} (h : crypto_runtime_changed a b = false) :
    a.crypto_enabled = b.crypto_enabled := by
  unfold crypto_runtime_changed at h
  simp only [Bool.or_eq_false_iff, bne_eq_false_iff_eq] at h
  exact h.1.1.1.1.1.1.1.1

/-- The flag of the runtime follows the configuration, or the configuration has the same one. -/
theorem reload_enabled {o : Openssl} {tls : Tls} {cfg : AppConfig} {rt rt' : Runtime}
    (h : forwarder_reload_config o tls cfg rt = some rt') :
    rt'.crypto_enabled = cfg.crypto_enabled ∨
      (rt'.crypto_enabled = rt.crypto_enabled ∧ crypto_runtime_changed rt.fwd_cfg cfg = false) := by
  unfold forwarder_reload_config at h
  split at h
  · simp at h
  dsimp only at h
  split at h
  · rename_i hsame
    simp only [Bool.and_eq_true, Bool.not_eq_true'] at hsame
    rw [← Option.some.inj h]
    exact Or.inr ⟨rfl, hsame.1⟩
  split at h
  · split at h
    · rw [← Option.some.inj h]
      exact Or.inl rfl
    · rw [← Option.some.inj h]
      exact Or.inl rfl
  · rw [← Option.some.inj h]
    exact Or.inl rfl

theorem PinsOk.reload {o : Openssl} {tls : Tls} {cfg : AppConfig} {s t : PinState} (h : PinsOk s)
    (hr : reload_pins o tls cfg s = some t) : PinsOk t := by
  obtain ⟨rt, hrt, rfl⟩ := Option.map_eq_some_iff.mp hr
  obtain ⟨-, hcfg, -⟩ := forwarder_reload_config_some hrt
  have hpol : rt.fwd_cfg.policies = cfg.policies ∧ rt.fwd_cfg.crypto_enabled = cfg.crypto_enabled := by
    rcases hcfg with hcfg | hcfg <;> rw [hcfg] <;> exact ⟨rfl, rfl⟩
  have hflag : rt.crypto_enabled = rt.fwd_cfg.crypto_enabled := by
    rw [hpol.2]
    rcases reload_enabled hrt with he | ⟨he, hsame⟩
    · exact he
    · rw [he, h.flag, same_enabled hsame]
  cases hreb : rebuilds s.rt cfg with
  | true =>
    refine ⟨hflag, fun i => ⟨List.nodup_nil, fun e he => ?_⟩, fun _ i e he => ?_⟩
    · simp [tcp_policy_pin_clear_all] at he
    · simp [tcp_policy_pin_clear_all] at he
  | false =>
    refine ⟨hflag, h.buckets, fun hen i e he => ?_⟩
    dsimp only at hen
    -- crypto is on after a reload that rebuilds nothing: nothing has changed
    have hsame : crypto_runtime_changed s.rt.fwd_cfg cfg = false := by
      unfold rebuilds at hreb
      rw [hflag, hpol.2] at hen
      rw [hen] at hreb
      simpa using hreb
    have hon : s.rt.crypto_enabled = true := by
      rw [h.flag, same_enabled hsame, ← hpol.2, ← hflag, hen]
    obtain ⟨cp, hcp, hset⟩ := h.meaning hon i e he
    rw [eq_of_not_crypto_runtime_changed hsame, ← hpol.1] at hcp
    exact ⟨cp, hcp, hset⟩

theorem PinsOk.step {o : Openssl} {s t : PinState} {e : PinEvent} (h : PinsOk s)
    (hs : pin_step o s e = some t) : PinsOk t := by
  cases e with
  | outbound now local_idx f reaches_remove =>
    obtain rfl := Option.some.inj hs
    exact h.worker now local_idx f reaches_remove
  | inbound now f action policy_id =>
    obtain rfl := Option.some.inj hs
    exact h.wan now f action policy_id
  | lookup now f =>
    obtain rfl := Option.some.inj hs
    exact h.lookup now f
  | set now f pi =>
    simp only [pin_step] at hs
    split at hs
    · obtain rfl := Option.some.inj hs
      exact h.set now f ‹_›
    · simp at hs
  | remove f =>
    obtain rfl := Option.some.inj hs
    exact h.remove f
  | gc now i =>
    obtain rfl := Option.some.inj hs
    exact h.drop_from_bucket List.filter_sublist
  | reload tls cfg => exact h.reload hs

theorem init_crypto_flag (o : Openssl) (tls : Tls) (now : Nat) (cfg : AppConfig) (rt : Runtime) :
    (init_crypto o tls now cfg rt).2.crypto_enabled =
      (init_crypto o tls now cfg rt).2.fwd_cfg.crypto_enabled := by
  unfold init_crypto
  dsimp only
  split
  · rfl
  split
  · unfold snapshot_prev
    split
    · rfl
    · rfl
  split
  · unfold snapshot_prev rebuild_crypto_runtime
    split
    · rfl
    · rfl
  · unfold snapshot_prev rebuild_crypto_runtime
    split
    · rfl
    · rfl

theorem PinsOk.start {o : Openssl} {tls : Tls} {now : Nat}
    {addr : Nat → Option (UInt32 × Option UInt32)} {cfg : AppConfig} {rt0 rt : Runtime}
    (h : forwarder_init o tls now addr cfg rt0 = (true, rt)) : PinsOk (PinState.start rt) := by
  refine ⟨?_, fun i => ⟨List.nodup_nil, fun e he => ?_⟩, fun _ i e he => ?_⟩
  · have hflag := init_crypto_flag o tls now cfg rt0
    unfold forwarder_init at h
    dsimp only at h
    split at h
    · rw [← (Prod.mk.inj h).2]
      exact hflag
    · rw [h] at hflag
      exact hflag
  · simp [PinState.start, tcp_policy_pin_clear_all] at he
  · simp [PinState.start, tcp_policy_pin_clear_all] at he

/-- In every run of packets, of operations on the pins, of the gc and of reloads: while crypto is
on, the index of each entry names the policy that was in force when the entry was last set. -/
theorem a_pin_names_the_policy_that_it_was_set_for {o : Openssl} {tls : Tls} {now : Nat}
    {addr : Nat → Option (UInt32 × Option UInt32)} {cfg : AppConfig} {rt0 rt : Runtime}
    (hinit : forwarder_init o tls now addr cfg rt0 = (true, rt)) {es : List PinEvent} {s : PinState}
    (hrun : Run (fun s e t => pin_step o s e = some t) (PinState.start rt) es s)
    (hon : s.rt.crypto_enabled = true) {i : Nat} {e : PinEntry} (he : e ∈ s.pins i) :
    NamesItsPolicy s e := by
  have hok : PinsOk s := hrun.invariant (P := PinsOk) (PinsOk.start hinit) fun _ _ _ h hs => h.step hs
  exact hok.meaning hon i e he

/-- The policies 7 and 8, the same the other way around, and the first ones without crypto. -/
def pinCfg : AppConfig :=
  sampleCfg [samplePolicy 7 .encrypt_l4, samplePolicy 8 .encrypt_l3] (by decide)
def swappedCfg : AppConfig :=
  sampleCfg [samplePolicy 8 .encrypt_l3, samplePolicy 7 .encrypt_l4] (by decide)
def offCfg : AppConfig := { pinCfg with crypto_enabled := false }

/-- 10.0.0.1 port 40000 to 10.0.1.2 port 80. -/
def webFlow : FlowKey := ⟨0x0100000a, 0x0201000a, 40000, 80, 6⟩

def pinRuntime : Runtime := (forwarder_init sampleOpenssl {} 1 (fun _ => none) pinCfg Runtime.boot).2

theorem pinRuntime_init :
    forwarder_init sampleOpenssl {} 1 (fun _ => none) pinCfg Runtime.boot = (true, pinRuntime) := rfl

/-- A pin from before two reloads is gone, and the one set after them names its policy. -/
theorem a_pin_set_after_crypto_was_off_names_its_policy :
    ∃ s e, Run (fun s e t => pin_step sampleOpenssl s e = some t) (PinState.start pinRuntime)
        [.set 5 webFlow 0, .reload {} offCfg, .lookup 6 webFlow, .reload {} swappedCfg,
          .set 7 webFlow 1, .gc 60 3, .reload {} swappedCfg] s ∧
      s.pins (tcp_policy_pin_hash (pin_key webFlow)) = [e] ∧ e.policy_pi = 1 ∧
      NamesItsPolicy s e := by
  have hrun : ([.set 5 webFlow 0, .reload {} offCfg, .lookup 6 webFlow, .reload {} swappedCfg,
      .set 7 webFlow 1, .gc 60 3, .reload {} swappedCfg].foldlM (pin_step sampleOpenssl)
      (PinState.start pinRuntime)).map (fun s =>
        (s.rt.crypto_enabled, s.pins (tcp_policy_pin_hash (pin_key webFlow)))) =
      some (true, [⟨pin_key webFlow, 1, 7⟩]) := by decide +kernel
  obtain ⟨s, hs, hout⟩ := Option.map_eq_some_iff.mp hrun
  obtain ⟨hon, hpins⟩ := Prod.mk.inj hout
  refine ⟨s, _, Run.of_foldlM hs, hpins, rfl, ?_⟩
  exact a_pin_names_the_policy_that_it_was_set_for pinRuntime_init (Run.of_foldlM hs) hon
    (by rw [hpins]; exact List.mem_singleton_self _)

end ne_ip.pin_reload
