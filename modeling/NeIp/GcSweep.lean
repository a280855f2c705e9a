-- The garbage collection of the three tables: flow_table_gc (flow_table.c),
-- tcp_policy_pin_gc (forwarder.c) and frag_table_gc (fragment.c).
import NeIp.PinReload
import NeIp.Reassembly
import NeIp.Sweep

open byte_buf ne_ip.packet_crypto ne_ip.config ne_ip.crypto_layer4 ne_ip.flow ne_ip.fragment
open ne_ip.reassembly ne_ip.flow_table ne_ip.forwarder ne_ip.tcp_policy_pin ne_ip.pin_reload
open ne_ip.sample sweep runs

namespace ne_ip.gc_sweep

/-! ## The flow table -/

/-- A call of `flow_table_get_wan`, with the `next_wan` that it finds. -/
structure GetWan where
  undef : Int
  next_wan : Int
  flow : FlowKey
  pkt_len : Nat

def flowSwept : Swept FlowTable FlowEntry GetWan where
  entries ft i := ft.buckets i
  stamp e := e.last_seen
  timeout := FLOW_TIMEOUT_SEC
  slots := FLOW_TABLE_SIZE
  act now op ft := (flow_table_get_wan op.undef now op.next_wan ft op.flow op.pkt_len).2.2
  starts _ _ := true
  visit := flow_table_gc_bucket
  entries_visit _ _ _ := FlowTable.set_bucket_self _ _ _

/-! ## The pins -/

/-- What the threads do to the pins, each at its own reading of the clock. -/
inductive PinOp where
  | outbound (local_idx : Nat) (f : FlowKey) (reaches_remove : Bool)
  | inbound (f : FlowKey) (action : PolicyAction) (policy_id : UInt8)
  | lookup (f : FlowKey)
  | set (f : FlowKey) (pi : Nat)
  | remove (f : FlowKey)
  | reload (tls : Tls) (cfg : AppConfig)

def PinOp.at (now : Nat) : PinOp → PinEvent
  | .outbound local_idx f reaches_remove => .outbound now local_idx f reaches_remove
  | .inbound f action policy_id => .inbound now f action policy_id
  | .lookup f => .lookup now f
  | .set f pi => .set now f pi
  | .remove f => .remove f
  | .reload tls cfg => .reload tls cfg

def pinSwept (o : Openssl) : Swept PinState PinEntry PinOp where
  entries s i := s.pins i
  stamp e := e.last_seen_sec
  timeout := TCP_POLICY_PIN_TIMEOUT_SEC
  slots := FLOW_TABLE_SIZE
  act now op s := (pin_step o s (op.at now)).getD s
  starts now s := s.rt.crypto_enabled && now != 0
  visit now i s := { s with pins := tcp_policy_pin_gc_bucket now i s.pins }
  entries_visit _ _ _ := if_pos rfl

/-! ## The fragment tables -/

/-- A decrypted fragment that comes to one of the tables. -/
structure GetFragment where
  layer : Layer
  pkt : Buf
  pkt_len : Nat
  pkt_id : Nat
  frag_index : UInt8
  out_buf : Buf

/-- What `frag_table_gc` does to one slot, at the time it has read. -/
def frag_table_gc_slot (now i : Nat) (ft : FragTable) : FragTable :=
  set_entry ft i (frag_table_gc now ft i)

/-- What is in a slot. -/
def slot_entries (ft : FragTable) (i : Nat) : List FragEntry := if (ft i).valid then [ft i] else []

theorem slot_entries_gc (now i : Nat) (ft : FragTable) :
    slot_entries (frag_table_gc_slot now i ft) i = (slot_entries ft i).filter fun e =>
      !decide (FRAG_TIMEOUT_NS < age64 now e.timestamp_ns) := by
  have hage : age64 now (ft i).timestamp_ns = size_sub now (ft i).timestamp_ns := rfl
  unfold slot_entries frag_table_gc_slot
  rw [set_entry_self]
  unfold frag_table_gc
  cases hv : (ft i).valid with
  | false => simp [hv]
  | true =>
    by_cases hold : FRAG_TIMEOUT_NS < size_sub now (ft i).timestamp_ns
    · simp [hold, hage]
    · simp [hold, hage, hv]

def fragSwept : Swept FragTable FragEntry GetFragment where
  entries := slot_entries
  stamp e := e.timestamp_ns
  timeout := FRAG_TIMEOUT_NS
  slots := FRAG_TABLE_SIZE
  act now op ft :=
    (op.layer.try_reassemble now ft op.pkt op.pkt_len op.pkt_id op.frag_index op.out_buf).2
  starts _ _ := true
  visit := frag_table_gc_slot
  entries_visit := slot_entries_gc

/-! ## What is removed -/

/-- A run of sweeps and operations whose visits find no live entry that was touched after the
sweep had read the clock. -/
def UntouchedRun {τ α ω : Type*} (S : Swept τ α ω) (c0 : Nat) (t0 : τ) (es : List (SweepEvent ω))
    (s : Sweeping τ α) : Prop :=
  Run (Guarded S.NotTouchedSince fun s e t => S.step s e = some t) { clock := c0, table := t0 } es s

/-- In such runs every entry that a gc removed was older than its timeout. -/
theorem no_gc_removes_a_live_entry_that_was_not_touched_since_it_read_the_clock (o : Openssl) :
    (∀ c0 t0 es s, UntouchedRun flowSwept c0 t0 es s →
      ∀ r ∈ s.removed, FLOW_TIMEOUT_SEC < r.1 - r.2.last_seen) ∧
    (∀ c0 t0 es s, UntouchedRun (pinSwept o) c0 t0 es s →
      ∀ r ∈ s.removed, TCP_POLICY_PIN_TIMEOUT_SEC < r.1 - r.2.last_seen_sec) ∧
    (∀ c0 t0 es s, UntouchedRun fragSwept c0 t0 es s →
      ∀ r ∈ s.removed, FRAG_TIMEOUT_NS < r.1 - r.2.timestamp_ns) :=
  ⟨fun _ _ _ _ hrun => (Swept.honest_of_run hrun).removed,
    fun _ _ _ _ hrun => (Swept.honest_of_run hrun).removed,
    fun _ _ _ _ hrun => (Swept.honest_of_run hrun).removed⟩

/-- 10.0.0.1 and 10.1.21.170, whose bucket is the first one. -/
def firstFlow : FlowKey := ⟨0x0100000a, 0xaa15010a, 40000, 443, 6⟩

def emptyFlows : FlowTable where
  buckets := fun _ => []
  wan_count := 2
  wan_window_sizes := [0, 0]

/-- 10.0.0.1 port 5916 to 10.0.1.2 port 80, whose bucket of the pins is the first one. -/
def firstPinned : FlowKey := ⟨0x0100000a, 0x0201000a, 5916, 80, 6⟩

/-- A run whose visits are tested on the way has what every such run has. -/
theorem exists_untouchedRun {τ α ω : Type*} {S : Swept τ α ω} {c0 : Nat} {t0 : τ}
    {es : List (SweepEvent ω)} {out : List (Nat × Nat)} {P : Sweeping τ α → Prop}
    (h : (es.foldlM (fun s e => if S.NotTouchedSince s e then S.step s e else none)
      { clock := c0, table := t0 }).map (fun s => s.removed.map fun r => (r.1, S.stamp r.2)) =
        some out)
    (hall : ∀ s, UntouchedRun S c0 t0 es s → P s) :
    ∃ s, UntouchedRun S c0 t0 es s ∧ s.removed.map (fun r => (r.1, S.stamp r.2)) = out ∧ P s := by
  obtain ⟨s, hs, hout⟩ := Option.map_eq_some_iff.mp h
  have hrun : UntouchedRun S c0 t0 es s := Run.guarded_of_foldlM hs
  exact ⟨s, hrun, hout, hall s hrun⟩

/-- So is a pin after 200 seconds, and the first half of a packet after 300 milliseconds. -/
theorem a_flow_of_100_seconds_is_removed :
    (∃ s, UntouchedRun flowSwept 100 emptyFlows
        [.act ⟨0, 0, firstFlow, 60⟩, .tick 200, .begin 0, .tick 201, .visit 0] s ∧
      s.removed.map (fun r => (r.1, r.2.last_seen)) = [(201, 100)] ∧
      ∀ r ∈ s.removed, FLOW_TIMEOUT_SEC < r.1 - r.2.last_seen) ∧
    (∃ s, UntouchedRun (pinSwept sampleOpenssl) 100 (PinState.start pinRuntime)
        [.act (.set firstPinned 0), .tick 300, .begin 0, .tick 301, .visit 0] s ∧
      s.removed.map (fun r => (r.1, r.2.last_seen_sec)) = [(301, 100)] ∧
      ∀ r ∈ s.removed, TCP_POLICY_PIN_TIMEOUT_SEC < r.1 - r.2.last_seen_sec) ∧
    (∃ s, UntouchedRun fragSwept 100 frag_table_init
        [.act ⟨.l3, ofBytes tcpPing, 58, 0, 0, ofBytes []⟩, .tick 300000100, .begin 0,
          .tick 300000101, .visit 0] s ∧
      s.removed.map (fun r => (r.1, r.2.timestamp_ns)) = [(300000101, 100)] ∧
      ∀ r ∈ s.removed, FRAG_TIMEOUT_NS < r.1 - r.2.timestamp_ns) := by
  obtain ⟨hflows, hpins, hfrags⟩ :=
    no_gc_removes_a_live_entry_that_was_not_touched_since_it_read_the_clock sampleOpenssl
  exact ⟨exists_untouchedRun (by decide +kernel) (hflows _ _ _),
    exists_untouchedRun (by decide +kernel) (hpins _ _ _),
    exists_untouchedRun (by decide +kernel) (hfrags _ _ _)⟩

/-- A gc reads the clock at 100 s, a packet comes at 101 s, and the gc then visits the bucket: the
entry that is not a second old is gone. -/
theorem a_gc_removes_a_flow_that_was_stored_after_it_read_the_clock :
    ∃ s, Run (fun s e t => flowSwept.step s e = some t) { clock := 100, table := emptyFlows }
        [.begin 0, .tick 101, .act ⟨0, 0, firstFlow, 60⟩, .visit 0] s ∧
      s.removed.map (fun r => (r.1, r.2.last_seen)) = [(101, 101)] ∧
      s.table.buckets (flow_hash_ips firstFlow.src_ip firstFlow.dst_ip) = [] := by
  have hrun : ([.begin 0, .tick 101, .act ⟨0, 0, firstFlow, 60⟩, .visit 0].foldlM flowSwept.step
      { clock := 100, table := emptyFlows }).map (fun s =>
        (s.removed.map (fun r => (r.1, r.2.last_seen)),
          s.table.buckets (flow_hash_ips firstFlow.src_ip firstFlow.dst_ip))) =
      some ([(101, 101)], []) := by decide +kernel
  obtain ⟨s, hs, hout⟩ := Option.map_eq_some_iff.mp hrun
  obtain ⟨hremoved, hbucket⟩ := Prod.mk.inj hout
  exact ⟨s, Run.of_foldlM hs, hremoved, hbucket⟩

end ne_ip.gc_sweep
