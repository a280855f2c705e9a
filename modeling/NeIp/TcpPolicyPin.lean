-- The table that pins a TCP flow to its policy (forwarder.c): an entry holds the index
-- of a policy, by the ends of the flow in either direction.
import NeIp.FlowTable
import NeIp.Forwarder

open ne_ip.config ne_ip.crypto_layer4 ne_ip.flow ne_ip.forwarder ne_ip.flow_table

namespace ne_ip.tcp_policy_pin

def TCP_POLICY_PIN_TIMEOUT_SEC : Nat := 120

/-- The ends of a flow as an entry keeps them, the lower one first. -/
structure PinKey where
  src_ip : UInt32
  dst_ip : UInt32
  src_port : Nat
  dst_port : Nat
  deriving DecidableEq, Repr

/-- `tcp_policy_pin_normalize_tuple`. -/
def pin_key (f : FlowKey) : PinKey :=
  let n := normalize_flow_5tuple f.src_ip f.dst_ip f.src_port f.dst_port
  { src_ip := n.1.1, dst_ip := n.1.2, src_port := n.2.1, dst_port := n.2.2 }

def tcp_policy_pin_hash (key : PinKey) : Nat :=
  flow_hash key.src_ip key.dst_ip key.src_port key.dst_port IPPROTO_TCP

/-- `struct tcp_policy_pin_entry`. -/
structure PinEntry where
  key : PinKey
  policy_pi : Nat
  last_seen_sec : Nat
  deriving DecidableEq, Repr

/-- `g_tcp_policy_pins` after `tcp_policy_pin_init`, by the index of the bucket. -/
abbrev PinTable := Nat → List PinEntry

def PinTable.set_bucket (pins : PinTable) (idx : Nat) (bucket : List PinEntry) : PinTable :=
  fun i => if i = idx then bucket else pins i

/-! ## The operations -/

def tcp_policy_pin_clear_all : PinTable := fun _ => []

/-- An entry that the flow has is changed, a new one comes first. -/
def pin_bucket (key : PinKey) (policy_pi now : Nat) (bucket : List PinEntry) : List PinEntry :=
  if bucket.any (·.key == key) then
    touch_first (·.key == key) (fun e => { e with policy_pi, last_seen_sec := now }) bucket
  else { key, policy_pi, last_seen_sec := now } :: bucket

def tcp_policy_pin_set (crypto_enabled : Bool) (now : Nat) (f : FlowKey) (policy_pi : Nat)
    (pins : PinTable) : PinTable :=
  if !crypto_enabled ∨ MAX_CRYPTO_POLICIES ≤ policy_pi then pins
  else
    let idx := tcp_policy_pin_hash (pin_key f)
    pins.set_bucket idx (pin_bucket (pin_key f) policy_pi now (pins idx))

def tcp_policy_pin_remove (crypto_enabled : Bool) (f : FlowKey) (pins : PinTable) : PinTable :=
  if !crypto_enabled then pins
  else
    let idx := tcp_policy_pin_hash (pin_key f)
    pins.set_bucket idx ((pins idx).eraseP (·.key == pin_key f))

/-- `ok` of a lookup: the index names a policy, which bypasses or has its context. -/
def pin_usable (rt : Runtime) (pi : Nat) : Bool :=
  match rt.fwd_cfg.policies[pi]? with
  | none => false
  | some pol =>
    decide (pi < MAX_CRYPTO_POLICIES) && (pol.action == .bypass || rt.active.ready pi)

/-- `tcp_policy_pin_lookup`: the index of the policy, and the table. An entry that cannot be
used is removed. -/
def tcp_policy_pin_lookup (rt : Runtime) (now : Nat) (f : FlowKey) (pins : PinTable) :
    Option Nat × PinTable :=
  if !rt.crypto_enabled then (none, pins)
  else
    let idx := tcp_policy_pin_hash (pin_key f)
    match (pins idx).find? (·.key == pin_key f) with
    | none => (none, pins)
    | some e =>
      if pin_usable rt e.policy_pi then
        (some e.policy_pi, pins.set_bucket idx
          (touch_first (·.key == pin_key f) (fun e => { e with last_seen_sec := now }) (pins idx)))
      else (none, pins.set_bucket idx ((pins idx).eraseP (·.key == pin_key f)))

/-- `now - e->last_seen_sec > TCP_POLICY_PIN_TIMEOUT_SEC`. -/
def pin_expired (now : Nat) (e : PinEntry) : Bool :=
  decide (TCP_POLICY_PIN_TIMEOUT_SEC < size_sub now e.last_seen_sec)

/-- What `tcp_policy_pin_gc` does to one bucket, at the time it has read. -/
def tcp_policy_pin_gc_bucket (now i : Nat) (pins : PinTable) : PinTable :=
  pins.set_bucket i ((pins i).filter fun e => !pin_expired now e)

/-! ## The buckets -/

theorem PinTable.mem_set_bucket {pins : PinTable} {idx i : Nat} {bucket : List PinEntry}
    {e : PinEntry} (h : e ∈ pins.set_bucket idx bucket i) :
    (i = idx ∧ e ∈ bucket) ∨ (i ≠ idx ∧ e ∈ pins i) := by
  unfold set_bucket at h
  by_cases hi : i = idx
  · rw [if_pos hi] at h
    exact Or.inl ⟨hi, h⟩
  · rw [if_neg hi] at h
    exact Or.inr ⟨hi, h⟩

/-- A bucket has one entry of a flow at most, and only entries that belong to it. -/
structure BucketOk (i : Nat) (bucket : List PinEntry) : Prop where
  nodup : (bucket.map (·.key)).Nodup
  hash : ∀ e ∈ bucket, tcp_policy_pin_hash e.key = i

theorem BucketOk.sublist {i : Nat} {b c : List PinEntry} (h : BucketOk i b) (hs : c.Sublist b) :
    BucketOk i c :=
  ⟨h.nodup.sublist (hs.map _), fun e he => h.hash e (hs.subset he)⟩

theorem BucketOk.set_bucket {pins : PinTable} (h : ∀ i, BucketOk i (pins i)) {idx : Nat}
    {bucket : List PinEntry} (hb : BucketOk idx bucket) (i : Nat) :
    BucketOk i (pins.set_bucket idx bucket i) := by
  unfold PinTable.set_bucket
  by_cases hi : i = idx
  · subst hi
    rw [if_pos rfl]
    exact hb
  · rw [if_neg hi]
    exact h i

theorem BucketOk.touch_first {i : Nat} {b : List PinEntry} (h : BucketOk i b) (key : PinKey)
    {touch : PinEntry → PinEntry} (htouch : ∀ e, (touch e).key = e.key) :
    BucketOk i (touch_first (·.key == key) touch b) := by
  have hkeys := touch_first_keys (·.key == key) htouch b
  refine ⟨by rw [hkeys]; exact h.nodup, fun e he => ?_⟩
  have hmem : e.key ∈ b.map (·.key) := by
    rw [← hkeys]
    exact List.mem_map_of_mem he
  obtain ⟨e0, he0, hk⟩ := List.mem_map.mp hmem
  rw [← hk]
  exact h.hash e0 he0

theorem BucketOk.pin_bucket {key : PinKey} (policy_pi now : Nat) {b : List PinEntry}
    (h : BucketOk (tcp_policy_pin_hash key) b) :
    BucketOk (tcp_policy_pin_hash key) (pin_bucket key policy_pi now b) := by
  unfold tcp_policy_pin.pin_bucket
  split
  · exact h.touch_first key fun _ => rfl
  · rename_i hnew
    rw [Bool.not_eq_true, List.any_eq_false] at hnew
    refine ⟨?_, ?_⟩
    · rw [List.map_cons, List.nodup_cons]
      refine ⟨fun hmem => ?_, h.nodup⟩
      obtain ⟨e, he, hk⟩ := List.mem_map.mp hmem
      exact hnew e he (by simpa using hk)
    · intro e he
      rcases List.mem_cons.mp he with rfl | hmem
      · rfl
      · exact h.hash e hmem

/-- A set leaves the entry of its flow with the new index, and the entries of other flows. -/
theorem pin_bucket_mem {key : PinKey} {policy_pi now : Nat} {b : List PinEntry}
    (hnodup : (b.map (·.key)).Nodup) {e : PinEntry} (he : e ∈ pin_bucket key policy_pi now b) :
    (e.key = key ∧ e.policy_pi = policy_pi) ∨ (e.key ≠ key ∧ e ∈ b) := by
  unfold pin_bucket at he
  split at he
  · rcases touch_first_mem hnodup he with h | ⟨e0, -, hk, rfl⟩
    · exact Or.inr h
    · exact Or.inl ⟨hk, rfl⟩
  · rename_i hnew
    rw [Bool.not_eq_true, List.any_eq_false] at hnew
    rcases List.mem_cons.mp he with rfl | hmem
    · exact Or.inl ⟨rfl, rfl⟩
    · exact Or.inr ⟨fun hk => hnew e hmem (by simpa using hk), hmem⟩

end ne_ip.tcp_policy_pin
