-- The flow table and the weighted round-robin (flow_table.c): which WAN interface
-- an address pair or a flow sticks to, and which one a packet gets in its turn.
import Mathlib.Data.List.Basic
import Mathlib.Data.Sym.Sym2
import Mathlib.Tactic.IntervalCases
import NeIp.Config
import NeIp.Flow

open ne_ip.config ne_ip.crypto_layer4 ne_ip.flow

namespace ne_ip.flow_table

def FLOW_TABLE_SIZE : Nat := 16384
def FLOW_TIMEOUT_SEC : Nat := 60

/-- `int` arithmetic, which wraps when it leaves its 32 bits. -/
def int32 (x : Int) : Int := Int.bmod x (2 ^ 32)

theorem int32_of_lt {x : Int} (h0 : 0 ≤ x) (h : x < 2 ^ 31) : int32 x = x := by
  unfold int32
  rw [Int.bmod_eq_of_le_mul_two] <;> omega

theorem int32_range (x : Int) : -2 ^ 31 ≤ int32 x ∧ int32 x < 2 ^ 31 := by
  have hge := Int.le_bmod (x := x) (show 0 < 2 ^ 32 by decide)
  have hlt := Int.bmod_lt (x := x) (show 0 < 2 ^ 32 by decide)
  unfold int32
  omega

/-- `ntohl` of a word as the CPU loads it from the packet, on a little-endian machine. -/
def ntohl (x : UInt32) : UInt32 :=
  (x <<< 24) ||| ((x <<< 8) &&& (0xff0000 : UInt32)) ||| ((x >>> 8) &&& (0xff00 : UInt32)) |||
    (x >>> 24)

/-! ## Keys and buckets -/

/-- `normalize_flow_ips`: the lower address first. -/
def normalize_flow_ips (src_ip dst_ip : UInt32) : UInt32 × UInt32 :=
  if ntohl src_ip > ntohl dst_ip then (dst_ip, src_ip) else (src_ip, dst_ip)

/-- `normalize_flow_5tuple`, and `tcp_policy_pin_normalize_tuple`, which is the same. -/
def normalize_flow_5tuple (src_ip dst_ip : UInt32) (src_port dst_port : Nat) :
    (UInt32 × UInt32) × (Nat × Nat) :=
  if ntohl src_ip > ntohl dst_ip ∨ (ntohl src_ip = ntohl dst_ip ∧ src_port > dst_port) then
    ((dst_ip, src_ip), (dst_port, src_port))
  else ((src_ip, dst_ip), (src_port, dst_port))

theorem getLsbD_ntohl (x : UInt32) {i : Nat} (hi : i < 32) :
    (ntohl x).toBitVec.getLsbD i = x.toBitVec.getLsbD (8 * (3 - i / 8) + i % 8) := by
  unfold ntohl
  simp only [UInt32.toBitVec_or, UInt32.toBitVec_and, UInt32.toBitVec_shiftLeft,
    UInt32.toBitVec_shiftRight, BitVec.shiftLeft_eq', BitVec.ushiftRight_eq', BitVec.getLsbD_or,
    BitVec.getLsbD_and]
  interval_cases i <;> simp

/-- Swapping the bytes twice gives the word back, so that `htonl` undoes `ntohl`. -/
theorem ntohl_ntohl (x : UInt32) : ntohl (ntohl x) = x := by
  apply UInt32.toBitVec_inj.mp
  refine BitVec.eq_of_getLsbD_eq fun i hi => ?_
  have hlt : 8 * (3 - i / 8) + i % 8 < 32 := by omega
  have hback : 8 * (3 - (8 * (3 - i / 8) + i % 8) / 8) + (8 * (3 - i / 8) + i % 8) % 8 = i := by
    omega
  rw [getLsbD_ntohl _ hi, getLsbD_ntohl _ hlt, hback]

theorem ntohl_injective {x y : UInt32} (h : ntohl x = ntohl y) : x = y := by
  rw [← ntohl_ntohl x, h, ntohl_ntohl]

theorem ntohl_trichotomy (a b : UInt32) : ntohl a < ntohl b ∨ a = b ∨ ntohl b < ntohl a := by
  by_cases h : ntohl a = ntohl b
  · exact Or.inr (Or.inl (ntohl_injective h))
  · exact (UInt32.lt_or_lt_of_ne h).imp_right Or.inr

/-- Both directions have one key. -/
theorem normalize_flow_ips_swap (a b : UInt32) :
    normalize_flow_ips a b = normalize_flow_ips b a := by
  unfold normalize_flow_ips
  rcases ntohl_trichotomy a b with h | rfl | h
  · rw [if_neg (UInt32.lt_asymm h), if_pos h]
  · rfl
  · rw [if_pos h, if_neg (UInt32.lt_asymm h)]

/-- A key holds the addresses that it was made from. -/
theorem normalize_flow_ips_mk (a b : UInt32) :
    s((normalize_flow_ips a b).1, (normalize_flow_ips a b).2) = s(a, b) := by
  unfold normalize_flow_ips
  split
  · exact Sym2.eq_swap
  · rfl

theorem normalize_flow_5tuple_swap (a b : UInt32) (p q : Nat) :
    normalize_flow_5tuple a b p q = normalize_flow_5tuple b a q p := by
  unfold normalize_flow_5tuple
  rcases ntohl_trichotomy a b with h | rfl | h
  · rw [if_neg, if_pos (Or.inl h)]
    rintro (hgt | ⟨heq, -⟩)
    · exact UInt32.lt_asymm h hgt
    · exact UInt32.ne_of_lt h heq
  · rcases Nat.lt_trichotomy p q with hp | rfl | hp
    · rw [if_neg (by simp; omega), if_pos (Or.inr ⟨rfl, hp⟩)]
    · rfl
    · rw [if_pos (Or.inr ⟨rfl, hp⟩), if_neg (by simp; omega)]
  · rw [if_pos (Or.inl h), if_neg]
    rintro (hgt | ⟨heq, -⟩)
    · exact UInt32.lt_asymm h hgt
    · exact UInt32.ne_of_lt h heq

theorem normalize_flow_5tuple_mk (a b : UInt32) (p q : Nat) :
    let n := normalize_flow_5tuple a b p q
    s((n.1.1, n.2.1), (n.1.2, n.2.2)) = s((a, p), (b, q)) := by
  unfold normalize_flow_5tuple
  dsimp only
  split
  · exact Sym2.eq_swap
  · rfl

/-- The last steps of the three hash functions. -/
def mix (hash : UInt32) : Nat :=
  let hash := hash ^^^ (hash >>> 16)
  let hash := hash * 0x85ebca6b
  let hash := hash ^^^ (hash >>> 13)
  let hash := hash * 0xc2b2ae35
  let hash := hash ^^^ (hash >>> 16)
  hash.toNat % FLOW_TABLE_SIZE

def flow_hash (src_ip dst_ip : UInt32) (src_port dst_port : Nat) (protocol : UInt8) : Nat :=
  mix (src_ip ^^^ dst_ip ^^^ UInt32.ofNat (src_port * 65536 + dst_port) ^^^ protocol.toUInt32)

def flow_hash_ips (src_ip dst_ip : UInt32) : Nat := mix (src_ip ^^^ dst_ip)

/-- `struct flow_entry`; `ip_only_key` says that only the addresses count, `profile_wan_pool` that
the interface comes from the list of a profile. -/
structure FlowEntry where
  key : FlowKey
  byte_count : UInt32
  current_wan : Int
  last_seen : Nat
  ip_only_key : Bool
  wrr_slot : Int := 0
  profile_wan_pool : Bool := false
  deriving DecidableEq, Repr

/-- `struct flow_table`, by the index of the bucket. A new entry comes first in its bucket. -/
structure FlowTable where
  buckets : Nat → List FlowEntry
  wan_count : Nat
  wan_window_sizes : List UInt32

def FlowTable.set_bucket (ft : FlowTable) (idx : Nat) (bucket : List FlowEntry) : FlowTable :=
  { ft with buckets := fun i => if i = idx then bucket else ft.buckets i }

@[simp] theorem FlowTable.set_bucket_self (ft : FlowTable) (idx : Nat) (bucket : List FlowEntry) :
    (ft.set_bucket idx bucket).buckets idx = bucket := if_pos rfl

/-! ## The pickers -/

/-- `get_next_wan`: the interface, and `next_wan` after it. The least `int` has no negation: there
`-wan` is undefined, and so is the interface. The atomic addition wraps. -/
def get_next_wan (next_wan : Int) (wan_count : Nat) : Option Int × Int :=
  if wan_count = 0 then (some 0, next_wan)
  else
    (if next_wan = -2 ^ 31 then none
      else some ((if next_wan < 0 then -next_wan else next_wan).tmod wan_count),
      int32 (next_wan + 1))

/-- `weights_sum_positive`. The parallel arrays `allowed_wans` and `allowed_weights` are one list;
`weighted` is false where the weights are a null pointer. -/
def weights_sum_positive (weighted : Bool) (allowed : List (Nat × Int)) : Int :=
  if weighted then allowed.foldl (fun s a => if 0 < a.2 then int32 (s + a.2) else s) 0 else 0

/-- The loop of `wrr_slot_to_wan`. -/
def wrr_loop (s : Int) : (acc : Int) → List (Nat × Int) → Option Nat
  | _, [] => none
  | acc, (wan, w) :: rest =>
    if w ≤ 0 then wrr_loop s acc rest
    else
      let acc := int32 (acc + w)
      if s < acc then some wan else wrr_loop s acc rest

/-- `wrr_slot_to_wan` for a positive sum. Past the last weight it is the last interface. -/
def wrr_slot_to_wan (slot : Int) (allowed : List (Nat × Int)) (sumw : Int) : Nat :=
  let s := (int32 (slot.tmod sumw + sumw)).tmod sumw
  (wrr_loop s 0 allowed).getD ((allowed.map (·.1)).getLastD 0)

/-- The interface and `g_pkt_wrr_seq` after it. -/
def flow_table_pick_wan_per_packet (g_pkt_wrr_seq : Nat) (weighted : Bool)
    (allowed : List (Nat × Int)) : Nat × Nat :=
  match allowed with
  | [] => (0, g_pkt_wrr_seq)
  | [a] => (a.1, g_pkt_wrr_seq)
  | _ =>
    let sumw := weights_sum_positive weighted allowed
    let n := g_pkt_wrr_seq
    (if 0 < sumw then wrr_slot_to_wan (int32 (n % sumw.toNat)) allowed sumw
      else (allowed.map (·.1)).getD (n % allowed.length) 0,
      (n + 1) % 2 ^ 64)

/-! ## Lookups -/

/-- `cur_limit`: the window of an interface, 0 when there is no such interface. -/
def cur_limit (ft : FlowTable) (wan : Int) : UInt32 :=
  if 0 ≤ wan ∧ wan < ft.wan_count then ft.wan_window_sizes.getD wan.toNat 0 else 0

/-- The entry that an address pair has already, touched at `now`: past its window it goes on
to the next interface. -/
def touch_ips (ft : FlowTable) (now pkt_len : Nat) (e : FlowEntry) : FlowEntry :=
  let e := { e with last_seen := now, byte_count := e.byte_count + UInt32.ofNat pkt_len }
  if 0 < cur_limit ft e.current_wan ∧ cur_limit ft e.current_wan ≤ e.byte_count then
    { e with byte_count := 0, current_wan := (e.current_wan + 1).tmod ft.wan_count }
  else e

/-- The first entry of a bucket that `found` accepts is touched. -/
def touch_first {α : Type*} (found : α → Bool) (touch : α → α) : List α → List α
  | [] => []
  | e :: rest => if found e then touch e :: rest else e :: touch_first found touch rest

/-- `flow_table_get_wan` at the time `now`: the interface, `next_wan` and the table. `undef` is what
the program goes on with where `get_next_wan` is undefined. The `malloc` of an entry does not fail
here; when it does, the code returns 0 and stores nothing. -/
def flow_table_get_wan (undef : Int) (now : Nat) (next_wan : Int) (ft : FlowTable) (f : FlowKey)
    (pkt_len : Nat) : Int × Int × FlowTable :=
  let ips := normalize_flow_ips f.src_ip f.dst_ip
  let idx := flow_hash_ips ips.1 ips.2
  let found := fun e : FlowEntry =>
    e.ip_only_key && e.key.src_ip == ips.1 && e.key.dst_ip == ips.2
  match (ft.buckets idx).find? found with
  | some e =>
    ((touch_ips ft now pkt_len e).current_wan, next_wan,
      ft.set_bucket idx (touch_first found (touch_ips ft now pkt_len) (ft.buckets idx)))
  | none =>
    let pick := get_next_wan next_wan ft.wan_count
    let wan := pick.1.getD undef
    let entry : FlowEntry :=
      { key := { f with src_ip := ips.1, dst_ip := ips.2 }
        byte_count := UInt32.ofNat pkt_len
        current_wan := wan
        last_seen := now
        ip_only_key := true }
    (wan, pick.2, ft.set_bucket idx (entry :: ft.buckets idx))

/-- `wan_allowed_pos`; -1 is `none`. -/
def wan_allowed_pos (wan_idx : Int) (allowed : List (Nat × Int)) : Option Nat :=
  allowed.findIdx? fun a => (a.1 : Int) == wan_idx

/-- The interface at a position of the list. -/
def allowed_wan (allowed : List (Nat × Int)) (pos : Nat) : Int := (allowed.map (·.1)).getD pos 0

/-- The key of a flow in both directions. -/
def exact_key (f : FlowKey) : FlowKey :=
  let n := normalize_flow_5tuple f.src_ip f.dst_ip f.src_port f.dst_port
  { f with src_ip := n.1.1, dst_ip := n.1.2, src_port := n.2.1, dst_port := n.2.2 }

def flow_key_hash (key : FlowKey) : Nat :=
  flow_hash key.src_ip key.dst_ip key.src_port key.dst_port key.protocol

/-- An entry whose interface has left the list starts over with the first one of it. -/
def back_to_list (allowed : List (Nat × Int)) (e : FlowEntry) : FlowEntry :=
  match wan_allowed_pos e.current_wan allowed with
  | some _ => e
  | none => { e with current_wan := allowed_wan allowed 0, byte_count := 0, wrr_slot := 0 }

/-- The entry that a flow has already under a profile: past its window it goes on in the list, by
the weights or in order. -/
def touch_profile (ft : FlowTable) (now pkt_len : Nat) (weighted : Bool)
    (allowed : List (Nat × Int)) (e : FlowEntry) : FlowEntry :=
  let e := back_to_list allowed e
  let e := { e with last_seen := now, byte_count := e.byte_count + UInt32.ofNat pkt_len }
  let sumw := weights_sum_positive weighted allowed
  if 0 < cur_limit ft e.current_wan ∧ cur_limit ft e.current_wan ≤ e.byte_count then
    if 0 < sumw then
      let slot := (int32 (e.wrr_slot + 1)).tmod sumw
      { e with byte_count := 0, wrr_slot := slot, current_wan := wrr_slot_to_wan slot allowed sumw }
    else
      let pos := (wan_allowed_pos e.current_wan allowed).getD 0
      { e with byte_count := 0, current_wan := allowed_wan allowed ((pos + 1) % allowed.length) }
  else e

/-- The slot and the interface of a new entry under a profile, and `next_wan`. Where `get_next_wan`
is undefined, its index need not be one of the list: a compiler may leave out the test for a
negative one, which a defined index never is. -/
def profile_pick (undef next_wan : Int) (key : FlowKey) (weighted : Bool)
    (allowed : List (Nat × Int)) : (Int × Int) × Int :=
  let sumw := weights_sum_positive weighted allowed
  if 0 < sumw then
    let slot := int32 (flow_key_hash key % sumw.toNat)
    ((slot, wrr_slot_to_wan slot allowed sumw), next_wan)
  else
    let pick := get_next_wan next_wan allowed.length
    let wan := match pick.1 with
      | some pick =>
        let pos := if pick < 0 then 0 else pick.toNat
        allowed_wan allowed (pos % allowed.length)
      | none => undef
    ((0, wan), pick.2)

/-- `flow_table_get_wan_profile`; without a list it is `flow_table_get_wan`. -/
def flow_table_get_wan_profile (undef : Int) (now : Nat) (next_wan : Int) (ft : FlowTable)
    (f : FlowKey) (pkt_len : Nat) (weighted : Bool) (allowed : List (Nat × Int)) :
    Int × Int × FlowTable :=
  match allowed with
  | [] => flow_table_get_wan undef now next_wan ft f pkt_len
  | [a] => (a.1, next_wan, ft)
  | _ =>
    let key := exact_key f
    let idx := flow_key_hash key
    let found := fun e : FlowEntry => !e.ip_only_key && e.profile_wan_pool && e.key == key
    let touch := touch_profile ft now pkt_len weighted allowed
    match (ft.buckets idx).find? found with
    | some e =>
      ((touch e).current_wan, next_wan, ft.set_bucket idx (touch_first found touch (ft.buckets idx)))
    | none =>
      let pick := profile_pick undef next_wan key weighted allowed
      let entry : FlowEntry :=
        { key
          byte_count := UInt32.ofNat pkt_len
          current_wan := pick.1.2
          last_seen := now
          ip_only_key := false
          wrr_slot := pick.1.1
          profile_wan_pool := true }
      (pick.1.2, pick.2, ft.set_bucket idx (entry :: ft.buckets idx))

/-! ## Bytes that are added later -/

/-- What `flow_table_add_bytes` does to the entry of the flow itself. -/
def charge_exact (ft : FlowTable) (extra_bytes : UInt32) (e : FlowEntry) : FlowEntry :=
  let e := { e with byte_count := e.byte_count + extra_bytes }
  if !e.profile_wan_pool ∧ 0 < cur_limit ft e.current_wan ∧
      cur_limit ft e.current_wan ≤ e.byte_count then
    { e with byte_count := 0, current_wan := (e.current_wan + 1).tmod ft.wan_count }
  else e

/-- What it does to the entry of the address pair. -/
def charge_ips (extra_bytes : UInt32) (e : FlowEntry) : FlowEntry :=
  { e with byte_count := e.byte_count + extra_bytes }

/-- The one pass over a bucket that both keys hash to, which ends at the entry of the flow. -/
def add_bytes_pass (ft : FlowTable) (key : FlowKey) (extra_bytes : UInt32) :
    List FlowEntry → List FlowEntry
  | [] => []
  | e :: rest =>
    if e.ip_only_key then
      (if e.key.src_ip = key.src_ip ∧ e.key.dst_ip = key.dst_ip then charge_ips extra_bytes e else e) ::
        add_bytes_pass ft key extra_bytes rest
    else if e.key = key then charge_exact ft extra_bytes e :: rest
    else e :: add_bytes_pass ft key extra_bytes rest

def flow_table_add_bytes (ft : FlowTable) (f : FlowKey) (extra_bytes : UInt32) : FlowTable :=
  let key := exact_key f
  let idx_exact := flow_key_hash key
  let idx_ip := flow_hash_ips key.src_ip key.dst_ip
  if idx_exact = idx_ip then
    ft.set_bucket idx_exact (add_bytes_pass ft key extra_bytes (ft.buckets idx_exact))
  else
    let ft' := ft.set_bucket idx_exact
      (touch_first (fun e : FlowEntry => !e.ip_only_key && e.key == key) (charge_exact ft extra_bytes)
        (ft.buckets idx_exact))
    ft'.set_bucket idx_ip
      (touch_first (fun e : FlowEntry =>
          e.ip_only_key && e.key.src_ip == key.src_ip && e.key.dst_ip == key.dst_ip)
        (charge_ips extra_bytes) (ft'.buckets idx_ip))

/-! ## What a touch reaches -/

/-- In a bucket without two entries of one key the entry of the key is touched and no other. -/
theorem touch_first_mem {α κ : Type*} [DecidableEq κ] {key : α → κ} {k : κ} {touch : α → α}
    {bucket : List α} (hnodup : (bucket.map key).Nodup) {e : α}
    (he : e ∈ touch_first (key · == k) touch bucket) :
    (key e ≠ k ∧ e ∈ bucket) ∨ ∃ e0 ∈ bucket, key e0 = k ∧ e = touch e0 := by
  induction bucket with
  | nil => simp [touch_first] at he
  | cons a rest ih =>
    rw [List.map_cons, List.nodup_cons] at hnodup
    unfold touch_first at he
    split at he
    · rename_i ha
      rw [beq_iff_eq] at ha
      rcases List.mem_cons.mp he with rfl | hmem
      · exact Or.inr ⟨a, List.mem_cons_self, ha, rfl⟩
      · refine Or.inl ⟨fun hk => hnodup.1 ?_, List.mem_cons_of_mem _ hmem⟩
        rw [ha, ← hk]
        exact List.mem_map_of_mem hmem
    · rename_i ha
      rw [beq_iff_eq] at ha
      rcases List.mem_cons.mp he with rfl | hmem
      · exact Or.inl ⟨ha, List.mem_cons_self⟩
      · rcases ih hnodup.2 hmem with ⟨hne, hin⟩ | ⟨e0, hin, hk, rfl⟩
        · exact Or.inl ⟨hne, List.mem_cons_of_mem _ hin⟩
        · exact Or.inr ⟨e0, List.mem_cons_of_mem _ hin, hk, rfl⟩

theorem touch_first_eq_map {α κ : Type*} [DecidableEq κ] {key : α → κ} (k : κ) (touch : α → α)
    {bucket : List α} (hnodup : (bucket.map key).Nodup) :
    touch_first (key · == k) touch bucket =
      bucket.map fun e => if key e = k then touch e else e := by
  induction bucket with
  | nil => rfl
  | cons e rest ih =>
    rw [List.map_cons, List.nodup_cons] at hnodup
    rw [List.map_cons]
    unfold touch_first
    by_cases he : key e = k
    · rw [if_pos (by simpa using he), if_pos he]
      congr 1
      -- the others have other keys
      refine ((List.map_congr_left fun a ha => ?_).trans (List.map_id _)).symm
      refine if_neg fun hk => hnodup.1 ?_
      rw [he, ← hk]
      exact List.mem_map_of_mem ha
    · rw [if_neg (by simpa using he), if_neg he, ih hnodup.2]

/-- A touch that leaves the keys leaves them in their places. -/
theorem touch_first_keys {α κ : Type*} {key : α → κ} (found : α → Bool) {touch : α → α}
    (htouch : ∀ e, key (touch e) = key e) (bucket : List α) :
    (touch_first found touch bucket).map key = bucket.map key := by
  induction bucket with
  | nil => rfl
  | cons a rest ih =>
    unfold touch_first
    split
    · rw [List.map_cons, List.map_cons, htouch]
    · rw [List.map_cons, List.map_cons, ih]

/-- `now - entry->last_seen > FLOW_TIMEOUT_SEC`. -/
def flow_expired (now : Nat) (e : FlowEntry) : Bool :=
  decide (FLOW_TIMEOUT_SEC < size_sub now e.last_seen)

/-- What `flow_table_gc` does to one bucket, at the time it has read. -/
def flow_table_gc_bucket (now i : Nat) (ft : FlowTable) : FlowTable :=
  ft.set_bucket i ((ft.buckets i).filter fun e => !flow_expired now e)

def flow_table_gc (now : Nat) (ft : FlowTable) : FlowTable :=
  (List.range FLOW_TABLE_SIZE).foldl (fun ft i => flow_table_gc_bucket now i ft) ft

end ne_ip.flow_table
