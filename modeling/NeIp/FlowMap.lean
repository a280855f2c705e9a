-- The flow table by its keys (flow_table.c): an address pair and a flow have one entry each, and
-- each call changes one of them, adds one, or drops old ones.
import NeIp.ChainedTable
import NeIp.FlowTable
import NeIp.Runs

open ne_ip.config ne_ip.crypto_layer4 ne_ip.flow ne_ip.flow_table chained_table runs

namespace ne_ip.flow_map

/-! ## The keys -/

/-- What an entry is found by. -/
inductive EntryKey where
  | ips (src_ip dst_ip : UInt32)
  | exact (key : FlowKey)
  deriving DecidableEq

def entry_key (e : FlowEntry) : EntryKey :=
  if e.ip_only_key then .ips e.key.src_ip e.key.dst_ip else .exact e.key

def entry_hash : EntryKey → Nat
  | .ips src_ip dst_ip => flow_hash_ips src_ip dst_ip
  | .exact key => flow_key_hash key

def flowKeyed : Keyed FlowEntry EntryKey where
  key := entry_key
  hash := entry_hash

theorem flowKeyed_hash_lt (key : EntryKey) : flowKeyed.hash key < FLOW_TABLE_SIZE := by
  cases key <;> exact Nat.mod_lt _ (by decide)

/-- The key of the address pair of a flow. -/
def ips_key (f : FlowKey) : EntryKey :=
  .ips (normalize_flow_ips f.src_ip f.dst_ip).1 (normalize_flow_ips f.src_ip f.dst_ip).2

/-- The two addresses of a flow, in no order. -/
def addresses (f : FlowKey) : Sym2 UInt32 := s(f.src_ip, f.dst_ip)

/-- Flows between the same addresses have one key, and others have others. -/
theorem ips_key_eq_iff {f g : FlowKey} : ips_key f = ips_key g ↔ addresses f = addresses g := by
  unfold ips_key addresses
  constructor
  · intro h
    obtain ⟨h1, h2⟩ := EntryKey.ips.inj h
    rw [← normalize_flow_ips_mk f.src_ip, ← normalize_flow_ips_mk g.src_ip, h1, h2]
  · intro h
    rcases Sym2.eq_iff.mp h with ⟨hs, hd⟩ | ⟨hs, hd⟩
    · rw [hs, hd]
    · rw [hs, hd, normalize_flow_ips_swap]

/-- The entry of an address pair holds its addresses. -/
theorem ip_only_of_entry_key {e : FlowEntry} {f : FlowKey} (h : entry_key e = ips_key f) :
    e.ip_only_key = true ∧ s(e.key.src_ip, e.key.dst_ip) = addresses f := by
  unfold entry_key ips_key at h
  split at h
  · rename_i hip
    obtain ⟨hs, hd⟩ := EntryKey.ips.inj h
    refine ⟨hip, ?_⟩
    rw [hs, hd]
    exact normalize_flow_ips_mk f.src_ip f.dst_ip
  · simp at h

/-- Both normalizations order the addresses alike. -/
theorem normalize_flow_5tuple_ips (a b : UInt32) (p q : Nat) :
    (normalize_flow_5tuple a b p q).1 = normalize_flow_ips a b := by
  unfold normalize_flow_5tuple normalize_flow_ips
  by_cases hgt : ntohl a > ntohl b
  · rw [if_pos (Or.inl hgt), if_pos hgt]
  · rw [if_neg hgt]
    split
    · rename_i h
      obtain ⟨heq, -⟩ := h.resolve_left hgt
      rw [ntohl_injective heq]
    · rfl

theorem ips_key_eq_exact (f : FlowKey) :
    ips_key f = .ips (exact_key f).src_ip (exact_key f).dst_ip := by
  unfold ips_key exact_key
  dsimp only
  rw [normalize_flow_5tuple_ips]

/-! ## The calls by their keys -/

section

variable {ft : FlowTable}

/-- A test that finds the entries of a key in their bucket. -/
def Finds (ft : FlowTable) (key : EntryKey) (found : FlowEntry → Bool) : Prop :=
  ∀ e ∈ ft.buckets (entry_hash key), found e = (entry_key e == key)

theorem Finds.find_eq {key : EntryKey} {found : FlowEntry → Bool} (h : Finds ft key found) :
    (ft.buckets (entry_hash key)).find? found = flowKeyed.find ft.buckets key := by
  unfold Keyed.find
  unfold Finds at h
  change _ = (ft.buckets (entry_hash key)).find? fun e => entry_key e == key
  generalize ft.buckets (entry_hash key) = bucket at h ⊢
  induction bucket with
  | nil => rfl
  | cons e rest ih =>
    rw [List.find?_cons, List.find?_cons, h e List.mem_cons_self,
      ih fun a ha => h a (List.mem_cons_of_mem _ ha)]

/-- A change of one bucket that is the change of an entry. -/
theorem Finds.set_bucket_touch (h : flowKeyed.Wf ft.buckets) {key : EntryKey}
    {found : FlowEntry → Bool} (hfound : Finds ft key found) (touch : FlowEntry → FlowEntry) :
    ft.set_bucket (entry_hash key) (touch_first found touch (ft.buckets (entry_hash key))) =
      { ft with buckets := flowKeyed.modify key touch ft.buckets } := by
  have hcongr : touch_first found touch (ft.buckets (entry_hash key)) =
      touch_first (fun e => entry_key e == key) touch (ft.buckets (entry_hash key)) := by
    unfold Finds at hfound
    generalize ft.buckets (entry_hash key) = bucket at hfound ⊢
    induction bucket with
    | nil => rfl
    | cons e rest ih =>
      unfold touch_first
      rw [hfound e List.mem_cons_self, ih fun a ha => hfound a (List.mem_cons_of_mem _ ha)]
  rw [hcongr, h.modify_eq]
  unfold FlowTable.set_bucket
  congr 1
  refine set_eq ?_ fun j hj => (if_neg hj).symm
  exact (touch_first_eq_map key touch (h.nodup _)).trans (if_pos rfl).symm

theorem set_bucket_cons (ft : FlowTable) (e : FlowEntry) :
    ft.set_bucket (entry_hash (entry_key e)) (e :: ft.buckets (entry_hash (entry_key e))) =
      { ft with buckets := flowKeyed.insert e ft.buckets } := by
  unfold FlowTable.set_bucket
  congr 1
  exact set_eq (if_pos rfl).symm fun _ hj => (if_neg hj).symm

/-- The test for an address pair. -/
theorem finds_ips (ft : FlowTable) (src_ip dst_ip : UInt32) :
    Finds ft (.ips src_ip dst_ip) fun e =>
      e.ip_only_key && e.key.src_ip == src_ip && e.key.dst_ip == dst_ip := by
  intro e _
  unfold entry_key
  dsimp only
  cases e.ip_only_key with
  | true => simp [beq_eq_decide]
  | false => simp

/-- The test for a flow. -/
theorem finds_exact (ft : FlowTable) (key : FlowKey) :
    Finds ft (.exact key) fun e => !e.ip_only_key && e.key == key := by
  intro e _
  unfold entry_key
  dsimp only
  cases e.ip_only_key with
  | true => simp
  | false => simp [beq_eq_decide]

/-- The entry that an address pair gets. -/
def new_ips_entry (now : Nat) (wan : Int) (f : FlowKey) (pkt_len : Nat) : FlowEntry where
  key := { f with
    src_ip := (normalize_flow_ips f.src_ip f.dst_ip).1
    dst_ip := (normalize_flow_ips f.src_ip f.dst_ip).2 }
  byte_count := UInt32.ofNat pkt_len
  current_wan := wan
  last_seen := now
  ip_only_key := true

/-- The entry that a flow gets under a profile, with its slot and interface. -/
def new_exact_entry (now : Nat) (f : FlowKey) (pkt_len : Nat) (pick : Int × Int) : FlowEntry where
  key := exact_key f
  byte_count := UInt32.ofNat pkt_len
  current_wan := pick.2
  last_seen := now
  ip_only_key := false
  wrr_slot := pick.1
  profile_wan_pool := true

theorem flow_table_get_wan_of_some (h : flowKeyed.Wf ft.buckets) {now pkt_len : Nat}
    {undef next_wan : Int} {f : FlowKey} {e : FlowEntry}
    (hfind : flowKeyed.find ft.buckets (ips_key f) = some e) :
    flow_table_get_wan undef now next_wan ft f pkt_len =
      ((touch_ips ft now pkt_len e).current_wan, next_wan,
        { ft with buckets := flowKeyed.modify (ips_key f) (touch_ips ft now pkt_len) ft.buckets }) := by
  have hfinds := finds_ips ft (normalize_flow_ips f.src_ip f.dst_ip).1
    (normalize_flow_ips f.src_ip f.dst_ip).2
  unfold flow_table_get_wan
  dsimp only
  split
  · rename_i a ha
    obtain rfl := Option.some.inj (hfind.symm.trans (hfinds.find_eq.symm.trans ha))
    congr 2
    exact hfinds.set_bucket_touch h _
  · rename_i ha
    exact absurd (hfinds.find_eq.symm.trans ha) (by
      change flowKeyed.find ft.buckets (ips_key f) ≠ none
      rw [hfind]
      simp)

theorem flow_table_get_wan_of_none {now pkt_len : Nat} {undef next_wan : Int} {f : FlowKey}
    (hfind : flowKeyed.find ft.buckets (ips_key f) = none) :
    flow_table_get_wan undef now next_wan ft f pkt_len =
      ((get_next_wan next_wan ft.wan_count).1.getD undef,
        (get_next_wan next_wan ft.wan_count).2,
        { ft with
          buckets := flowKeyed.insert
            (new_ips_entry now ((get_next_wan next_wan ft.wan_count).1.getD undef) f pkt_len)
            ft.buckets }) := by
  have hfinds := finds_ips ft (normalize_flow_ips f.src_ip f.dst_ip).1
    (normalize_flow_ips f.src_ip f.dst_ip).2
  unfold flow_table_get_wan
  dsimp only
  split
  · rename_i a ha
    have hnone := hfind.symm.trans (hfinds.find_eq.symm.trans ha)
    simp at hnone
  · congr 2
    exact set_bucket_cons ft
      (new_ips_entry now ((get_next_wan next_wan ft.wan_count).1.getD undef) f pkt_len)

theorem flow_table_gc_eq (h : flowKeyed.Wf ft.buckets) (now : Nat) :
    flow_table_gc now ft =
      { ft with buckets := retain (fun e => !flow_expired now e) ft.buckets } := by
  have hsweep := h.sweep_eq flowKeyed_hash_lt fun e => !flow_expired now e
  rw [← hsweep]
  unfold flow_table_gc
  generalize List.range FLOW_TABLE_SIZE = is
  clear hsweep h
  induction is generalizing ft with
  | nil => rfl
  | cons i is ih =>
    rw [List.foldl_cons, List.foldl_cons, ih]
    rfl

end

/-! ## Runs of calls -/

/-- A call, at its own reading of the clock, and with its own outcome where `get_next_wan` is
undefined. -/
inductive FlowCall where
  | get_wan (now : Nat) (f : FlowKey) (pkt_len : Nat) (undef : Int)
  | get_wan_profile (now : Nat) (f : FlowKey) (pkt_len : Nat) (weighted : Bool)
      (allowed : List (Nat × Int)) (undef : Int)
  | add_bytes (f : FlowKey) (extra_bytes : UInt32)
  | gc (now : Nat)

/-- A packet, and the interface that it was given. -/
structure Sent where
  flow : FlowKey
  pkt_len : Nat
  wan : Int
  deriving DecidableEq

/-- The table, the counter of `get_next_wan`, and the packets so far. -/
structure FlowState where
  next_wan : Int
  ft : FlowTable
  sent : List Sent

/-- `flow_table_init`, at some value of the counter, which it leaves. -/
def flow_table_init (next_wan : Int) (wan_window_sizes : List UInt32) (wan_count : Nat) :
    FlowState where
  next_wan := next_wan
  ft := { buckets := fun _ => [], wan_count, wan_window_sizes }
  sent := []

/-- What a lookup leaves: the interface, `next_wan` and the table. -/
def FlowState.give (s : FlowState) (f : FlowKey) (pkt_len : Nat) (r : Int × Int × FlowTable) :
    FlowState where
  next_wan := r.2.1
  ft := r.2.2
  sent := s.sent ++ [{ flow := f, pkt_len, wan := r.1 }]

def flow_call (s : FlowState) : FlowCall → FlowState
  | .get_wan now f pkt_len undef =>
    s.give f pkt_len (flow_table_get_wan undef now s.next_wan s.ft f pkt_len)
  | .get_wan_profile now f pkt_len weighted allowed undef =>
    s.give f pkt_len
      (flow_table_get_wan_profile undef now s.next_wan s.ft f pkt_len weighted allowed)
  | .add_bytes f extra_bytes => { s with ft := flow_table_add_bytes s.ft f extra_bytes }
  | .gc now => { s with ft := flow_table_gc now s.ft }

/-! ## What every run keeps -/

/-- What no call changes of an entry. -/
def shape (e : FlowEntry) : EntryKey × Bool × Bool :=
  (entry_key e, e.ip_only_key, e.profile_wan_pool)

theorem shape_touch_ips (ft : FlowTable) (now pkt_len : Nat) (e : FlowEntry) :
    shape (touch_ips ft now pkt_len e) = shape e := by
  unfold touch_ips
  dsimp only
  split <;> rfl

theorem shape_touch_profile (ft : FlowTable) (now pkt_len : Nat) (weighted : Bool)
    (allowed : List (Nat × Int)) (e : FlowEntry) :
    shape (touch_profile ft now pkt_len weighted allowed e) = shape e := by
  have hback : shape (back_to_list allowed e) = shape e := by
    unfold back_to_list
    split <;> rfl
  rw [← hback]
  unfold touch_profile
  dsimp only
  split
  · split <;> rfl
  · rfl

theorem shape_charge_exact (ft : FlowTable) (extra_bytes : UInt32) (e : FlowEntry) :
    shape (charge_exact ft extra_bytes e) = shape e := by
  unfold charge_exact
  dsimp only
  split <;> rfl

theorem shape_charge_ips (extra_bytes : UInt32) (e : FlowEntry) :
    shape (charge_ips extra_bytes e) = shape e := rfl

theorem add_bytes_pass_shapes (ft : FlowTable) (key : FlowKey) (extra_bytes : UInt32)
    (bucket : List FlowEntry) :
    (add_bytes_pass ft key extra_bytes bucket).map shape = bucket.map shape := by
  induction bucket with
  | nil => rfl
  | cons e rest ih =>
    unfold add_bytes_pass
    split
    · rw [List.map_cons, List.map_cons, ih]
      split <;> rfl
    · split
      · rw [List.map_cons, List.map_cons, shape_charge_exact]
      · rw [List.map_cons, List.map_cons, ih]

/-- Every key has one entry, in its bucket, and a flow has one only under a profile. -/
structure FlowOk (ft : FlowTable) : Prop where
  wf : flowKeyed.Wf ft.buckets
  pool : ∀ i, ∀ e ∈ ft.buckets i, e.ip_only_key = false → e.profile_wan_pool = true

theorem FlowOk.init (next_wan : Int) (wan_window_sizes : List UInt32) (wan_count : Nat) :
    FlowOk (flow_table_init next_wan wan_window_sizes wan_count).ft := by
  refine ⟨Keyed.Wf.empty, fun i e he => ?_⟩
  simp [flow_table_init] at he

theorem FlowOk.of_shapes {ft ft' : FlowTable} (h : FlowOk ft)
    (hs : ∀ i, (ft'.buckets i).map shape = (ft.buckets i).map shape) : FlowOk ft' := by
  refine ⟨h.wf.of_keys fun i => ?_, fun i e he hip => ?_⟩
  · have hkeys := congrArg (List.map Prod.fst) (hs i)
    rw [List.map_map, List.map_map] at hkeys
    exact hkeys
  · have hmem : shape e ∈ (ft.buckets i).map shape := by
      rw [← hs]
      exact List.mem_map_of_mem he
    obtain ⟨a, ha, hshape⟩ := List.mem_map.mp hmem
    obtain ⟨hip', hpool⟩ := Prod.mk.inj (Prod.mk.inj hshape).2
    rw [← hpool]
    exact h.pool i a ha (hip'.trans hip)

theorem FlowOk.set_bucket {ft : FlowTable} (h : FlowOk ft) {idx : Nat} {bucket : List FlowEntry}
    (hs : bucket.map shape = (ft.buckets idx).map shape) : FlowOk (ft.set_bucket idx bucket) := by
  refine h.of_shapes fun i => ?_
  unfold FlowTable.set_bucket
  dsimp only
  by_cases hi : i = idx
  · subst hi
    rw [if_pos rfl, hs]
  · rw [if_neg hi]

theorem FlowOk.insert {ft : FlowTable} (h : FlowOk ft) {e : FlowEntry}
    (hnew : flowKeyed.find ft.buckets (entry_key e) = none)
    (hpool : e.ip_only_key = false → e.profile_wan_pool = true) :
    FlowOk { ft with buckets := flowKeyed.insert e ft.buckets } := by
  refine ⟨h.wf.insert hnew, fun i a ha => ?_⟩
  dsimp only at ha
  unfold Keyed.insert at ha
  split at ha
  · rcases List.mem_cons.mp ha with rfl | hmem
    · exact hpool
    · exact h.pool i a hmem
  · exact h.pool i a ha

theorem FlowOk.get_wan {ft : FlowTable} (h : FlowOk ft) (undef : Int) (now : Nat) (next_wan : Int)
    (f : FlowKey) (pkt_len : Nat) :
    FlowOk (flow_table_get_wan undef now next_wan ft f pkt_len).2.2 := by
  cases hfind : flowKeyed.find ft.buckets (ips_key f) with
  | some e =>
    rw [flow_table_get_wan_of_some h.wf hfind]
    refine h.of_shapes fun i => ?_
    dsimp only [Keyed.modify]
    rw [List.map_map]
    refine List.map_congr_left fun a _ => ?_
    dsimp only [Function.comp_apply]
    split
    · exact shape_touch_ips ft now pkt_len a
    · rfl
  | none =>
    rw [flow_table_get_wan_of_none hfind]
    exact h.insert hfind fun hip => absurd hip (by simp [new_ips_entry])

/-- Under a profile the test for the flow finds its entry. -/
theorem FlowOk.finds_pool {ft : FlowTable} (h : FlowOk ft) (key : FlowKey) :
    Finds ft (.exact key) fun e => !e.ip_only_key && e.profile_wan_pool && e.key == key := by
  intro e he
  rw [← finds_exact ft key e he]
  dsimp only
  cases hip : e.ip_only_key with
  | true => rfl
  | false => rw [h.pool _ e he hip, Bool.and_true]

theorem FlowOk.get_wan_profile {ft : FlowTable} (h : FlowOk ft) (undef : Int) (now : Nat)
    (next_wan : Int) (f : FlowKey) (pkt_len : Nat) (weighted : Bool) (allowed : List (Nat × Int)) :
    FlowOk (flow_table_get_wan_profile undef now next_wan ft f pkt_len weighted allowed).2.2 := by
  have hfinds := h.finds_pool (exact_key f)
  unfold flow_table_get_wan_profile
  split
  · exact h.get_wan undef now next_wan f pkt_len
  · exact h
  · dsimp only
    split
    · refine h.set_bucket ?_
      exact touch_first_keys _ (fun e => shape_touch_profile ft now pkt_len weighted _ e) _
    · rename_i hnone
      have hnew := hfinds.find_eq.symm.trans hnone
      have hins := h.insert (e := new_exact_entry now f pkt_len
        (profile_pick undef next_wan (exact_key f) weighted allowed).1) hnew fun _ => rfl
      rw [← set_bucket_cons] at hins
      exact hins

theorem FlowOk.add_bytes {ft : FlowTable} (h : FlowOk ft) (f : FlowKey) (extra_bytes : UInt32) :
    FlowOk (flow_table_add_bytes ft f extra_bytes) := by
  unfold flow_table_add_bytes
  dsimp only
  split
  · exact h.set_bucket (add_bytes_pass_shapes ft _ extra_bytes _)
  · refine (h.set_bucket ?_).set_bucket ?_
    · exact touch_first_keys _ (fun e => shape_charge_exact ft extra_bytes e) _
    · exact touch_first_keys _ (shape_charge_ips extra_bytes) _

theorem FlowOk.gc {ft : FlowTable} (h : FlowOk ft) (now : Nat) : FlowOk (flow_table_gc now ft) := by
  rw [flow_table_gc_eq h.wf]
  exact ⟨h.wf.retain _, fun i e he => h.pool i e (List.mem_of_mem_filter he)⟩

theorem FlowOk.call {s : FlowState} (h : FlowOk s.ft) (c : FlowCall) :
    FlowOk (flow_call s c).ft := by
  cases c with
  | get_wan now f pkt_len undef => exact h.get_wan undef now s.next_wan f pkt_len
  | get_wan_profile now f pkt_len weighted allowed undef =>
    exact h.get_wan_profile undef now s.next_wan f pkt_len weighted allowed
  | add_bytes f extra_bytes => exact h.add_bytes f extra_bytes
  | gc now =>
    dsimp only [flow_call]
    exact h.gc now

/-- Every run from an empty table. -/
theorem FlowOk.of_run {next_wan : Int} {wan_window_sizes : List UInt32} {wan_count : Nat}
    {cs : List FlowCall} {s : FlowState}
    (hrun : Run (fun s c t => flow_call s c = t)
      (flow_table_init next_wan wan_window_sizes wan_count) cs s) : FlowOk s.ft := by
  refine hrun.invariant (P := fun s => FlowOk s.ft) (FlowOk.init _ _ _) ?_
  rintro s c t h rfl
  exact h.call c

end ne_ip.flow_map
