-- The interfaces that the flow table gives out (flow_table.c): each is the index of one, as long as
-- get_next_wan does not find its counter at the least int, which has no negation.
import NeIp.FlowMap
import NeIp.WanSelect

open ne_ip.config ne_ip.crypto_layer4 ne_ip.flow ne_ip.flow_table ne_ip.flow_map ne_ip.wan_select
open chained_table runs

namespace ne_ip.wan_range

def INT_MIN : Int := -2 ^ 31

/-- The index of one of `wan_count` interfaces. -/
def ValidWan (wan_count : Nat) (wan : Int) : Prop := 0 ≤ wan ∧ wan < wan_count

theorem valid_natCast {wan_count wan : Nat} (h : wan < wan_count) : ValidWan wan_count wan :=
  ⟨Int.natCast_nonneg _, by exact_mod_cast h⟩

/-! ## The pickers -/

/-- An `int` that is not the least one has a negation. -/
theorem get_next_wan_valid {next_wan : Int} {wan_count : Nat} (hn : 0 < wan_count)
    (hmin : next_wan ≠ INT_MIN) :
    ∃ wan, (get_next_wan next_wan wan_count).1 = some wan ∧ ValidWan wan_count wan := by
  have hneg : next_wan ≠ -2 ^ 31 := hmin
  unfold get_next_wan
  rw [if_neg (by omega)]
  dsimp only
  rw [if_neg hneg]
  refine ⟨_, rfl, Int.tmod_nonneg _ ?_, Int.tmod_lt_of_pos _ (by omega)⟩
  split <;> omega

theorem get_next_wan_int {next_wan : Int} (wan_count : Nat)
    (hint : -2 ^ 31 ≤ next_wan ∧ next_wan < 2 ^ 31) :
    -2 ^ 31 ≤ (get_next_wan next_wan wan_count).2 ∧
      (get_next_wan next_wan wan_count).2 < 2 ^ 31 := by
  unfold get_next_wan
  split
  · exact hint
  · exact int32_range _

/-- The next one of all interfaces. -/
theorem valid_succ {wan_count : Nat} {wan : Int} (h : ValidWan wan_count wan) :
    ValidWan wan_count ((wan + 1).tmod wan_count) := by
  obtain ⟨h0, hlt⟩ := h
  exact ⟨Int.tmod_nonneg _ (by omega), Int.tmod_lt_of_pos _ (by omega)⟩

/-- Every interface of a list is one of `wan_count`. -/
def ValidList (wan_count : Nat) (allowed : List (Nat × Int)) : Prop :=
  ∀ a ∈ allowed, a.1 < wan_count

theorem valid_allowed_wan {wan_count : Nat} {allowed : List (Nat × Int)}
    (h : ValidList wan_count allowed) {pos : Nat} (hpos : pos < allowed.length) :
    ValidWan wan_count (allowed_wan allowed pos) := by
  unfold allowed_wan
  rw [List.getD_eq_getElem _ _ (by rw [List.length_map]; exact hpos), List.getElem_map]
  exact valid_natCast (h _ (List.getElem_mem hpos))

/-- The search by weights gives an interface of the list, whatever the slot. -/
theorem valid_wrr_slot_to_wan {wan_count : Nat} {allowed : List (Nat × Int)}
    (h : ValidList wan_count allowed) (hne : allowed ≠ []) (slot sumw : Int) :
    ValidWan wan_count (wrr_slot_to_wan slot allowed sumw) := by
  obtain ⟨a, ha, hwan⟩ := List.mem_map.mp (wrr_slot_to_wan_mem slot sumw hne)
  rw [← hwan]
  exact valid_natCast (h a ha)

/-! ## The entries -/

/-- Every entry has the index of an interface. -/
def ValidEntries (ft : FlowTable) : Prop :=
  ∀ i, ∀ e ∈ ft.buckets i, ValidWan ft.wan_count e.current_wan

theorem ValidEntries.set_bucket {ft : FlowTable} (h : ValidEntries ft) {idx : Nat}
    {bucket : List FlowEntry} (hb : ∀ e ∈ bucket, ValidWan ft.wan_count e.current_wan) :
    ValidEntries (ft.set_bucket idx bucket) := by
  intro i e he
  unfold FlowTable.set_bucket at he
  dsimp only at he
  split at he
  · exact hb e he
  · exact h i e he

theorem touch_first_valid {n : Nat} (found : FlowEntry → Bool) {touch : FlowEntry → FlowEntry}
    (htouch : ∀ e, ValidWan n e.current_wan → ValidWan n (touch e).current_wan)
    {bucket : List FlowEntry} (hb : ∀ e ∈ bucket, ValidWan n e.current_wan) :
    ∀ e ∈ touch_first found touch bucket, ValidWan n e.current_wan := by
  induction bucket with
  | nil => simp [touch_first]
  | cons a rest ih =>
    rw [List.forall_mem_cons] at hb
    unfold touch_first
    split
    · exact List.forall_mem_cons.mpr ⟨htouch a hb.1, hb.2⟩
    · exact List.forall_mem_cons.mpr ⟨hb.1, ih hb.2⟩

theorem touch_ips_valid {ft : FlowTable} (now pkt_len : Nat) {e : FlowEntry}
    (h : ValidWan ft.wan_count e.current_wan) :
    ValidWan ft.wan_count (touch_ips ft now pkt_len e).current_wan := by
  unfold touch_ips
  dsimp only
  split
  · exact valid_succ h
  · exact h

theorem charge_exact_valid {ft : FlowTable} (extra_bytes : UInt32) {e : FlowEntry}
    (h : ValidWan ft.wan_count e.current_wan) :
    ValidWan ft.wan_count (charge_exact ft extra_bytes e).current_wan := by
  unfold charge_exact
  dsimp only
  split
  · exact valid_succ h
  · exact h

theorem charge_ips_valid {n : Nat} (extra_bytes : UInt32) {e : FlowEntry}
    (h : ValidWan n e.current_wan) : ValidWan n (charge_ips extra_bytes e).current_wan := h

theorem touch_profile_valid {ft : FlowTable} (now pkt_len : Nat) (weighted : Bool)
    {allowed : List (Nat × Int)} (hlist : ValidList ft.wan_count allowed) (hne : allowed ≠ [])
    {e : FlowEntry} (h : ValidWan ft.wan_count e.current_wan) :
    ValidWan ft.wan_count (touch_profile ft now pkt_len weighted allowed e).current_wan := by
  have hpos := List.length_pos_iff.mpr hne
  have hback : ValidWan ft.wan_count (back_to_list allowed e).current_wan := by
    unfold back_to_list
    split
    · exact h
    · exact valid_allowed_wan hlist hpos
  unfold touch_profile
  dsimp only
  split
  · split
    · exact valid_wrr_slot_to_wan hlist hne _ _
    · exact valid_allowed_wan hlist (Nat.mod_lt _ hpos)
  · exact hback

theorem profile_pick_valid {n : Nat} (undef : Int) {next_wan : Int} (key : FlowKey) (weighted : Bool)
    {allowed : List (Nat × Int)} (hlist : ValidList n allowed) (hne : allowed ≠ [])
    (hmin : weights_sum_positive weighted allowed ≤ 0 → next_wan ≠ INT_MIN) :
    ValidWan n (profile_pick undef next_wan key weighted allowed).1.2 := by
  have hpos := List.length_pos_iff.mpr hne
  unfold profile_pick
  dsimp only
  split
  · exact valid_wrr_slot_to_wan hlist hne _ _
  · rename_i hsum
    obtain ⟨wan, hwan, -⟩ := get_next_wan_valid hpos (hmin (by omega))
    rw [hwan]
    exact valid_allowed_wan hlist (Nat.mod_lt _ hpos)

theorem add_bytes_pass_valid {ft : FlowTable} (key : FlowKey) (extra_bytes : UInt32)
    {bucket : List FlowEntry} (hb : ∀ e ∈ bucket, ValidWan ft.wan_count e.current_wan) :
    ∀ e ∈ add_bytes_pass ft key extra_bytes bucket, ValidWan ft.wan_count e.current_wan := by
  induction bucket with
  | nil => simp [add_bytes_pass]
  | cons a rest ih =>
    rw [List.forall_mem_cons] at hb
    unfold add_bytes_pass
    split
    · refine List.forall_mem_cons.mpr ⟨?_, ih hb.2⟩
      split
      · exact hb.1
      · exact hb.1
    · split
      · exact List.forall_mem_cons.mpr ⟨charge_exact_valid extra_bytes hb.1, hb.2⟩
      · exact List.forall_mem_cons.mpr ⟨hb.1, ih hb.2⟩

/-! ## The calls -/

/-- What a lookup gives and leaves. -/
structure ValidResult (ft : FlowTable) (r : Int × Int × FlowTable) : Prop where
  wan : ValidWan ft.wan_count r.1
  next_wan : -2 ^ 31 ≤ r.2.1 ∧ r.2.1 < 2 ^ 31
  wan_count : r.2.2.wan_count = ft.wan_count
  entries : ValidEntries r.2.2

theorem flow_table_get_wan_valid {ft : FlowTable} (hn : 0 < ft.wan_count) (h : ValidEntries ft)
    (undef : Int) {next_wan : Int} (hint : -2 ^ 31 ≤ next_wan ∧ next_wan < 2 ^ 31)
    (now pkt_len : Nat) {f : FlowKey}
    (hmin : flowKeyed.find ft.buckets (ips_key f) = none → next_wan ≠ INT_MIN) :
    ValidResult ft (flow_table_get_wan undef now next_wan ft f pkt_len) := by
  have hfinds := finds_ips ft (normalize_flow_ips f.src_ip f.dst_ip).1
    (normalize_flow_ips f.src_ip f.dst_ip).2
  unfold flow_table_get_wan
  dsimp only
  split
  · rename_i e he
    have hvalid := h _ e (List.mem_of_find?_eq_some he)
    exact ⟨touch_ips_valid now pkt_len hvalid, hint, rfl,
      h.set_bucket (touch_first_valid _ (fun _ => touch_ips_valid now pkt_len) (h _))⟩
  · rename_i hnone
    have hnext := hmin (hfinds.find_eq.symm.trans hnone)
    obtain ⟨wan, hwan, hpick⟩ := get_next_wan_valid hn hnext
    rw [hwan, Option.getD_some]
    exact ⟨hpick, get_next_wan_int _ hint, rfl,
      h.set_bucket (List.forall_mem_cons.mpr ⟨hpick, h _⟩)⟩

theorem profile_pick_int (undef : Int) {next_wan : Int}
    (hint : -2 ^ 31 ≤ next_wan ∧ next_wan < 2 ^ 31) (key : FlowKey) (weighted : Bool)
    (allowed : List (Nat × Int)) :
    -2 ^ 31 ≤ (profile_pick undef next_wan key weighted allowed).2 ∧
      (profile_pick undef next_wan key weighted allowed).2 < 2 ^ 31 := by
  unfold profile_pick
  dsimp only
  split
  · exact hint
  · exact get_next_wan_int _ hint

/-- The call takes its interface from `get_next_wan`: an address pair without an entry does, and a
flow without one under a profile whose weights do not choose. -/
def TakesNext (ft : FlowTable) : FlowCall → Prop
  | .get_wan _ f _ _ => flowKeyed.find ft.buckets (ips_key f) = none
  | .get_wan_profile _ f _ weighted allowed _ =>
    (allowed = [] ∧ flowKeyed.find ft.buckets (ips_key f) = none) ∨
    (2 ≤ allowed.length ∧ weights_sum_positive weighted allowed ≤ 0 ∧
      flowKeyed.find ft.buckets (.exact (exact_key f)) = none)
  | _ => False

theorem flow_table_get_wan_profile_valid {ft : FlowTable} (hn : 0 < ft.wan_count)
    (hok : FlowOk ft) (h : ValidEntries ft) (undef : Int) {next_wan : Int}
    (hint : -2 ^ 31 ≤ next_wan ∧ next_wan < 2 ^ 31)
    (now pkt_len : Nat) {f : FlowKey} (weighted : Bool) {allowed : List (Nat × Int)}
    (hlist : ValidList ft.wan_count allowed)
    (hmin : TakesNext ft (.get_wan_profile now f pkt_len weighted allowed undef) →
      next_wan ≠ INT_MIN) :
    ValidResult ft
      (flow_table_get_wan_profile undef now next_wan ft f pkt_len weighted allowed) := by
  have hfinds := hok.finds_pool (exact_key f)
  unfold flow_table_get_wan_profile
  split
  · exact flow_table_get_wan_valid hn h undef hint now pkt_len fun hnone =>
      hmin (Or.inl ⟨rfl, hnone⟩)
  · exact ⟨valid_natCast (hlist _ List.mem_cons_self), hint, rfl, h⟩
  · rename_i hne hone
    have hlen : 2 ≤ allowed.length := by
      rcases allowed with _ | ⟨a, _ | ⟨b, rest⟩⟩
      · exact absurd rfl hne
      · exact absurd rfl (hone a)
      · simp
    have htouch : ∀ e, ValidWan ft.wan_count e.current_wan →
        ValidWan ft.wan_count (touch_profile ft now pkt_len weighted allowed e).current_wan :=
      fun _ => touch_profile_valid now pkt_len weighted hlist hne
    dsimp only
    split
    · rename_i e he
      exact ⟨htouch e (h _ e (List.mem_of_find?_eq_some he)), hint, rfl,
        h.set_bucket (touch_first_valid _ htouch (h _))⟩
    · rename_i hnone
      have hpick := profile_pick_valid undef (exact_key f) weighted hlist hne fun hsum =>
        hmin (Or.inr ⟨hlen, hsum, hfinds.find_eq.symm.trans hnone⟩)
      exact ⟨hpick, profile_pick_int undef hint _ _ _, rfl,
        h.set_bucket (List.forall_mem_cons.mpr ⟨hpick, h _⟩)⟩

theorem flow_table_add_bytes_valid {ft : FlowTable} (h : ValidEntries ft) (f : FlowKey)
    (extra_bytes : UInt32) :
    ValidEntries (flow_table_add_bytes ft f extra_bytes) ∧
      (flow_table_add_bytes ft f extra_bytes).wan_count = ft.wan_count := by
  unfold flow_table_add_bytes
  dsimp only
  split
  · exact ⟨h.set_bucket (add_bytes_pass_valid _ extra_bytes (h _)), rfl⟩
  · have hfirst : ValidEntries (ft.set_bucket (flow_key_hash (exact_key f)) (touch_first
        (fun e : FlowEntry => !e.ip_only_key && e.key == exact_key f) (charge_exact ft extra_bytes)
        (ft.buckets (flow_key_hash (exact_key f))))) :=
      h.set_bucket (touch_first_valid _ (fun _ => charge_exact_valid extra_bytes) (h _))
    exact ⟨hfirst.set_bucket
      (touch_first_valid _ (fun _ => charge_ips_valid extra_bytes) (hfirst _)),
      rfl⟩

theorem flow_table_gc_valid {ft : FlowTable} (h : ValidEntries ft) (now : Nat) :
    ValidEntries (flow_table_gc now ft) ∧ (flow_table_gc now ft).wan_count = ft.wan_count := by
  unfold flow_table_gc
  generalize List.range FLOW_TABLE_SIZE = is
  induction is generalizing ft with
  | nil => exact ⟨h, rfl⟩
  | cons i is ih =>
    rw [List.foldl_cons]
    have hbucket : ValidEntries (flow_table_gc_bucket now i ft) :=
      h.set_bucket fun e he => h i e (List.mem_of_mem_filter he)
    exact ih hbucket

/-! ## Runs -/

/-- The lists of the profiles hold indices of interfaces. -/
def HasValidList (s : FlowState) : FlowCall → Prop
  | .get_wan_profile _ _ _ _ allowed _ => ValidList s.ft.wan_count allowed
  | _ => True

/-- No call of `get_next_wan` finds the counter at the least `int`. -/
def AvoidsIntMin (s : FlowState) (c : FlowCall) : Prop := TakesNext s.ft c → s.next_wan ≠ INT_MIN

/-- Every index that was given out or is kept is that of an interface. -/
structure InRange (wan_count : Nat) (s : FlowState) : Prop where
  count : s.ft.wan_count = wan_count
  next_wan : -2 ^ 31 ≤ s.next_wan ∧ s.next_wan < 2 ^ 31
  entries : ValidEntries s.ft
  sent : ∀ p ∈ s.sent, ValidWan wan_count p.wan

theorem InRange.give {n : Nat} {s : FlowState} (h : InRange n s) (f : FlowKey) (pkt_len : Nat)
    {r : Int × Int × FlowTable} (hr : ValidResult s.ft r) : InRange n (s.give f pkt_len r) := by
  refine ⟨hr.wan_count.trans h.count, hr.next_wan, hr.entries, fun p hp => ?_⟩
  rcases List.mem_append.mp hp with hp | hp
  · exact h.sent p hp
  · rw [List.mem_singleton.mp hp, ← h.count]
    exact hr.wan

theorem InRange.with_table {n : Nat} {s : FlowState} (h : InRange n s) {ft : FlowTable}
    (hft : ValidEntries ft ∧ ft.wan_count = s.ft.wan_count) : InRange n { s with ft } :=
  ⟨hft.2.trans h.count, h.next_wan, hft.1, h.sent⟩

theorem InRange.call {n : Nat} (hn : 0 < n) {s : FlowState} (hok : FlowOk s.ft) (h : InRange n s)
    {c : FlowCall} (hlist : HasValidList s c) (hmin : AvoidsIntMin s c) :
    InRange n (flow_call s c) := by
  have hn' : 0 < s.ft.wan_count := h.count ▸ hn
  cases c with
  | get_wan now f pkt_len undef =>
    exact h.give f pkt_len
      (flow_table_get_wan_valid hn' h.entries undef h.next_wan now pkt_len hmin)
  | get_wan_profile now f pkt_len weighted allowed undef =>
    exact h.give f pkt_len (flow_table_get_wan_profile_valid hn' hok h.entries undef h.next_wan now
      pkt_len weighted hlist hmin)
  | add_bytes f extra_bytes =>
    exact h.with_table (flow_table_add_bytes_valid h.entries f extra_bytes)
  | gc now => exact h.with_table (flow_table_gc_valid h.entries now)

/-- From an empty table and any `int` that the counter stands at, in every run in which no call of
`get_next_wan` finds the counter at the least `int`, all indices are those of interfaces. -/
theorem every_index_is_that_of_an_interface_while_no_pick_finds_the_least_int {next_wan : Int}
    (hint : -2 ^ 31 ≤ next_wan ∧ next_wan < 2 ^ 31) (wan_window_sizes : List UInt32)
    {wan_count : Nat} (hn : 1 ≤ wan_count) {cs : List FlowCall} {s : FlowState}
    (hrun : Run (Guarded (fun s c => HasValidList s c ∧ AvoidsIntMin s c)
      fun s c t => flow_call s c = t) (flow_table_init next_wan wan_window_sizes wan_count) cs s) :
    (∀ i, ∀ e ∈ s.ft.buckets i, 0 ≤ e.current_wan ∧ e.current_wan < wan_count) ∧
      ∀ p ∈ s.sent, 0 ≤ p.wan ∧ p.wan < wan_count := by
  have hrange : FlowOk s.ft ∧ InRange wan_count s := by
    refine hrun.invariant (P := fun s => FlowOk s.ft ∧ InRange wan_count s)
      ⟨.init _ _ _, rfl, hint, fun i e he => ?_, fun p hp => ?_⟩ ?_
    · simp [flow_table_init] at he
    · simp [flow_table_init] at hp
    · rintro s c t ⟨hok, h⟩ ⟨⟨hlist, hmin⟩, rfl⟩
      exact ⟨hok.call c, h.call hn hok hlist hmin⟩
  refine ⟨fun i e he => ?_, hrange.2.sent⟩
  rw [← hrange.2.count]
  exact hrange.2.entries i e he

/-- 10.0.0.1 and 10.1.21.170. -/
def pairFlow : FlowKey := ⟨0x0100000a, 0xaa15010a, 40000, 443, 6⟩

/-- A new pair finds the counter right after the least `int`; two flows come under profiles with two
interfaces of three, the second one with weights. -/
def callsAfterIntMin : List FlowCall :=
  [.get_wan 100 pairFlow 60 (-2), .get_wan_profile 100 pairFlow 60 false [(0, 1), (2, 1)] (-2),
    .get_wan_profile 100 { pairFlow with src_port := 40001 } 60 true [(0, 0), (2, 1)] (-2),
    .add_bytes pairFlow 1000, .gc 130]

theorem the_picks_after_the_least_int_are_interfaces :
    let s := callsAfterIntMin.foldl flow_call (flow_table_init (-2 ^ 31 + 1) [] 3)
    s.sent.map (·.wan) = [1, 0, 2] ∧
    (∀ i, ∀ e ∈ s.ft.buckets i, 0 ≤ e.current_wan ∧ e.current_wan < (3 : Nat)) ∧
      ∀ p ∈ s.sent, 0 ≤ p.wan ∧ p.wan < (3 : Nat) := by
  intro s
  have hrun : Run (Guarded (fun s c => HasValidList s c ∧ AvoidsIntMin s c)
      fun s c t => flow_call s c = t) (flow_table_init (-2 ^ 31 + 1) [] 3) callsAfterIntMin s := by
    refine Run.snoc (Run.snoc (Run.snoc (Run.snoc (Run.single ⟨⟨trivial, fun _ => ?_⟩, rfl⟩)
      ⟨⟨?_, fun _ => ?_⟩, rfl⟩) ⟨⟨?_, fun _ => ?_⟩, rfl⟩) ⟨⟨trivial, fun h => h.elim⟩, rfl⟩)
      ⟨⟨trivial, fun h => h.elim⟩, rfl⟩
    · decide
    · unfold HasValidList ValidList
      decide +kernel
    · decide +kernel
    · unfold HasValidList ValidList
      decide +kernel
    · decide +kernel
  exact ⟨by decide +kernel,
    every_index_is_that_of_an_interface_while_no_pick_finds_the_least_int (by decide) [] (by decide)
      hrun⟩

/-! ## The least `int` -/

/-- An address pair that comes into an empty table leaves it empty again when its time is over. -/
theorem gc_of_one_pair {ft : FlowTable} (hft : ft = (flow_table_init 0 [] 3).ft)
    (undef next_wan : Int) (now : Nat) :
    flow_table_gc (now + 61) (flow_table_get_wan undef now next_wan ft pairFlow 60).2.2 = ft := by
  subst hft
  have hok := (FlowOk.init 0 [] 3).get_wan undef now next_wan pairFlow 60
  rw [flow_table_get_wan_of_none rfl] at hok ⊢
  rw [flow_table_gc_eq hok.wf]
  have hold : flow_expired (now + 61)
      (new_ips_entry now ((get_next_wan next_wan 3).1.getD undef) pairFlow 60) = true := by
    unfold flow_expired size_sub new_ips_entry FLOW_TIMEOUT_SEC
    dsimp only
    rw [if_pos (by omega)]
    exact decide_eq_true (by omega)
  dsimp only [flow_table_init]
  congr 1
  funext i
  unfold retain Keyed.insert
  split
  · rw [List.filter_cons, hold]
    rfl
  · rfl

/-- One address pair each 61 s moves the counter on by one. -/
theorem counter_after_pairs (k : Nat) (hk : k ≤ 2 ^ 31) :
    ∃ cs s,
      Run (Guarded HasValidList fun s c t => flow_call s c = t) (flow_table_init 0 [] 3) cs s ∧
      s.ft = (flow_table_init 0 [] 3).ft ∧ s.next_wan = int32 k := by
  induction k with
  | zero => exact ⟨[], _, Run.nil _, rfl, rfl⟩
  | succ k ih =>
    obtain ⟨cs, s, hrun, hft, hnext⟩ := ih (by omega)
    rw [int32_of_lt (by omega) (by omega)] at hnext
    have hpair : Run (Guarded HasValidList fun s c t => flow_call s c = t) s
        [.get_wan (61 * k) pairFlow 60 0] (flow_call s (.get_wan (61 * k) pairFlow 60 0)) :=
      Run.single ⟨trivial, rfl⟩
    have hgc := Run.snoc hpair (e := FlowCall.gc (61 * k + 61)) ⟨trivial, rfl⟩
    refine ⟨_, _, hrun.append hgc, ?_, ?_⟩
    · dsimp only [flow_call, FlowState.give]
      rw [gc_of_one_pair hft, hft]
    · dsimp only [flow_call, FlowState.give]
      rw [hft, flow_table_get_wan_of_none rfl, hnext]
      unfold get_next_wan flow_table_init
      dsimp only
      rw [if_neg (by decide), Nat.cast_add, Nat.cast_one]

/-- What two's complement makes of the least `int` and three interfaces: its negation is itself. -/
def wrapped_pick : Int := (int32 (-INT_MIN)).tmod 3

/-- After as many address pairs, one after the other, as bring the counter to the least `int`, the
next pair gets the interface -2 of three. -/
theorem the_pair_after_2147483648_others_gets_a_negative_interface :
    ∃ cs s,
      Run (Guarded HasValidList fun s c t => flow_call s c = t) (flow_table_init 0 [] 3) cs s ∧
      (∃ p ∈ s.sent, p.wan = -2) ∧ ∃ i, ∃ e ∈ s.ft.buckets i, e.current_wan = -2 := by
  obtain ⟨cs, s, hrun, hft, hnext⟩ := counter_after_pairs (2 ^ 31) (le_refl _)
  have hpick : (get_next_wan s.next_wan 3).1.getD wrapped_pick = -2 := by
    rw [hnext]
    decide
  have hlast := Run.snoc hrun (e := FlowCall.get_wan (61 * 2 ^ 31) pairFlow 60 wrapped_pick)
    ⟨trivial, rfl⟩
  refine ⟨_, _, hlast, ?_, ?_⟩
  · refine ⟨⟨pairFlow, 60, -2⟩, ?_, rfl⟩
    dsimp only [flow_call, FlowState.give]
    rw [hft, flow_table_get_wan_of_none rfl]
    dsimp only [flow_table_init]
    rw [hpick]
    exact List.mem_append_right _ (List.mem_singleton_self _)
  · refine ⟨entry_hash (ips_key pairFlow), new_ips_entry (61 * 2 ^ 31) (-2) pairFlow 60, ?_, rfl⟩
    dsimp only [flow_call, FlowState.give]
    rw [hft, flow_table_get_wan_of_none rfl]
    dsimp only [flow_table_init]
    rw [hpick]
    unfold Keyed.insert
    rw [if_pos (by rfl)]
    exact List.mem_cons_self

end ne_ip.wan_range
