-- The windows of the interfaces (flow_table_get_wan in flow_table.c): how many bytes of an address
-- pair go to one interface before the next has its turn.
import NeIp.FlowMap
import NeIp.Rotation

open ne_ip.config ne_ip.crypto_layer4 ne_ip.flow ne_ip.flow_table ne_ip.flow_map chained_table
open rotation runs

namespace ne_ip.window_rotation

/-- The window of an interface; 0 for what is none. -/
def window_of (wan_window_sizes : List UInt32) (wan_count : Nat) (wan : Int) : Nat :=
  if 0 ≤ wan ∧ wan < wan_count then (wan_window_sizes.getD wan.toNat 0).toNat else 0

def next_of (wan_count : Nat) (wan : Int) : Int := (wan + 1).tmod wan_count

theorem cur_limit_toNat (ft : FlowTable) (wan : Int) :
    (cur_limit ft wan).toNat = window_of ft.wan_window_sizes ft.wan_count wan := by
  unfold cur_limit window_of
  split <;> rfl

/-! ## The packets of an address pair -/

/-- The packets between two addresses, with their lengths and interfaces. -/
def packets_of (p : Sym2 UInt32) (s : FlowState) : List (Nat × Int) :=
  (s.sent.filter fun x => addresses x.flow = p).map fun x => (x.pkt_len, x.wan)

theorem packets_of_give (p : Sym2 UInt32) (s : FlowState) (f : FlowKey) (pkt_len : Nat)
    (r : Int × Int × FlowTable) :
    packets_of p (s.give f pkt_len r) =
      packets_of p s ++ if addresses f = p then [(pkt_len, r.1)] else [] := by
  unfold packets_of FlowState.give
  dsimp only
  rw [List.filter_append, List.map_append]
  split
  · rename_i hp
    rw [List.filter_cons_of_pos (by simpa using hp)]
    rfl
  · rename_i hp
    rw [List.filter_cons_of_neg (by simpa using hp)]
    rfl

/-- The calls are lookups with packets of at most `P` bytes, and a gc does not drop the entry of the
pair. -/
def OnlyGetWan (p : Sym2 UInt32) (P : Nat) (s : FlowState) : FlowCall → Prop
  | .get_wan _ _ pkt_len _ => pkt_len ≤ P
  | .gc now => ∀ i, ∀ e ∈ s.ft.buckets i, e.ip_only_key = true →
      s(e.key.src_ip, e.key.dst_ip) = p → flow_expired now e = false
  | _ => False

/-! ## The entry counts -/

section

variable {ws : List UInt32} {n P : Nat}

/-- The counter of an entry. Without a window it may have wrapped. -/
structure EntryCounts (ws : List UInt32) (n : Nat) (e : FlowEntry) (c : Counter Int) : Prop where
  wan : e.current_wan = c.place
  count : 0 < window_of ws n c.place → e.byte_count.toNat = c.count

/-- A touch is one more item, as long as the window leaves room for it in 32 bits. -/
theorem EntryCounts.touch {ft : FlowTable} (hws : ft.wan_window_sizes = ws) (hn : ft.wan_count = n)
    {e : FlowEntry} {c : Counter Int} (h : EntryCounts ws n e c) (now : Nat) {pkt_len : Nat}
    (hroom : 0 < window_of ws n c.place → c.count + pkt_len < 2 ^ 32) :
    EntryCounts ws n (touch_ips ft now pkt_len e) (c.add (window_of ws n) (next_of n) pkt_len) := by
  have hlimit : (cur_limit ft e.current_wan).toNat = window_of ws n c.place := by
    rw [cur_limit_toNat, hws, hn, h.wan]
  have hadd : 0 < window_of ws n c.place →
      (e.byte_count + UInt32.ofNat pkt_len).toNat = c.count + pkt_len := by
    intro hpos
    have hlt := hroom hpos
    rw [UInt32.toNat_add, UInt32.toNat_ofNat', h.count hpos, Nat.add_mod_mod, Nat.mod_eq_of_lt hlt]
  have hfull : (0 < cur_limit ft e.current_wan ∧
      cur_limit ft e.current_wan ≤ e.byte_count + UInt32.ofNat pkt_len) ↔
      (0 < window_of ws n c.place ∧ window_of ws n c.place ≤ c.count + pkt_len) := by
    rw [UInt32.lt_iff_toNat_lt, UInt32.le_iff_toNat_le, hlimit]
    refine and_congr_right fun hpos => ?_
    rw [hadd hpos]
  unfold touch_ips Counter.add
  dsimp only
  by_cases hcond : 0 < window_of ws n c.place ∧ window_of ws n c.place ≤ c.count + pkt_len
  · rw [if_pos (hfull.mpr hcond), if_pos hcond]
    refine ⟨?_, fun _ => rfl⟩
    unfold next_of
    rw [h.wan, hn]
  · rw [if_neg fun hc => hcond (hfull.mp hc), if_neg hcond]
    exact ⟨h.wan, hadd⟩

/-- The table of a run, and the entry of the pair of `f0` in it, which counts its packets. -/
structure CountsPackets (ws : List UInt32) (n P : Nat) (f0 : FlowKey) (s : FlowState) : Prop where
  ok : FlowOk s.ft
  windows : s.ft.wan_window_sizes = ws
  wan_count : s.ft.wan_count = n
  sizes : ∀ x ∈ packets_of (addresses f0) s, x.1 ≤ P
  entry : match flowKeyed.find s.ft.buckets (ips_key f0) with
    | none => packets_of (addresses f0) s = []
    | some e => ∃ c, Counted (window_of ws n) (next_of n) (packets_of (addresses f0) s) c ∧
        EntryCounts ws n e c

/-- Every interface has a window that more than one packet fits into, and 32 bits hold a window and
one packet. -/
def WindowsFit (ws : List UInt32) (n P : Nat) : Prop :=
  ∀ i < n, 0 < (ws.getD i 0).toNat ∧ P < (ws.getD i 0).toNat ∧ (ws.getD i 0).toNat + P < 2 ^ 32

theorem WindowsFit.window {wan : Int} (h : WindowsFit ws n P) (hpos : 0 < window_of ws n wan) :
    (0 ≤ wan ∧ wan < n) ∧ P < window_of ws n wan ∧ window_of ws n wan + P < 2 ^ 32 := by
  unfold window_of at hpos ⊢
  split at hpos
  · rename_i hwan
    rw [if_pos hwan]
    exact ⟨hwan, (h wan.toNat (by omega)).2⟩
  · omega

/-- With two interfaces the next one is another. -/
theorem next_of_ne (hn : 2 ≤ n) {wan : Int} (hwan : 0 ≤ wan ∧ wan < n) : next_of n wan ≠ wan := by
  unfold next_of
  rw [Int.tmod_eq_emod_of_nonneg (by omega)]
  by_cases hlast : wan + 1 = n
  · rw [hlast, Int.emod_self]
    omega
  · rw [Int.emod_eq_of_lt (by omega) (by omega)]
    omega

theorem CountsPackets.room (hn : 2 ≤ n) (hfit : WindowsFit ws n P) {items : List (Nat × Int)}
    {c : Counter Int} (hc : Counted (window_of ws n) (next_of n) items c)
    (hsizes : ∀ x ∈ items, x.1 ≤ P) {pkt_len : Nat} (hlen : pkt_len ≤ P)
    (hpos : 0 < window_of ws n c.place) : c.count + pkt_len < 2 ^ 32 := by
  have hcounts := hc.counts (fun w hw => next_of_ne hn (hfit.window hw).1)
    (fun w hw => (hfit.window hw).2.1) hsizes
  have hsmall := hcounts.small hpos
  have hroom := (hfit.window hpos).2.2
  omega

/-- A packet of another pair changes neither. -/
theorem CountsPackets.other {f0 f : FlowKey} {s : FlowState} (h : CountsPackets ws n P f0 s)
    (hp : addresses f ≠ addresses f0) {pkt_len : Nat} {r : Int × Int × FlowTable}
    (hok : FlowOk r.2.2) (hws : r.2.2.wan_window_sizes = s.ft.wan_window_sizes)
    (hcount : r.2.2.wan_count = s.ft.wan_count)
    (hfind : flowKeyed.find r.2.2.buckets (ips_key f0) = flowKeyed.find s.ft.buckets (ips_key f0)) :
    CountsPackets ws n P f0 (s.give f pkt_len r) := by
  have hpackets : packets_of (addresses f0) (s.give f pkt_len r) = packets_of (addresses f0) s := by
    rw [packets_of_give, if_neg hp, List.append_nil]
  refine ⟨hok, hws.trans h.windows, hcount.trans h.wan_count, ?_, ?_⟩
  · rw [hpackets]
    exact h.sizes
  · rw [hpackets]
    unfold FlowState.give
    rw [hfind]
    exact h.entry

/-- A packet of the pair is one more item of its counter, or the first one. -/
theorem CountsPackets.same {f0 f : FlowKey} {s : FlowState} (h : CountsPackets ws n P f0 s)
    (hp : addresses f = addresses f0) {pkt_len : Nat} (hlen : pkt_len ≤ P)
    {r : Int × Int × FlowTable} (hok : FlowOk r.2.2)
    (hws : r.2.2.wan_window_sizes = s.ft.wan_window_sizes)
    (hcount : r.2.2.wan_count = s.ft.wan_count) {e : FlowEntry} {c : Counter Int}
    (hfind : flowKeyed.find r.2.2.buckets (ips_key f0) = some e)
    (hc : Counted (window_of ws n) (next_of n) (packets_of (addresses f0) s ++ [(pkt_len, r.1)]) c)
    (hentry : EntryCounts ws n e c) : CountsPackets ws n P f0 (s.give f pkt_len r) := by
  have hpackets : packets_of (addresses f0) (s.give f pkt_len r) =
      packets_of (addresses f0) s ++ [(pkt_len, r.1)] := by
    rw [packets_of_give, if_pos hp]
  refine ⟨hok, hws.trans h.windows, hcount.trans h.wan_count, ?_, ?_⟩
  · rw [hpackets, List.forall_mem_append]
    refine ⟨h.sizes, fun x hx => ?_⟩
    rw [List.mem_singleton.mp hx]
    exact hlen
  · rw [hpackets]
    unfold FlowState.give
    rw [hfind]
    exact ⟨c, hc, hentry⟩

theorem CountsPackets.get_wan (hn : 2 ≤ n) (hfit : WindowsFit ws n P) {f0 : FlowKey} {s : FlowState}
    (h : CountsPackets ws n P f0 s) (now : Nat) (f : FlowKey) {pkt_len : Nat} (hlen : pkt_len ≤ P)
    (undef : Int) : CountsPackets ws n P f0 (flow_call s (.get_wan now f pkt_len undef)) := by
  have hok := h.ok.get_wan undef now s.next_wan f pkt_len
  have hentry := h.entry
  dsimp only [flow_call]
  cases hfind : flowKeyed.find s.ft.buckets (ips_key f) with
  | some e =>
    rw [flow_table_get_wan_of_some h.ok.wf hfind] at hok ⊢
    have htouch : ∀ e, flowKeyed.key e = ips_key f →
        flowKeyed.key (touch_ips s.ft now pkt_len e) = ips_key f := fun e he =>
      (congrArg Prod.fst (shape_touch_ips s.ft now pkt_len e)).trans he
    have hfind' := Keyed.find_modify (t := s.ft.buckets) htouch (ips_key f0)
    by_cases hp : addresses f = addresses f0
    · have hkey := ips_key_eq_iff.mpr hp
      rw [if_pos hkey.symm, hfind] at hfind'
      rw [← hkey, hfind] at hentry
      obtain ⟨c, hc, hcounts⟩ := hentry
      have hnext := hcounts.touch h.windows h.wan_count now
        (CountsPackets.room hn hfit hc h.sizes hlen)
      refine h.same hp hlen hok rfl rfl hfind' ?_ hnext
      dsimp only
      rw [hnext.wan]
      exact Counted.add pkt_len hc
    · rw [if_neg fun hk => hp (ips_key_eq_iff.mp hk.symm)] at hfind'
      exact h.other hp hok rfl rfl hfind'
  | none =>
    rw [flow_table_get_wan_of_none hfind] at hok ⊢
    generalize (get_next_wan s.next_wan s.ft.wan_count).1.getD undef = wan at hok ⊢
    have hfind' : flowKeyed.find (flowKeyed.insert (new_ips_entry now wan f pkt_len) s.ft.buckets)
        (ips_key f0) = if ips_key f0 = ips_key f then some (new_ips_entry now wan f pkt_len)
          else flowKeyed.find s.ft.buckets (ips_key f0) := Keyed.find_insert _ _
    by_cases hp : addresses f = addresses f0
    · have hkey := ips_key_eq_iff.mpr hp
      rw [if_pos hkey.symm] at hfind'
      rw [← hkey, hfind] at hentry
      refine h.same hp hlen hok rfl rfl hfind' ?_ (c := ⟨pkt_len, _⟩) ⟨rfl, fun hpos => ?_⟩
      · rw [show packets_of (addresses f0) s = [] from hentry]
        exact Counted.first pkt_len _
      · have hroom := hfit.window hpos
        unfold new_ips_entry
        dsimp only
        rw [UInt32.toNat_ofNat', Nat.mod_eq_of_lt (by omega)]
    · rw [if_neg fun hk => hp (ips_key_eq_iff.mp hk.symm)] at hfind'
      exact h.other hp hok rfl rfl hfind'

/-- A gc that does not drop the entry of the pair leaves it as it is. -/
theorem CountsPackets.gc {f0 : FlowKey} {s : FlowState} (h : CountsPackets ws n P f0 s) {now : Nat}
    (hkeep : OnlyGetWan (addresses f0) P s (.gc now)) :
    CountsPackets ws n P f0 (flow_call s (.gc now)) := by
  have hok := h.ok.gc now
  have hentry := h.entry
  dsimp only [flow_call]
  rw [flow_table_gc_eq h.ok.wf] at hok ⊢
  refine ⟨hok, h.windows, h.wan_count, h.sizes, ?_⟩
  dsimp only
  rw [h.ok.wf.find_retain]
  cases hfind : flowKeyed.find s.ft.buckets (ips_key f0) with
  | none =>
    rw [hfind] at hentry
    exact hentry
  | some e =>
    obtain ⟨hmem, hkey⟩ := Keyed.find_some hfind
    obtain ⟨hip, haddr⟩ := ip_only_of_entry_key hkey
    have hnot : flow_expired now e = false := hkeep _ e hmem hip haddr
    rw [hfind] at hentry
    rw [Option.filter_some, hnot]
    exact hentry

theorem CountsPackets.call (hn : 2 ≤ n) (hfit : WindowsFit ws n P) {f0 : FlowKey} {s : FlowState}
    (h : CountsPackets ws n P f0 s) {c : FlowCall} (hc : OnlyGetWan (addresses f0) P s c) :
    CountsPackets ws n P f0 (flow_call s c) := by
  cases c with
  | get_wan now f pkt_len undef => exact h.get_wan hn hfit now f hc undef
  | get_wan_profile now f pkt_len weighted allowed undef => exact absurd hc id
  | add_bytes f extra_bytes => exact absurd hc id
  | gc now => exact h.gc hc

theorem CountsPackets.counted {f0 : FlowKey} {s : FlowState} (h : CountsPackets ws n P f0 s) :
    packets_of (addresses f0) s = [] ∨
      ∃ c, Counted (window_of ws n) (next_of n) (packets_of (addresses f0) s) c := by
  have hentry := h.entry
  split at hentry
  · exact Or.inl hentry
  · obtain ⟨c, hc, -⟩ := hentry
    exact Or.inr ⟨c, hc⟩

theorem CountsPackets.init (next_wan : Int) (ws : List UInt32) (n P : Nat) (f0 : FlowKey) :
    CountsPackets ws n P f0 (flow_table_init next_wan ws n) := by
  refine ⟨FlowOk.init next_wan ws n, rfl, rfl, fun x hx => ?_, rfl⟩
  simp [packets_of, flow_table_init] at hx

end

/-- In every run of lookups, with any others in between: the interface of an address pair changes to
the next one only, and the packets that one interface got until a change are its window, give or take
one packet. -/
theorem a_wan_gets_its_window_between_two_changes_give_or_take_a_packet {ws : List UInt32}
    {n P : Nat} (hn : 2 ≤ n) (hfit : WindowsFit ws n P) {next_wan : Int} {p : Sym2 UInt32}
    {cs : List FlowCall} {s : FlowState}
    (hrun : Run (Guarded (OnlyGetWan p P) fun s c t => flow_call s c = t)
      (flow_table_init next_wan ws n) cs s) :
    (∀ (front back : List (Nat × Int)) (a b : Nat × Int), packets_of p s = front ++ a :: b :: back →
      b.2 ≠ a.2 → b.2 = (a.2 + 1) % n) ∧
    ∀ (front block back : List (Nat × Int)) (wan : Int) (x : Nat × Int),
      packets_of p s = front ++ block ++ x :: back → block ≠ [] → (∀ y ∈ block, y.2 = wan) →
      (∀ y, front.getLast? = some y → y.2 ≠ wan) → x.2 ≠ wan →
      (0 ≤ wan ∧ wan < n) ∧ (ws.getD wan.toNat 0).toNat ≤ load block + P ∧
        load block < (ws.getD wan.toNat 0).toNat + P := by
  obtain ⟨⟨a, b⟩, hp⟩ := Sym2.mk_surjective p
  change s(a, b) = p at hp
  subst hp
  have hcounts : CountsPackets ws n P ⟨a, b, 0, 0, 0⟩ s := by
    refine hrun.invariant (P := CountsPackets ws n P ⟨a, b, 0, 0, 0⟩) (.init _ _ _ _ _) ?_
    rintro s c t h ⟨hc, rfl⟩
    exact h.call hn hfit hc
  have hcase : packets_of s(a, b) s = [] ∨
      ∃ c, Counted (window_of ws n) (next_of n) (packets_of s(a, b) s) c := hcounts.counted
  rcases hcase with hnil | ⟨c, hc⟩
  · rw [hnil]
    exact ⟨fun front back a b h => by simp at h, fun front block back wan x h => by simp at h⟩
  have hnext : ∀ w, 0 < window_of ws n w → next_of n w ≠ w := fun w hw =>
    next_of_ne hn (hfit.window hw).1
  have hP : ∀ w, 0 < window_of ws n w → P < window_of ws n w := fun w hw => (hfit.window hw).2.1
  refine ⟨fun front back a b hsplit hne => ?_,
    fun front block back wan x hsplit hne hblock hfront hx => ?_⟩
  · obtain ⟨hpos, hb⟩ := hc.next_of_ne hnext hP hcounts.sizes hsplit hne
    have hwan := (hfit.window hpos).1
    rw [hb]
    unfold next_of
    rw [Int.tmod_eq_emod_of_nonneg (by omega)]
  · have hload := hc.load_between_changes hnext hP hcounts.sizes hsplit hne hblock hfront hx
    -- the change at the end of the block tells that the interface is one
    obtain ⟨block', last, rfl⟩ := (List.eq_nil_or_concat' block).resolve_left hne
    have hlast : last.2 = wan := hblock last (List.mem_append_right _ (List.mem_singleton_self _))
    have hsplit' : packets_of s(a, b) s = (front ++ block') ++ last :: x :: back := by
      rw [hsplit]
      simp
    have hchange := hc.next_of_ne hnext hP hcounts.sizes hsplit' (by rw [hlast]; exact hx)
    rw [hlast] at hchange
    have hwan := (hfit.window hchange.1).1
    unfold window_of at hload
    rw [if_pos hwan] at hload
    exact ⟨hwan, hload⟩

/-- 10.0.0.1 to 10.0.1.2, the way back, and an address pair of its own. -/
def toFlow : FlowKey := ⟨0x0100000a, 0x0201000a, 40000, 80, 6⟩
def fromFlow : FlowKey := ⟨0x0201000a, 0x0100000a, 80, 40000, 6⟩
def otherFlow : FlowKey := ⟨0x0300000a, 0x0201000a, 40000, 80, 6⟩

/-- Packets of 60 bytes with the windows 100 and 150. -/
def sixPackets : List FlowCall :=
  [.get_wan 100 toFlow 60 0, .get_wan 100 fromFlow 60 0, .get_wan 101 otherFlow 60 0,
    .get_wan 101 toFlow 60 0, .get_wan 102 fromFlow 60 0, .get_wan 103 toFlow 60 0]

theorem the_second_window_of_150_gets_180_bytes :
    let s := sixPackets.foldl flow_call (flow_table_init 0 [100, 150] 2)
    packets_of (addresses toFlow) s = [(60, 0)] ++ [(60, 1), (60, 1), (60, 1)] ++ [(60, 0)] ∧
    ((0 ≤ (1 : Int) ∧ (1 : Int) < (2 : Nat)) ∧
      (([100, 150] : List UInt32).getD (1 : Int).toNat 0).toNat ≤
        load [(60, (1 : Int)), (60, 1), (60, 1)] + 60 ∧
      load [(60, (1 : Int)), (60, 1), (60, 1)] <
        (([100, 150] : List UInt32).getD (1 : Int).toNat 0).toNat + 60) := by
  intro s
  have hrun : Run (Guarded (OnlyGetWan (addresses toFlow) 60) fun s c t => flow_call s c = t)
      (flow_table_init 0 [100, 150] 2) sixPackets s := by
    refine (Run.of_foldl flow_call sixPackets _).guarded fun c hc s => ?_
    unfold sixPackets at hc
    simp only [List.mem_cons, List.not_mem_nil, or_false] at hc
    rcases hc with rfl | rfl | rfl | rfl | rfl | rfl <;> exact le_refl 60
  have hpackets : packets_of (addresses toFlow) s =
      [(60, 0)] ++ [(60, 1), (60, 1), (60, 1)] ++ [(60, 0)] := by decide +kernel
  refine ⟨hpackets, (a_wan_gets_its_window_between_two_changes_give_or_take_a_packet (le_refl 2)
    (by unfold WindowsFit; decide) hrun).2 _ _ _ _ _ hpackets ?_ ?_ ?_ ?_⟩
  · simp
  · simp
  · simp
  · decide

end ne_ip.window_rotation
