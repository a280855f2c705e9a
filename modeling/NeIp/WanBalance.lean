-- The balancing of several profiles over their WAN interfaces (flow_table.c): each has
-- its own list and weights, and all take their turns from one counter.
import NeIp.RoundRobin
import NeIp.Runs
import NeIp.WanSelect

open ne_ip.config ne_ip.flow_table ne_ip.wan_select runs round_robin

namespace ne_ip.wan_balance

/-- What a caller of `flow_table_pick_wan_per_packet` hands over: the arrays `allowed_wans` and
`allowed_weights`, which is a null pointer when `weighted` is false. -/
structure WanList where
  weighted : Bool
  allowed : List (Nat × Int)

/-- How often each entry has its turn: as often as its weight says, or once without weights. -/
def shares (l : WanList) : List (Nat × Nat) :=
  l.allowed.map fun a =>
    (a.1, if 0 < weights_sum_positive l.weighted l.allowed then a.2.toNat else 1)

/-- The interfaces in the order of their turns. -/
def turn_list (l : WanList) : List Nat := (shares l).flatMap fun a => List.replicate a.2 a.1

/-- The turns of one interface, summed up over its entries. -/
def share_of (l : WanList) (wan : Nat) : Nat :=
  (((shares l).filter fun a => a.1 == wan).map (·.2)).sum

/-- The sum of the positive weights stays clear of the bounds of `int`. The database allows a
weight of 100 and there are at most 16 entries. -/
def WeightsFit (l : WanList) : Prop := (l.allowed.map (·.2.toNat)).sum ≤ 2 ^ 30

/-! ## The turn of one packet -/

/-- The sum of the weights from `s` on. -/
theorem foldl_weights {allowed : List (Nat × Int)} {s : Int} (h0 : 0 ≤ s)
    (h : s + ((allowed.map (·.2.toNat)).sum : Nat) < 2 ^ 31) :
    allowed.foldl (fun s a => if 0 < a.2 then int32 (s + a.2) else s) s =
      s + ((allowed.map (·.2.toNat)).sum : Nat) := by
  induction allowed generalizing s with
  | nil => simp
  | cons a rest ih =>
    rw [List.map_cons, List.sum_cons, Nat.cast_add] at h ⊢
    rw [List.foldl_cons]
    by_cases ha : 0 < a.2
    · rw [if_pos ha, int32_of_lt (by omega) (by omega), ih (by omega) (by omega)]
      omega
    · rw [if_neg ha, ih h0 (by omega)]
      omega

theorem weights_sum_positive_eq {allowed : List (Nat × Int)} (weighted : Bool)
    (h : (allowed.map (·.2.toNat)).sum ≤ 2 ^ 30) :
    weights_sum_positive weighted allowed =
      ((if weighted then (allowed.map (·.2.toNat)).sum else 0 : Nat) : Int) := by
  unfold weights_sum_positive
  split
  · rw [foldl_weights (le_refl 0) (by omega), zero_add]
  · rfl

/-- The loop over the weights looks up a slot in the list of turns. -/
theorem wrr_loop_eq {allowed : List (Nat × Int)} {s acc : Int} (h0 : 0 ≤ acc) (hs : acc ≤ s)
    (h : acc + ((allowed.map (·.2.toNat)).sum : Nat) < 2 ^ 31) :
    wrr_loop s acc allowed =
      (allowed.flatMap fun a => List.replicate a.2.toNat a.1)[(s - acc).toNat]? := by
  induction allowed generalizing acc with
  | nil => rfl
  | cons a rest ih =>
    obtain ⟨wan, w⟩ := a
    rw [List.map_cons, List.sum_cons, Nat.cast_add] at h
    dsimp only at h
    rw [List.flatMap_cons]
    unfold wrr_loop
    split
    · rename_i hw
      rw [ih h0 hs (by omega), show w.toNat = 0 by omega]
      rfl
    · rename_i hw
      dsimp only
      rw [int32_of_lt (by omega) (by omega)]
      split
      · rename_i hlt
        rw [List.getElem?_append_left (by rw [List.length_replicate]; omega),
          List.getElem?_replicate, if_pos (by omega)]
      · rename_i hle
        rw [ih (by omega) (by omega) (by omega), List.getElem?_append_right (by
          rw [List.length_replicate]; omega), List.length_replicate]
        congr 1
        omega

theorem turn_list_of_weights {l : WanList} (h : 0 < weights_sum_positive l.weighted l.allowed) :
    turn_list l = l.allowed.flatMap fun a => List.replicate a.2.toNat a.1 := by
  unfold turn_list shares
  rw [List.flatMap_map]
  simp only [if_pos h]

theorem turn_list_without_weights {l : WanList}
    (h : ¬ 0 < weights_sum_positive l.weighted l.allowed) : turn_list l = l.allowed.map (·.1) := by
  unfold turn_list shares
  rw [List.flatMap_map]
  simp only [if_neg h, List.replicate_one]
  exact List.map_eq_flatMap.symm

theorem length_turn_list_of_weights {l : WanList} (hfit : WeightsFit l)
    (h : 0 < weights_sum_positive l.weighted l.allowed) :
    ((turn_list l).length : Int) = weights_sum_positive l.weighted l.allowed := by
  rw [turn_list_of_weights h, List.length_flatMap]
  simp only [List.length_replicate]
  rw [weights_sum_positive_eq _ hfit] at h ⊢
  split at h
  · rw [if_pos ‹_›]
  · simp at h

/-- The slot of a counter value is the turn that it names. -/
theorem wrr_slot_to_wan_eq {l : WanList} (hfit : WeightsFit l)
    (h : 0 < weights_sum_positive l.weighted l.allowed) (n : Nat) :
    wrr_slot_to_wan (int32 (n % (weights_sum_positive l.weighted l.allowed).toNat)) l.allowed
      (weights_sum_positive l.weighted l.allowed) = turn (turn_list l) 0 n := by
  have hlen := length_turn_list_of_weights hfit h
  have hsum : ((turn_list l).length : Int) = ((l.allowed.map (·.2.toNat)).sum : Nat) := by
    rw [turn_list_of_weights h, List.length_flatMap]
    simp only [List.length_replicate]
  have hfit' : (l.allowed.map (·.2.toNat)).sum ≤ 2 ^ 30 := hfit
  have hslot := Nat.mod_lt n (show 0 < (turn_list l).length by omega)
  rw [← hlen, Int.toNat_natCast]
  unfold wrr_slot_to_wan
  dsimp only
  generalize hs : n % (turn_list l).length = slot at hslot
  have hmod : (int32 ((int32 (slot : Int)).tmod (turn_list l).length + (turn_list l).length)).tmod
      (turn_list l).length = slot := by
    have hs32 : int32 (slot : Int) = slot := int32_of_lt (by omega) (by omega)
    have hs32' : int32 (slot + (turn_list l).length : Int) = slot + (turn_list l).length :=
      int32_of_lt (by omega) (by omega)
    have hsmod : (slot : Int).tmod (turn_list l).length = slot :=
      Int.tmod_eq_of_lt (by omega) (by omega)
    rw [hs32, hsmod, hs32', Int.tmod_eq_emod_of_nonneg (by omega), Int.add_emod_right,
      Int.emod_eq_of_lt (by omega) (by omega)]
  have hcast : ((n : Int) % ((turn_list l).length : Int)) = (slot : Int) := by
    rw [← hs]
    exact (Int.natCast_mod n _).symm
  rw [hcast, hmod, wrr_loop_eq (le_refl 0) (by omega) (by omega), ← turn_list_of_weights h,
    Int.sub_zero, Int.toNat_natCast, List.getElem?_eq_getElem hslot]
  unfold turn
  rw [hs, List.getD_eq_getElem _ _ hslot]
  rfl

/-- A pick is the turn that the counter names, and a caller with more than one interface moves
the counter on. -/
theorem pick_eq_turn {l : WanList} (hl : l.allowed ≠ []) (hfit : WeightsFit l) (seq : Nat) :
    flow_table_pick_wan_per_packet seq l.weighted l.allowed =
      (turn (turn_list l) 0 seq,
        if l.allowed.length = 1 then seq else (seq + 1) % 2 ^ 64) := by
  unfold flow_table_pick_wan_per_packet
  split
  · exact absurd ‹_› hl
  · rename_i a ha
    rw [if_pos (by rw [ha]; rfl)]
    -- a single interface has all the turns
    have hrep : ∃ m, m ≠ 0 ∧ turn_list l = List.replicate m a.1 := by
      by_cases hsum : 0 < weights_sum_positive l.weighted l.allowed
      · have hlen := length_turn_list_of_weights hfit hsum
        rw [turn_list_of_weights hsum, ha, List.flatMap_singleton] at hlen ⊢
        refine ⟨a.2.toNat, ?_, rfl⟩
        rw [List.length_replicate] at hlen
        rw [ha] at hsum
        omega
      · rw [turn_list_without_weights hsum, ha]
        exact ⟨1, by decide, rfl⟩
    obtain ⟨m, hm, heq⟩ := hrep
    rw [heq]
    exact Prod.ext (turn_replicate hm 0 seq).symm rfl
  · rename_i hnil hone
    have hne1 : l.allowed.length ≠ 1 := by
      intro h1
      obtain ⟨a, ha⟩ := List.length_eq_one_iff.mp h1
      exact hone a ha
    rw [if_neg hne1]
    refine Prod.ext ?_ rfl
    dsimp only
    by_cases hsum : 0 < weights_sum_positive l.weighted l.allowed
    · rw [if_pos hsum]
      exact wrr_slot_to_wan_eq hfit hsum seq
    · rw [if_neg hsum]
      unfold turn
      rw [turn_list_without_weights hsum, List.length_map]

/-- The turns of an interface are as many as its entries have shares. -/
theorem count_turn_list (l : WanList) (wan : Nat) : (turn_list l).count wan = share_of l wan := by
  unfold turn_list share_of
  generalize shares l = ss
  induction ss with
  | nil => rfl
  | cons a rest ih =>
    rw [List.flatMap_cons, List.count_append, ih, List.count_replicate, List.filter_cons]
    by_cases h : a.1 = wan
    · simp [h]
    · simp [h]

/-! ## Packets of several profiles -/

section profiles

variable {ι : Type*} [DecidableEq ι]

/-- One packet: its profile, the value of `g_pkt_wrr_seq` that it found, and its interface. -/
structure Pick (ι : Type*) where
  profile : ι
  found : Nat
  wan : Nat
  deriving DecidableEq

/-- The counter that the profiles share, and the packets so far. -/
structure Balancer (ι : Type*) where
  g_pkt_wrr_seq : Nat
  picks : List (Pick ι) := []

/-- A packet of profile `k`. -/
def pick_packet (lists : ι → WanList) (s : Balancer ι) (k : ι) : Balancer ι :=
  let r := flow_table_pick_wan_per_packet s.g_pkt_wrr_seq (lists k).weighted (lists k).allowed
  { g_pkt_wrr_seq := r.2
    picks := s.picks ++ [{ profile := k, found := s.g_pkt_wrr_seq, wan := r.1 }] }

def Balancer.picks_of (s : Balancer ι) (k : ι) : List (Pick ι) := s.picks.filter (·.profile == k)

/-- The interfaces that the packets of a profile got. -/
def Balancer.wans (s : Balancer ι) (k : ι) : List Nat := (s.picks_of k).map (·.wan)

/-- The values that they found. -/
def Balancer.founds (s : Balancer ι) (k : ι) : List Nat := (s.picks_of k).map (·.found)

/-- The counter stands one further than the last packet of the profile found it, modulo the
turns of the profile. A profile with one interface does not ask. -/
def FindsNextTurn (lists : ι → WanList) (s : Balancer ι) (k : ι) : Prop :=
  (lists k).allowed.length = 1 ∨ ∀ n, (s.founds k).getLast? = some n →
    s.g_pkt_wrr_seq % (turn_list (lists k)).length = (n + 1) % (turn_list (lists k)).length

theorem picks_of_pick_packet (lists : ι → WanList) (s : Balancer ι) (j k : ι) :
    (pick_packet lists s j).picks_of k = s.picks_of k ++
      if j = k then
        [⟨j, s.g_pkt_wrr_seq, (flow_table_pick_wan_per_packet s.g_pkt_wrr_seq (lists j).weighted
          (lists j).allowed).1⟩]
      else [] := by
  unfold pick_packet Balancer.picks_of
  dsimp only
  rw [List.filter_append, List.filter_singleton]
  by_cases hj : j = k
  · simp [hj]
  · rw [beq_false_of_ne hj, if_neg hj]
    rfl

/-- What holds of a profile whose packets find their next turns. -/
structure KeepsTurns (l : WanList) (k : ι) (es : List ι) (s : Balancer ι) : Prop where
  count : (s.picks_of k).length = es.count k
  wan_eq : s.wans k = (s.founds k).map (turn (turn_list l) 0)
  in_turn : l.allowed.length = 1 ∨ ∃ s0, InTurn (turn_list l).length s0 (s.founds k)

theorem KeepsTurns.step {lists : ι → WanList} {k : ι} (hl : (lists k).allowed ≠ [])
    (hfit : WeightsFit (lists k)) {es : List ι} {s : Balancer ι} (h : KeepsTurns (lists k) k es s)
    {j : ι} (hgood : j = k → FindsNextTurn lists s k) :
    KeepsTurns (lists k) k (es ++ [j]) (pick_packet lists s j) := by
  have hpicks := picks_of_pick_packet lists s j k
  by_cases hj : j = k
  · subst hj
    rw [if_pos rfl, pick_eq_turn hl hfit] at hpicks
    have hfound : (pick_packet lists s j).founds j = s.founds j ++ [s.g_pkt_wrr_seq] := by
      unfold Balancer.founds
      rw [hpicks, List.map_append]
      rfl
    refine ⟨?_, ?_, ?_⟩
    · rw [hpicks, List.length_append, h.count, List.count_append, List.count_singleton_self]
      rfl
    · rw [hfound, List.map_append, ← h.wan_eq]
      unfold Balancer.wans
      rw [hpicks, List.map_append]
      rfl
    · rw [hfound]
      rcases hgood rfl with h1 | hnext
      · exact Or.inl h1
      rcases h.in_turn with h1 | ⟨s0, hin⟩
      · exact Or.inl h1
      refine Or.inr ?_
      -- its first packet starts the row
      cases hlast : (s.founds j).getLast? with
      | none =>
        rw [List.getLast?_eq_none_iff] at hlast
        rw [hlast]
        exact ⟨s.g_pkt_wrr_seq, (InTurn.nil _ _).snoc (by rw [List.length_nil, Nat.add_zero])⟩
      | some n => exact ⟨s0, hin.snoc ((hnext n hlast).trans (hin.next hlast))⟩
  · rw [if_neg hj, List.append_nil] at hpicks
    have hfound : (pick_packet lists s j).founds k = s.founds k := by
      unfold Balancer.founds
      rw [hpicks]
    have hwans : (pick_packet lists s j).wans k = s.wans k := by
      unfold Balancer.wans
      rw [hpicks]
    refine ⟨?_, ?_, ?_⟩
    · rw [hpicks, h.count, List.count_append, List.count_singleton, if_neg (by simpa using hj)]
      rfl
    · rw [hwans, hfound, h.wan_eq]
    · rw [hfound]
      exact h.in_turn

/-- The interfaces of such a profile are a row of its turns. -/
theorem KeepsTurns.wans_eq {l : WanList} (hl : l.allowed ≠ []) (hfit : WeightsFit l) {k : ι}
    {es : List ι} {s : Balancer ι} (h : KeepsTurns l k es s) :
    ∃ s0, s.wans k = turns (turn_list l) 0 s0 (es.count k) := by
  have hlen : (s.founds k).length = es.count k := by
    unfold Balancer.founds
    rw [List.length_map, h.count]
  rcases h.in_turn with h1 | ⟨s0, hin⟩
  · obtain ⟨a, ha⟩ := List.length_eq_one_iff.mp h1
    -- every turn is that of the one interface
    have hturn : ∀ n, turn (turn_list l) 0 n = a.1 := by
      intro n
      have hpick := pick_eq_turn hl hfit n
      rw [ha] at hpick
      exact (congrArg Prod.fst hpick).symm
    refine ⟨0, ?_⟩
    rw [h.wan_eq, ← hlen]
    apply List.ext_getElem
    · rw [List.length_map, length_turns]
    intro i _ _
    rw [List.getElem_map, getElem_turns, hturn, hturn]
  · exact ⟨s0, by rw [h.wan_eq, map_turn_of_inTurn 0 hin, hlen]⟩

/-- However the packets of other profiles come in between: as long as each packet of a profile
finds the counter at the profile's next turn, its interfaces depend on the number of its packets
only, and in any full round each one is used as often as its weight says. -/
theorem a_profile_whose_packets_find_their_next_turn_is_balanced {lists : ι → WanList} {k : ι}
    (hl : (lists k).allowed ≠ []) (hfit : WeightsFit (lists k)) {n0 : Nat} {es : List ι}
    {s : Balancer ι}
    (hrun : Run (Guarded (fun s j => j = k → FindsNextTurn lists s k)
      fun s j t => pick_packet lists s j = t) { g_pkt_wrr_seq := n0 } es s) :
    ∃ s0, s.wans k = turns (turn_list (lists k)) 0 s0 (es.count k) ∧
      ∀ i, i + (turn_list (lists k)).length ≤ es.count k → ∀ wan,
        (((s.wans k).drop i).take (turn_list (lists k)).length).count wan =
          share_of (lists k) wan := by
  have hkeeps : KeepsTurns (lists k) k es s := by
    refine hrun.history (P := KeepsTurns (lists k) k) ⟨rfl, rfl, Or.inr ⟨0, InTurn.nil _ _⟩⟩ ?_
    rintro es t j u ht ⟨hgood, rfl⟩
    exact ht.step hl hfit hgood
  obtain ⟨s0, hs0⟩ := hkeeps.wans_eq hl hfit
  refine ⟨s0, hs0, fun i hi wan => ?_⟩
  rw [hs0, count_turns _ _ _ hi, count_turn_list]

end profiles

/-- Two profiles with two interfaces each: the first with the weights 2 and 1, the second with
equal ones. -/
def twoLists (second : Bool) : WanList :=
  if second then { weighted := true, allowed := [(2, 1), (3, 1)] }
  else { weighted := true, allowed := [(0, 2), (1, 1)] }

theorem three_packets_of_the_other_profile_do_no_harm :
    ∃ s : Balancer Bool,
      Run (Guarded (fun s j => j = false → FindsNextTurn twoLists s false)
        fun s j t => pick_packet twoLists s j = t) { g_pkt_wrr_seq := 0 }
        [false, true, true, true, false, false] s ∧
      ∃ s0, s.wans false = turns (turn_list (twoLists false)) 0 s0 3 ∧
        ∀ i, i + 3 ≤ 3 → ∀ wan, (((s.wans false).drop i).take 3).count wan =
          share_of (twoLists false) wan := by
  have hrun : Run (Guarded (fun s j => j = false → FindsNextTurn twoLists s false)
      fun s j t => pick_packet twoLists s j = t) { g_pkt_wrr_seq := 0 }
      [false, true, true, true, false, false]
      ([false, true, true, true, false, false].foldl (pick_packet twoLists) { g_pkt_wrr_seq := 0 }) := by
    refine Run.snoc (Run.snoc (Run.snoc (Run.snoc (Run.snoc (Run.single ⟨?_, rfl⟩) ⟨?_, rfl⟩)
      ⟨?_, rfl⟩) ⟨?_, rfl⟩) ⟨?_, rfl⟩) ⟨?_, rfl⟩ <;> unfold FindsNextTurn <;> decide +kernel
  exact ⟨_, hrun, a_profile_whose_packets_find_their_next_turn_is_balanced (by decide) (by
    unfold WeightsFit
    decide) hrun⟩

/-- One packet of the other profile after each of its own, and a profile with equal weights uses
one interface only. -/
theorem alternating_packets_use_one_wan_only :
    ∃ s t : Balancer Bool,
      Run (fun s j t => pick_packet twoLists s j = t) { g_pkt_wrr_seq := 0 }
        [true, false, true, false, true, false, true] s ∧
      Run (fun s j t => pick_packet twoLists s j = t) { g_pkt_wrr_seq := 0 }
        [true, true, true, true] t ∧
      s.wans true = [2, 2, 2, 2] ∧ t.wans true = [2, 3, 2, 3] ∧
      (turn_list (twoLists true)).length = 2 ∧ share_of (twoLists true) 2 = 1 ∧
      share_of (twoLists true) 3 = 1 :=
  ⟨[true, false, true, false, true, false, true].foldl (pick_packet twoLists) { g_pkt_wrr_seq := 0 },
    [true, true, true, true].foldl (pick_packet twoLists) { g_pkt_wrr_seq := 0 },
    Run.of_foldl _ _ _, Run.of_foldl _ _ _, by decide +kernel, by decide +kernel, by decide +kernel,
    by decide +kernel, by decide +kernel⟩

/-! ## One caller alone -/

/-- `k` calls in a row of the one caller, with weights: the interfaces, and the counter after
them. -/
def pick_calls (allowed : List (Nat × Int)) : (k : Nat) → (g_pkt_wrr_seq : Nat) → List Nat × Nat
  | 0, seq => ([], seq)
  | k + 1, seq =>
    let r := flow_table_pick_wan_per_packet seq true allowed
    let rest := pick_calls allowed k r.2
    (r.1 :: rest.1, rest.2)

/-- The positive part of the weights, summed up. -/
def positive_weights (allowed : List (Nat × Int)) : Nat := (allowed.map (·.2.toNat)).sum

/-- No `int` of a call overflows: the largest one is `slot % sumw + sumw` for the last slot. -/
def NoIntOverflow (allowed : List (Nat × Int)) : Prop :=
  positive_weights allowed - 1 + positive_weights allowed < 2 ^ 31

/-- The list with the numbers of its positions in the place of its interfaces. -/
def numbered (j : Nat) : List (Nat × Int) → List (Nat × Int)
  | [] => []
  | a :: rest => (j, a.2) :: numbered (j + 1) rest

theorem le_of_mem_numbered {allowed : List (Nat × Int)} {j : Nat} {b : Nat × Int}
    (h : b ∈ numbered j allowed) : j ≤ b.1 := by
  induction allowed generalizing j with
  | nil => simp [numbered] at h
  | cons a rest ih =>
    rcases List.mem_cons.mp h with rfl | hmem
    · exact le_refl _
    · exact (Nat.le_succ j).trans (ih hmem)

theorem map_snd_numbered (j : Nat) (allowed : List (Nat × Int)) :
    (numbered j allowed).map (·.2) = allowed.map (·.2) := by
  induction allowed generalizing j with
  | nil => rfl
  | cons a rest ih => rw [numbered, List.map_cons, List.map_cons, ih]

theorem positive_weights_numbered (j : Nat) (allowed : List (Nat × Int)) :
    positive_weights (numbered j allowed) = positive_weights allowed := by
  have h := congrArg (List.map Int.toNat) (map_snd_numbered j allowed)
  rw [List.map_map, List.map_map] at h
  exact congrArg List.sum h

theorem length_numbered (j : Nat) (allowed : List (Nat × Int)) :
    (numbered j allowed).length = allowed.length := by
  have h := congrArg List.length (map_snd_numbered j allowed)
  rw [List.length_map, List.length_map] at h
  exact h

/-- The turns of the list, with its weights as they are. -/
def weight_turns (allowed : List (Nat × Int)) : List Nat :=
  allowed.flatMap fun a => List.replicate a.2.toNat a.1

theorem length_weight_turns (allowed : List (Nat × Int)) :
    (weight_turns allowed).length = positive_weights allowed := by
  unfold weight_turns positive_weights
  rw [List.length_flatMap]
  simp only [List.length_replicate]

/-- The turns are the interfaces at the numbered turns. -/
theorem weight_turns_eq_map (allowed : List (Nat × Int)) {j : Nat} {g : Nat → Nat}
    (hg : ∀ i a, allowed[i]? = some a → g (j + i) = a.1) :
    weight_turns allowed = (weight_turns (numbered j allowed)).map g := by
  induction allowed generalizing j with
  | nil => rfl
  | cons a rest ih =>
    have hrest := ih (j := j + 1) fun i b hb => by
      rw [← hg (i + 1) b hb]
      congr 1
      omega
    have ha := hg 0 a rfl
    rw [Nat.add_zero] at ha
    unfold weight_turns at hrest ⊢
    rw [numbered, List.flatMap_cons, List.flatMap_cons, List.map_append, List.map_replicate, ha,
      hrest]

/-- A position has as many turns as its weight says. -/
theorem count_weight_turns_numbered (allowed : List (Nat × Int)) (j i : Nat) :
    (weight_turns (numbered j allowed)).count (j + i) =
      ((allowed[i]?).map (·.2.toNat)).getD 0 := by
  induction allowed generalizing j i with
  | nil => rfl
  | cons a rest ih =>
    unfold weight_turns at ih ⊢
    rw [numbered, List.flatMap_cons, List.count_append, List.count_replicate]
    cases i with
    | zero =>
      -- the later positions have other numbers
      have hrest : (weight_turns (numbered (j + 1) rest)).count j = 0 := by
        rw [List.count_eq_zero]
        intro hmem
        obtain ⟨b, hb, hj⟩ := List.mem_flatMap.mp hmem
        have hge := le_of_mem_numbered hb
        have heq := List.eq_of_mem_replicate hj
        omega
      unfold weight_turns at hrest
      rw [Nat.add_zero, hrest]
      simp
    | succ i =>
      rw [show j + (i + 1) = j + 1 + i by omega, ih, if_neg (by simp; omega), Nat.zero_add]
      rfl

/-- Calls in a row take turns in a row. -/
theorem pick_calls_eq {allowed : List (Nat × Int)} (hpos : 0 < positive_weights allowed)
    (hlen : 2 ≤ allowed.length) (hfit : positive_weights allowed ≤ 2 ^ 30) {k n : Nat}
    (hn : n + k ≤ 2 ^ 64) : (pick_calls allowed k n).1 = turns (weight_turns allowed) 0 n k := by
  have hsum : weights_sum_positive true allowed = (positive_weights allowed : Nat) :=
    weights_sum_positive_eq true hfit
  have hturns : turn_list ⟨true, allowed⟩ = weight_turns allowed :=
    turn_list_of_weights (l := ⟨true, allowed⟩) (by rw [hsum]; omega)
  induction k generalizing n with
  | zero => rfl
  | succ k ih =>
    have hpick := pick_eq_turn (l := ⟨true, allowed⟩)
      (List.ne_nil_of_length_pos (show 0 < allowed.length by omega)) hfit n
    rw [hturns, if_neg (show allowed.length ≠ 1 by omega)] at hpick
    unfold pick_calls
    dsimp only at hpick ⊢
    rw [hpick, turns_succ]
    cases k with
    | zero => rfl
    | succ k => rw [Nat.mod_eq_of_lt (by omega), ih (by omega)]

/-- From any counter value on that leaves room for the calls: as many calls in a row as the weights
sum up to choose each position exactly as often as its weight says, and one without a positive weight
never. The calls do not look at the interfaces, so those on the numbered list show the positions. -/
theorem calls_in_a_row_choose_each_position_as_often_as_its_weight_says
    {allowed : List (Nat × Int)} (hlen : 2 ≤ allowed.length) (hpos : 0 < positive_weights allowed)
    (hint : NoIntOverflow allowed) {n : Nat}
    (hn : n + positive_weights allowed ≤ 2 ^ 64) :
    (pick_calls allowed (positive_weights allowed) n).1 =
      (pick_calls (numbered 0 allowed) (positive_weights allowed) n).1.map
        (fun i => ((allowed[i]?).map (·.1)).getD 0) ∧
    ∀ i a, allowed[i]? = some a →
      (pick_calls (numbered 0 allowed) (positive_weights allowed) n).1.count i = a.2.toNat := by
  have hfit : positive_weights allowed ≤ 2 ^ 30 := by
    unfold NoIntOverflow at hint
    omega
  have hnum : (pick_calls (numbered 0 allowed) (positive_weights allowed) n).1 =
      turns (weight_turns (numbered 0 allowed)) 0 n (positive_weights allowed) :=
    pick_calls_eq (by rw [positive_weights_numbered]; exact hpos)
      (by rw [length_numbered]; exact hlen) (by rw [positive_weights_numbered]; exact hfit) hn
  have hne : weight_turns (numbered 0 allowed) ≠ [] := by
    refine List.ne_nil_of_length_pos ?_
    rw [length_weight_turns, positive_weights_numbered]
    exact hpos
  refine ⟨?_, fun i a ha => ?_⟩
  · rw [hnum, pick_calls_eq hpos hlen hfit hn, ← turns_map hne _ 0 0]
    rw [← weight_turns_eq_map allowed fun i a ha => by rw [Nat.zero_add, ha]; rfl]
  · have hcount := count_turns (weight_turns (numbered 0 allowed)) 0 n
      (k := positive_weights allowed) (i := 0)
      (by rw [length_weight_turns, positive_weights_numbered, Nat.zero_add]) i
    rw [length_weight_turns, positive_weights_numbered, List.drop_zero,
      List.take_of_length_le (by rw [length_turns])] at hcount
    have hweight := count_weight_turns_numbered allowed 0 i
    rw [Nat.zero_add, ha] at hweight
    rw [hnum, hcount, hweight]
    rfl

/-- Four calls that end at the last value of the counter. -/
theorem four_calls_choose_three_times_and_once :
    (pick_calls [(5, 3), (6, 0), (5, 1), (7, -2)] 4 (2 ^ 64 - 4)).1 =
      (pick_calls (numbered 0 [(5, 3), (6, 0), (5, 1), (7, -2)]) 4 (2 ^ 64 - 4)).1.map
        (fun i => (([(5, 3), (6, 0), (5, 1), (7, -2)] : List (Nat × Int))[i]?.map (·.1)).getD 0) ∧
    ∀ i a, ([(5, 3), (6, 0), (5, 1), (7, -2)] : List (Nat × Int))[i]? = some a →
      (pick_calls (numbered 0 [(5, 3), (6, 0), (5, 1), (7, -2)]) 4 (2 ^ 64 - 4)).1.count i =
        a.2.toNat :=
  calls_in_a_row_choose_each_position_as_often_as_its_weight_says (by decide) (by decide)
    (by unfold NoIntOverflow; decide) (by decide)

end ne_ip.wan_balance
