-- Turns around a list: which element has turn `n`, and how often each one comes
-- up in a row of turns.
import Mathlib.Data.List.GetD
import Mathlib.Data.List.Rotate

namespace round_robin

variable {α : Type*}

/-- The element that has turn `n`; `d` stands for it when the list is empty. -/
def turn (l : List α) (d : α) (n : Nat) : α := l.getD (n % l.length) d

/-- `k` turns in a row from turn `s` on. -/
def turns (l : List α) (d : α) (s k : Nat) : List α := (List.range k).map fun i => turn l d (s + i)

theorem turn_congr {l : List α} (d : α) {m n : Nat} (h : m % l.length = n % l.length) :
    turn l d m = turn l d n := by
  unfold turn
  rw [h]

@[simp] theorem length_turns (l : List α) (d : α) (s k : Nat) : (turns l d s k).length = k := by
  unfold turns
  rw [List.length_map, List.length_range]

theorem getElem_turns {l : List α} {d : α} {s k i : Nat} (h : i < (turns l d s k).length) :
    (turns l d s k)[i] = turn l d (s + i) := by
  simp only [turns, List.getElem_map, List.getElem_range]

theorem turns_succ (l : List α) (d : α) (s k : Nat) :
    turns l d s (k + 1) = turn l d s :: turns l d (s + 1) k := by
  unfold turns
  rw [List.range_succ_eq_map, List.map_cons, List.map_map, Nat.add_zero]
  congr 1
  refine List.map_congr_left fun i _ => ?_
  rw [Function.comp_apply, Nat.succ_eq_add_one, Nat.add_assoc, Nat.add_comm 1 i]

/-- Turns around renamed elements are the renamed turns. -/
theorem turns_map {β : Type*} {l : List α} (hl : l ≠ []) (f : α → β) (d : α) (d' : β) (s k : Nat) :
    turns (l.map f) d' s k = (turns l d s k).map f := by
  apply List.ext_getElem
  · rw [List.length_map, length_turns, length_turns]
  intro i h1 h2
  rw [List.getElem_map, getElem_turns, getElem_turns]
  unfold turn
  have hlt := Nat.mod_lt (s + i) (List.length_pos_iff.mpr hl)
  rw [List.length_map, List.getD_eq_getElem _ _ hlt, List.getD_eq_getElem _ _ (by
    rw [List.length_map]
    exact hlt), List.getElem_map]

/-- A part of a row is a row. -/
theorem take_drop_turns (l : List α) (d : α) (s : Nat) {k i n : Nat} (h : i + n ≤ k) :
    ((turns l d s k).drop i).take n = turns l d (s + i) n := by
  apply List.ext_getElem
  · rw [List.length_take, List.length_drop, length_turns, length_turns]
    omega
  intro j h1 h2
  rw [List.getElem_take, List.getElem_drop, getElem_turns, getElem_turns, Nat.add_assoc]

/-- Once around is the list from some element on. -/
theorem turns_length (l : List α) (d : α) (s : Nat) : turns l d s l.length = l.rotate s := by
  apply List.ext_getElem
  · rw [length_turns, List.length_rotate]
  intro j h1 h2
  rw [length_turns] at h1
  rw [getElem_turns, List.getElem_rotate]
  unfold turn
  rw [List.getD_eq_getElem _ _ (Nat.mod_lt _ (by omega))]
  simp only [Nat.add_comm s j]

/-- Once around every element comes up as often as it is in the list. -/
theorem count_turns [DecidableEq α] (l : List α) (d : α) (s : Nat) {k i : Nat}
    (h : i + l.length ≤ k) (a : α) :
    (((turns l d s k).drop i).take l.length).count a = l.count a := by
  rw [take_drop_turns l d s h, turns_length]
  exact (List.rotate_perm l _).count_eq a

/-! ## Counters that stay in turn -/

/-- The numbers `ns` are, modulo `w`, those from `s` on. -/
def InTurn (w s : Nat) (ns : List Nat) : Prop :=
  ∀ i n, ns[i]? = some n → n % w = (s + i) % w

theorem InTurn.nil (w s : Nat) : InTurn w s [] := by
  intro i n h
  simp at h

/-- One more number goes on from the last one. -/
theorem InTurn.snoc {w s : Nat} {ns : List Nat} (h : InTurn w s ns) {n : Nat}
    (hn : n % w = (s + ns.length) % w) : InTurn w s (ns ++ [n]) := by
  intro i m hm
  rcases Nat.lt_trichotomy i ns.length with hi | hi | hi
  · rw [List.getElem?_append_left hi] at hm
    exact h i m hm
  · subst hi
    rw [List.getElem?_concat_length] at hm
    rw [← Option.some.inj hm, hn]
  · rw [List.getElem?_eq_none (by simp; omega)] at hm
    simp at hm

/-- The number after the last one. -/
theorem InTurn.next {w s : Nat} {ns : List Nat} (h : InTurn w s ns) {n : Nat}
    (hlast : ns.getLast? = some n) : (n + 1) % w = (s + ns.length) % w := by
  rw [List.getLast?_eq_getElem?] at hlast
  have hpos : 0 < ns.length := by
    have := (List.getElem?_eq_some_iff.mp hlast).1
    omega
  have hmod := h _ _ hlast
  rw [Nat.add_mod, hmod, ← Nat.add_mod]
  congr 1
  omega

/-- Numbers in turn give a row of turns. -/
theorem map_turn_of_inTurn {l : List α} (d : α) {s : Nat} {ns : List Nat}
    (h : InTurn l.length s ns) : ns.map (turn l d) = turns l d s ns.length := by
  apply List.ext_getElem
  · rw [List.length_map, length_turns]
  intro i h1 h2
  rw [List.length_map] at h1
  rw [List.getElem_map, getElem_turns]
  exact turn_congr d (h i _ (List.getElem?_eq_getElem h1))

/-- A single element has every turn. -/
theorem turn_replicate {a : α} {m : Nat} (hm : m ≠ 0) (d : α) (n : Nat) :
    turn (List.replicate m a) d n = a := by
  unfold turn
  have hlt : n % (List.replicate m a).length < (List.replicate m a).length := by
    rw [List.length_replicate]
    exact Nat.mod_lt _ (by omega)
  rw [List.getD_eq_getElem _ _ hlt, List.getElem_replicate]

end round_robin
