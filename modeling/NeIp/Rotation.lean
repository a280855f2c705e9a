-- A counter that goes on to the next place when it has filled the window of its place: how much
-- goes to one place between two changes.
import Mathlib.Algebra.Ring.Nat
import Mathlib.Algebra.BigOperators.Group.List.Basic

namespace rotation

variable {ω : Type*}

/-- The place, and what was counted for it. -/
structure Counter (ω : Type*) where
  count : Nat
  place : ω

/-- One more item. The one that fills the window goes to the next place and is not counted there; a
window of 0 is never full. -/
def Counter.add (window : ω → Nat) (next : ω → ω) (c : Counter ω) (size : Nat) : Counter ω :=
  if 0 < window c.place ∧ window c.place ≤ c.count + size then ⟨0, next c.place⟩
  else ⟨c.count + size, c.place⟩

/-- The items so far, each with its size and the place that it went to, and the counter after
them. -/
inductive Counted (window : ω → Nat) (next : ω → ω) : List (Nat × ω) → Counter ω → Prop
  | first (size : Nat) (w : ω) : Counted window next [(size, w)] ⟨size, w⟩
  | add {items : List (Nat × ω)} {c : Counter ω} (size : Nat) : Counted window next items c →
      Counted window next (items ++ [(size, (c.add window next size).place)])
        (c.add window next size)

def load (items : List (Nat × ω)) : Nat := (items.map (·.1)).sum

theorem load_reverse (items : List (Nat × ω)) : load items.reverse = load items := by
  unfold load
  rw [List.map_reverse, List.sum_reverse]

variable [DecidableEq ω]

/-- The last items that went to `w`, newest first. -/
def stay (items : List (Nat × ω)) (w : ω) : List (Nat × ω) :=
  items.reverse.takeWhile fun x => x.2 = w

theorem stay_concat (items : List (Nat × ω)) (x : Nat × ω) (w : ω) :
    stay (items ++ [x]) w = if x.2 = w then x :: stay items w else [] := by
  unfold stay
  rw [List.reverse_append, List.reverse_singleton, List.singleton_append, List.takeWhile_cons]
  simp only [decide_eq_true_eq]

/-- A block of items at one place behind one at another is the stay there. -/
theorem stay_append {front block : List (Nat × ω)} {w : ω} (hblock : ∀ y ∈ block, y.2 = w)
    (hfront : ∀ y, front.getLast? = some y → y.2 ≠ w) :
    stay (front ++ block) w = block.reverse := by
  have hnone : front.reverse.takeWhile (fun x => decide (x.2 = w)) = [] := by
    rw [← List.head?_reverse] at hfront
    cases hrev : front.reverse with
    | nil => rfl
    | cons y rest =>
      rw [hrev] at hfront
      exact List.takeWhile_cons_of_neg (by simpa using hfront y rfl)
  unfold stay
  rw [List.reverse_append, List.takeWhile_append_of_pos, hnone, List.append_nil]
  intro y hy
  exact decide_eq_true (hblock y (List.mem_reverse.mp hy))

section

variable {window : ω → Nat} {next : ω → ω} {P : Nat}

/-- What holds between the counter and the items: it has counted the stay at its place, but for the
item that the stay began with. -/
structure Counts (window : ω → Nat) (P : Nat) (items : List (Nat × ω)) (c : Counter ω) : Prop where
  last : ∃ size, items.getLast? = some (size, c.place)
  lower : c.count ≤ load (stay items c.place)
  upper : load (stay items c.place) ≤ c.count + P
  small : 0 < window c.place → c.count < window c.place

theorem Counts.add {items : List (Nat × ω)} {c : Counter ω} (h : Counts window P items c)
    (hnext : ∀ w, 0 < window w → next w ≠ w) {size : Nat} (hsize : size ≤ P) :
    Counts window P (items ++ [(size, (c.add window next size).place)])
      (c.add window next size) := by
  unfold Counter.add
  split
  · rename_i hfull
    obtain ⟨last, hlast⟩ := h.last
    have hmove := hnext c.place hfull.1
    -- the stay at the next place begins with this item
    have hstay : stay items (next c.place) = [] := by
      unfold stay
      rw [← List.head?_reverse] at hlast
      cases hrev : items.reverse with
      | nil => rfl
      | cons y rest =>
        rw [hrev] at hlast
        obtain rfl := Option.some.inj hlast
        exact List.takeWhile_cons_of_neg (by simpa using Ne.symm hmove)
    refine ⟨⟨size, by rw [List.getLast?_concat]⟩, Nat.zero_le _, ?_, fun hpos => hpos⟩
    rw [stay_concat, if_pos rfl, hstay]
    unfold load
    simpa using hsize
  · rename_i hfull
    refine ⟨⟨size, by rw [List.getLast?_concat]⟩, ?_, ?_, fun hpos => ?_⟩
    · dsimp only
      rw [stay_concat, if_pos rfl]
      have hlower := h.lower
      unfold load at hlower ⊢
      rw [List.map_cons, List.sum_cons]
      omega
    · dsimp only
      rw [stay_concat, if_pos rfl]
      have hupper := h.upper
      unfold load at hupper ⊢
      rw [List.map_cons, List.sum_cons]
      omega
    · dsimp only at hpos ⊢
      omega

theorem Counted.counts {items : List (Nat × ω)} {c : Counter ω} (h : Counted window next items c)
    (hnext : ∀ w, 0 < window w → next w ≠ w) (hP : ∀ w, 0 < window w → P < window w)
    (hsizes : ∀ x ∈ items, x.1 ≤ P) : Counts window P items c := by
  induction h with
  | first size w =>
    have hsize : size ≤ P := hsizes _ List.mem_cons_self
    have hstay : stay [(size, w)] w = [(size, w)] := by simp [stay]
    refine ⟨⟨size, rfl⟩, ?_, ?_, fun hpos => Nat.lt_of_le_of_lt hsize (hP w hpos)⟩
    · rw [hstay]
      simp [load]
    · rw [hstay]
      simp [load]
  | add size _ ih =>
    rw [List.forall_mem_append] at hsizes
    exact (ih hsizes.1).add hnext (hsizes.2 _ List.mem_cons_self)

/-- A change goes to the next place. -/
theorem Counted.next_of_ne {items : List (Nat × ω)} {c : Counter ω}
    (h : Counted window next items c)
    (hnext : ∀ w, 0 < window w → next w ≠ w) (hP : ∀ w, 0 < window w → P < window w)
    (hsizes : ∀ x ∈ items, x.1 ≤ P) {front back : List (Nat × ω)} {a b : Nat × ω}
    (hitems : items = front ++ a :: b :: back) (hne : b.2 ≠ a.2) :
    0 < window a.2 ∧ b.2 = next a.2 := by
  induction h generalizing back with
  | first size w =>
    have hlen := congrArg List.length hitems
    simp only [List.length_nil, List.length_append, List.length_cons] at hlen
    omega
  | @add items c size hc ih =>
    rw [List.forall_mem_append] at hsizes
    rcases List.eq_nil_or_concat' back with rfl | ⟨back', x, rfl⟩
    · -- the change is at the last item
      have hsplit : front ++ [a, b] = (front ++ [a]) ++ [b] := by simp
      rw [hsplit] at hitems
      obtain ⟨hfront, hb⟩ := List.append_inj' hitems rfl
      obtain ⟨last, hlast⟩ := (hc.counts hnext hP hsizes.1).last
      rw [hfront, List.getLast?_concat] at hlast
      have ha := congrArg Prod.snd (Option.some.inj hlast)
      have hb' := congrArg Prod.snd (List.singleton_inj.mp hb)
      dsimp only at ha hb'
      rw [← hb', ha] at hne ⊢
      unfold Counter.add at hne ⊢
      split at hne
      · rename_i hfull
        rw [if_pos hfull]
        exact ⟨hfull.1, rfl⟩
      · exact absurd rfl hne
    · have hsplit : front ++ a :: b :: (back' ++ [x]) = (front ++ a :: b :: back') ++ [x] := by simp
      rw [hsplit] at hitems
      exact ih hsizes.1 (List.append_inj' hitems rfl).1

/-- What goes to one place from one change to the next is the window, give or take one item. -/
theorem Counted.load_between_changes {items : List (Nat × ω)} {c : Counter ω}
    (h : Counted window next items c) (hnext : ∀ w, 0 < window w → next w ≠ w)
    (hP : ∀ w, 0 < window w → P < window w) (hsizes : ∀ x ∈ items, x.1 ≤ P)
    {front block back : List (Nat × ω)} {w : ω} {x : Nat × ω}
    (hitems : items = front ++ block ++ x :: back) (hne : block ≠ [])
    (hblock : ∀ y ∈ block, y.2 = w)
    (hfront : ∀ y, front.getLast? = some y → y.2 ≠ w) (hx : x.2 ≠ w) :
    window w ≤ load block + P ∧ load block < window w + P := by
  induction h generalizing back with
  | first size w' =>
    have hlen := congrArg List.length hitems
    have hpos := List.length_pos_iff.mpr hne
    simp only [List.length_nil, List.length_append, List.length_cons] at hlen
    omega
  | @add items c size hc ih =>
    rw [List.forall_mem_append] at hsizes
    rcases List.eq_nil_or_concat' back with rfl | ⟨back', x', rfl⟩
    · obtain ⟨hitems', hx'⟩ := List.append_inj' hitems rfl
      have hcounts := hc.counts hnext hP hsizes.1
      -- the block is the stay at the place of the counter
      have hplace : c.place = w := by
        obtain ⟨last, hlast⟩ := hcounts.last
        rw [hitems', List.getLast?_append_of_ne_nil _ hne] at hlast
        exact hblock _ (List.mem_of_getLast? hlast)
      have hload : load (stay items c.place) = load block := by
        rw [hplace, hitems', stay_append hblock hfront, load_reverse]
      have hfull : 0 < window c.place ∧ window c.place ≤ c.count + size := by
        by_contra hfull
        rw [← hplace, ← List.singleton_inj.mp hx'] at hx
        unfold Counter.add at hx
        rw [if_neg hfull] at hx
        exact hx rfl
      have hsize : size ≤ P := hsizes.2 _ List.mem_cons_self
      have hlower := hcounts.lower
      have hupper := hcounts.upper
      have hsmall := hcounts.small hfull.1
      rw [hload] at hlower hupper
      rw [hplace] at hfull hsmall
      omega
    · have hsplit : front ++ block ++ x :: (back' ++ [x']) =
          (front ++ block ++ x :: back') ++ [x'] := by
        simp
      rw [hsplit] at hitems
      exact ih hsizes.1 (List.append_inj' hitems rfl).1

end

end rotation
