-- Numbers that are given out first come, first served: each request gets the number it
-- asks for, or the smallest one that is free.
import Mathlib.Data.Finset.Card
import Mathlib.Data.List.Nodup
import Mathlib.Order.Interval.Finset.Nat

namespace first_come

variable (limit : Nat)

/-- The number for the request `w` when those in `used` are taken. -/
def number (used : List Nat) (w : Nat) : Option Nat :=
  if w < 1 ∨ limit < w ∨ w ∈ used then (List.range' 1 limit).find? fun j => decide (j ∉ used)
  else some w

/-- The numbers taken after the requests of a list, in order. -/
def serve : List Nat → List Nat → Option (List Nat)
  | used, [] => some used
  | used, w :: ws =>
    match number limit used w with
    | none => none
    | some j => serve (used ++ [j]) ws

variable {limit}

/-! ## One request -/

/-- A request gets its own number, or there is no smaller free one and its own is taken. -/
theorem number_eq_some_iff {used : List Nat} {w j : Nat} :
    number limit used w = some j ↔ 1 ≤ j ∧ j ≤ limit ∧ j ∉ used ∧
      (j = w ∨ ((∀ i, 1 ≤ i → i < j → i ∈ used) ∧ (1 ≤ w → w ≤ limit → w ∈ used))) := by
  unfold number
  split
  · rename_i hno
    rw [List.find?_range'_eq_some, List.mem_range'_1]
    simp only [decide_not, Bool.not_not, Bool.not_eq_true', decide_eq_false_iff_not, decide_eq_true_eq]
    constructor
    · rintro ⟨hfree, ⟨h1, hl⟩, hbelow⟩
      refine ⟨h1, by omega, hfree, Or.inr ⟨hbelow, fun h1 hl => ?_⟩⟩
      rcases hno with h0 | h0 | h0
      · omega
      · omega
      · exact h0
    · rintro ⟨h1, hl, hfree, rfl | ⟨hbelow, -⟩⟩
      · rcases hno with h0 | h0 | h0
        · omega
        · omega
        · exact absurd h0 hfree
      · exact ⟨hfree, ⟨h1, by omega⟩, hbelow⟩
  · rename_i hno
    rw [not_or, not_or] at hno
    rw [Option.some.injEq]
    constructor
    · rintro rfl
      exact ⟨by omega, by omega, hno.2.2, Or.inl rfl⟩
    · rintro ⟨h1, hl, hfree, rfl | ⟨-, hown⟩⟩
      · rfl
      · exact absurd (hown (by omega) (by omega)) hno.2.2

/-- More numbers that are taken change nothing but the number that they take away. -/
theorem number_more_iff {used used' : List Nat} {w j : Nat} (hsub : used ⊆ used')
    (h : number limit used w = some j) : number limit used' w = some j ↔ j ∉ used' := by
  obtain ⟨h1, hl, -, hcase⟩ := number_eq_some_iff.mp h
  rw [number_eq_some_iff]
  constructor
  · rintro ⟨-, -, hfree, -⟩
    exact hfree
  · intro hfree
    refine ⟨h1, hl, hfree, hcase.imp_right ?_⟩
    rintro ⟨hbelow, hown⟩
    exact ⟨fun i hi hij => hsub (hbelow i hi hij), fun h1 hl => hsub (hown h1 hl)⟩

/-! ## Many requests -/

theorem serve_append (used ws vs : List Nat) :
    serve limit used (ws ++ vs) = (serve limit used ws).bind fun used => serve limit used vs := by
  induction ws generalizing used with
  | nil => rfl
  | cons w ws ih =>
    simp only [List.cons_append, serve]
    split
    · rfl
    · exact ih _

theorem serve_snoc {used ws taken : List Nat} {w : Nat}
    (h : serve limit used (ws ++ [w]) = some taken) :
    ∃ before j, serve limit used ws = some before ∧ number limit before w = some j ∧
      taken = before ++ [j] := by
  rw [serve_append] at h
  obtain ⟨before, hbefore, hlast⟩ := Option.bind_eq_some_iff.mp h
  unfold serve at hlast
  split at hlast
  · simp at hlast
  · rename_i j hj
    exact ⟨before, j, hbefore, hj, (Option.some.inj hlast).symm⟩

/-- The numbers that are taken stay where they are. -/
theorem serve_prefix {used ws taken : List Nat} (h : serve limit used ws = some taken) :
    ∃ given, taken = used ++ given ∧ given.length = ws.length := by
  induction ws generalizing used with
  | nil => exact ⟨[], by rw [← Option.some.inj h, List.append_nil], rfl⟩
  | cons w ws ih =>
    unfold serve at h
    split at h
    · simp at h
    obtain ⟨given, rfl, hlen⟩ := ih h
    exact ⟨_ :: given, by rw [List.append_assoc]; rfl, congrArg (· + 1) hlen⟩

/-- The numbers above `r` that the requests ask for. -/
def asked (limit r : Nat) (ws : List Nat) : Finset Nat := ws.toFinset.filter fun s => r < s ∧ s ≤ limit

theorem mem_asked {r s : Nat} {ws : List Nat} : s ∈ asked limit r ws ↔ s ∈ ws ∧ r < s ∧ s ≤ limit := by
  unfold asked
  rw [Finset.mem_filter, List.mem_toFinset]

theorem asked_cons_card_le (r w : Nat) (ws : List Nat) :
    (asked limit r (w :: ws)).card ≤ (asked limit r ws).card + 1 := by
  refine (Finset.card_le_card fun s hs => ?_).trans (Finset.card_insert_le w _)
  rw [mem_asked, List.mem_cons] at hs
  rw [Finset.mem_insert, mem_asked]
  tauto

/-- A request more is a number more, or it is one of those that may get any number. -/
theorem asked_sublist {r : Nat} {ws vs : List Nat} (h : ws.Sublist vs) :
    ws.length + (asked limit r vs).card ≤ vs.length + (asked limit r ws).card := by
  induction h with
  | slnil => exact Nat.le_refl _
  | @cons ws vs w hsub ih =>
    have hle : (asked limit r (w :: vs)).card ≤ (asked limit r vs).card + 1 :=
      asked_cons_card_le r w vs
    rw [List.length_cons]
    omega
  | @cons_cons ws vs w hsub ih =>
    rw [List.length_cons, List.length_cons]
    by_cases hnew : w ∈ asked limit r (w :: vs) ∧ w ∉ vs
    · -- the request asks for a number that nobody else asks for
      have hw := (mem_asked.mp hnew.1).2
      have hws : w ∉ ws := fun hw => hnew.2 (hsub.subset hw)
      have hone : ∀ {us : List Nat}, w ∉ us →
          (asked limit r (w :: us)).card = (asked limit r us).card + 1 := by
        intro us hus
        have heq : asked limit r (w :: us) = insert w (asked limit r us) := by
          ext s
          rw [Finset.mem_insert, mem_asked, mem_asked, List.mem_cons]
          constructor
          · tauto
          · rintro (rfl | h)
            · exact ⟨Or.inl rfl, hw⟩
            · exact ⟨Or.inr h.1, h.2⟩
        rw [heq, Finset.card_insert_of_notMem (fun hm => hus (mem_asked.mp hm).1)]
      rw [hone hnew.2, hone hws]
      omega
    · have hle : (asked limit r (w :: vs)).card ≤ (asked limit r vs).card := by
        refine Finset.card_le_card fun s hs => ?_
        rw [mem_asked, List.mem_cons] at hs
        rw [mem_asked]
        refine ⟨?_, hs.2⟩
        rcases hs.1 with rfl | hv
        · by_contra hv
          exact hnew ⟨mem_asked.mpr ⟨List.mem_cons_self, hs.2⟩, hv⟩
        · exact hv
      have hge : (asked limit r ws).card ≤ (asked limit r (w :: ws)).card := by
        refine Finset.card_le_card fun s hs => ?_
        rw [mem_asked] at hs ⊢
        exact ⟨List.mem_cons_of_mem w hs.1, hs.2⟩
      omega

/-- What has been taken after some requests: different numbers, among them those that were
asked for, and above a number that is still free only those. -/
structure Taken (limit : Nat) (ws taken : List Nat) : Prop where
  nodup : taken.Nodup
  length : taken.length = ws.length
  range : ∀ r ∈ taken, 1 ≤ r ∧ r ≤ limit
  own : ∀ w ∈ ws, 1 ≤ w → w ≤ limit → w ∈ taken
  above : ∀ r, 1 ≤ r → r ∉ taken → ∀ s ∈ taken, r < s → s ∈ ws

theorem serve_taken {ws taken : List Nat} (h : serve limit [] ws = some taken) :
    Taken limit ws taken := by
  induction ws using List.reverseRecOn generalizing taken with
  | nil =>
    obtain rfl := Option.some.inj h
    exact ⟨List.nodup_nil, rfl, by simp, by simp, by simp⟩
  | append_singleton ws w ih =>
    obtain ⟨before, j, hbefore, hj, rfl⟩ := serve_snoc h
    have ih := ih hbefore
    obtain ⟨h1, hl, hfree, hcase⟩ := number_eq_some_iff.mp hj
    refine ⟨?_, ?_, ?_, ?_, ?_⟩
    · rw [List.nodup_append]
      refine ⟨ih.nodup, List.nodup_singleton j, fun a ha b hb hab => ?_⟩
      rw [hab, List.mem_singleton.mp hb] at ha
      exact hfree ha
    · rw [List.length_append, List.length_append, ih.length]
      rfl
    · intro r hr
      rcases List.mem_append.mp hr with hr | hr
      · exact ih.range r hr
      · rw [List.mem_singleton.mp hr]
        exact ⟨h1, hl⟩
    · intro v hv hv1 hvl
      rw [List.mem_append, List.mem_singleton]
      rcases List.mem_append.mp hv with hv | hv
      · exact Or.inl (ih.own v hv hv1 hvl)
      · rw [List.mem_singleton.mp hv] at hv1 hvl ⊢
        rcases hcase with rfl | ⟨-, hown⟩
        · exact Or.inr rfl
        · exact Or.inl (hown hv1 hvl)
    · intro r hr hno s hs hrs
      rw [List.mem_append, List.mem_singleton, not_or] at hno
      rw [List.mem_append, List.mem_singleton] at hs ⊢
      rcases hs with hs | rfl
      · exact Or.inl (ih.above r hr hno.1 s hs hrs)
      · rcases hcase with rfl | ⟨hbelow, -⟩
        · exact Or.inr rfl
        · -- the smallest free number is not above one that is free
          exact absurd (hbelow r hr hrs) hno.1

/-- A number that nobody asks for is taken exactly when enough requests are left for those up
to it, once each number above it that is asked for has had one. -/
theorem mem_taken_iff {ws taken : List Nat} (h : serve limit [] ws = some taken) {r : Nat}
    (h1 : 1 ≤ r) (hl : r ≤ limit) :
    r ∈ taken ↔ r ∈ ws ∨ r + (asked limit r ws).card ≤ ws.length := by
  constructor
  · intro hin
    induction ws using List.reverseRecOn generalizing taken with
    | nil =>
      obtain rfl := Option.some.inj h
      simp at hin
    | append_singleton ws w ih =>
      obtain ⟨before, j, hbefore, hj, rfl⟩ := serve_snoc h
      rw [or_iff_not_imp_left, List.mem_append, List.mem_singleton, not_or]
      rintro ⟨hno, hnew⟩
      by_cases hold : r ∈ before
      · have hmany := (ih hbefore hold).resolve_left hno
        have hsub : ws.length + (asked limit r (ws ++ [w])).card ≤
            (ws ++ [w]).length + (asked limit r ws).card :=
          asked_sublist (List.sublist_append_left ws [w])
        omega
      rw [List.mem_append, List.mem_singleton] at hin
      obtain rfl := hin.resolve_left hold
      obtain ⟨-, -, -, hcase⟩ := number_eq_some_iff.mp hj
      obtain ⟨hbelow, hown⟩ := hcase.resolve_left hnew
      -- it was the first free number: all below it are taken, and so are those asked for
      have hbt := serve_taken hbefore
      have hsub : asked limit r (ws ++ [w]) ∪ Finset.Ico 1 r ⊆ before.toFinset := by
        intro s hs
        rw [Finset.mem_union, mem_asked, Finset.mem_Ico, List.mem_append, List.mem_singleton] at hs
        rw [List.mem_toFinset]
        rcases hs with ⟨hs | rfl, hsr, hsl⟩ | ⟨hs1, hsr⟩
        · exact hbt.own s hs (by omega) hsl
        · exact hown (by omega) hsl
        · exact hbelow s hs1 hsr
      have hdisj : Disjoint (asked limit r (ws ++ [w])) (Finset.Ico 1 r) := by
        rw [Finset.disjoint_left]
        intro s hs hs'
        rw [mem_asked] at hs
        rw [Finset.mem_Ico] at hs'
        omega
      have hcard := Finset.card_le_card hsub
      rw [Finset.card_union_of_disjoint hdisj, Nat.card_Ico,
        List.toFinset_card_of_nodup hbt.nodup, hbt.length] at hcard
      rw [List.length_append, List.length_singleton]
      omega
  · have ht := serve_taken h
    rintro (hin | hmany)
    · exact ht.own r hin h1 hl
    · by_contra hno
      -- what is taken lies below the free number or was asked for
      have hsub : taken.toFinset ⊆ asked limit r ws ∪ Finset.Ico 1 r := by
        intro s hs
        rw [List.mem_toFinset] at hs
        rw [Finset.mem_union, mem_asked, Finset.mem_Ico]
        have hsr : s ≠ r := fun he => hno (he ▸ hs)
        have hrange := ht.range s hs
        by_cases habove : r < s
        · exact Or.inl ⟨ht.above r h1 hno s hs habove, habove, hrange.2⟩
        · exact Or.inr ⟨hrange.1, by omega⟩
      have hcard := (Finset.card_le_card hsub).trans (Finset.card_union_le _ _)
      rw [List.toFinset_card_of_nodup ht.nodup, ht.length, Nat.card_Ico] at hcard
      omega

/-- The numbers below a limit that nobody before a request can reach. -/
def Unreached (limit r : Nat) (ws : List Nat) : Prop :=
  r ∉ ws ∧ ws.length < r + (asked limit r ws).card

instance (limit r : Nat) (ws : List Nat) : Decidable (Unreached limit r ws) :=
  inferInstanceAs (Decidable (_ ∧ _))

theorem not_mem_taken_iff {ws taken : List Nat} (h : serve limit [] ws = some taken) {r : Nat}
    (h1 : 1 ≤ r) (hl : r ≤ limit) : r ∉ taken ↔ Unreached limit r ws := by
  rw [mem_taken_iff h h1 hl, not_or, Nat.not_le]
  rfl

/-- Fewer requests reach fewer numbers. -/
theorem Unreached.sublist {r : Nat} {ws vs : List Nat} (h : Unreached limit r vs)
    (hsub : ws.Sublist vs) : Unreached limit r ws := by
  refine ⟨fun hw => h.1 (hsub.subset hw), ?_⟩
  have hle : ws.length + (asked limit r vs).card ≤ vs.length + (asked limit r ws).card :=
    asked_sublist hsub
  have hfew := h.2
  omega

theorem Unreached.perm {r : Nat} {ws vs : List Nat} (h : Unreached limit r vs)
    (hperm : ws.Perm vs) : Unreached limit r ws := by
  refine ⟨fun hw => h.1 (hperm.subset hw), ?_⟩
  unfold asked
  rw [hperm.length_eq, List.toFinset_eq_of_perm _ _ hperm]
  exact h.2

/-- Fewer requests before it take fewer numbers. -/
theorem taken_subset {ws vs taken taken' : List Nat} (h : serve limit [] ws = some taken)
    (h' : serve limit [] vs = some taken') (hsub : ws.Sublist vs) : taken ⊆ taken' := by
  intro r hr
  have hrange := (serve_taken h).range r hr
  by_contra hno
  exact (not_mem_taken_iff h hrange.1 hrange.2).mpr
    (((not_mem_taken_iff h' hrange.1 hrange.2).mp hno).sublist hsub) hr

end first_come
