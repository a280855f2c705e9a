-- Numbers that are given out by key: a key that is remembered gets the number it had, any
-- other one is served first come.
import NeIp.FirstCome

open first_come

namespace keyed_numbers

variable {κ : Type*} [DecidableEq κ] (limit room : Nat)

/-- The numbers that are taken, and the keys that are remembered with theirs. -/
structure Desk (κ : Type*) where
  used : List Nat
  known : List (κ × Nat)

/-- Nothing is taken. -/
def Desk.empty : Desk κ := ⟨[], []⟩

/-- The number of a key is remembered as long as there is room. -/
def Desk.remember (s : Desk κ) (k : κ) (j : Nat) : Desk κ where
  used := s.used ++ [j]
  known := if s.known.length < room then s.known ++ [(k, j)] else s.known

/-- A request for the number `w` under a key. -/
def ask (s : Desk κ) (k : κ) (w : Nat) : Option (Nat × Desk κ) :=
  match s.known.find? fun e => decide (e.1 = k) with
  | some e => some (e.2, s)
  | none => (number limit s.used w).map fun j => (j, s.remember room k j)

/-- The answers to many requests, and the desk after them. -/
def asks : Desk κ → List (κ × Nat) → Option (List Nat × Desk κ)
  | s, [] => some ([], s)
  | s, r :: rs =>
    match ask limit room s r.1 r.2 with
    | none => none
    | some (j, s) => (asks s rs).map fun a => (j :: a.1, a.2)

/-- The keys that are remembered after these. -/
def remembered : List κ → List κ → List κ
  | known, [] => known
  | known, k :: ks =>
    remembered (if k ∈ known ∨ room ≤ known.length then known else known ++ [k]) ks

/-- How many of these keys need a number of their own. -/
def draws : List κ → List κ → Nat
  | _, [] => 0
  | known, k :: ks =>
    if k ∈ known then draws known ks
    else draws (if room ≤ known.length then known else known ++ [k]) ks + 1

variable {limit room}

/-! ## One request -/

/-- There is a number as long as not all of them are taken. -/
theorem number_isSome_iff {used : List Nat} (hnodup : used.Nodup)
    (hrange : ∀ j ∈ used, 1 ≤ j ∧ j ≤ limit) (w : Nat) :
    (number limit used w).isSome = true ↔ used.length < limit := by
  have hcard : used.toFinset.card = used.length := List.toFinset_card_of_nodup hnodup
  have hsub : used.toFinset ⊆ Finset.Icc 1 limit := fun j hj =>
    Finset.mem_Icc.mpr (hrange j (List.mem_toFinset.mp hj))
  constructor
  · intro h
    obtain ⟨j, hj⟩ := Option.isSome_iff_exists.mp h
    obtain ⟨h1, hl, hfree, -⟩ := number_eq_some_iff.mp hj
    have hlt := Finset.card_lt_card (Finset.ssubset_iff_subset_ne.mpr ⟨hsub, fun heq =>
      hfree (List.mem_toFinset.mp (heq ▸ Finset.mem_Icc.mpr ⟨h1, hl⟩))⟩)
    rw [Nat.card_Icc, hcard] at hlt
    omega
  · intro h
    obtain ⟨j, hj, hfree⟩ := Finset.exists_mem_notMem_of_card_lt_card
      (show used.toFinset.card < (Finset.Icc 1 limit).card by rw [Nat.card_Icc, hcard]; omega)
    rw [Finset.mem_Icc] at hj
    rw [List.mem_toFinset] at hfree
    unfold number
    split
    · rw [List.find?_isSome]
      exact ⟨j, List.mem_range'_1.mpr ⟨hj.1, by omega⟩, by simpa using hfree⟩
    · rfl

/-- A key that is remembered gets its number, and any other one a free number, with which it is
remembered if there is room. -/
theorem ask_some {s t : Desk κ} {k : κ} {w j : Nat} (h : ask limit room s k w = some (j, t)) :
    ((k, j) ∈ s.known ∧ t = s) ∨
      ((∀ e ∈ s.known, e.1 ≠ k) ∧ number limit s.used w = some j ∧ t = s.remember room k j) := by
  unfold ask at h
  split at h
  · rename_i e he
    obtain ⟨rfl, rfl⟩ := Prod.mk.inj (Option.some.inj h)
    have hkey : e.1 = k := by simpa using List.find?_some he
    exact Or.inl ⟨hkey ▸ List.mem_of_find?_eq_some he, rfl⟩
  · rename_i hnone
    obtain ⟨j', hj, heq⟩ := Option.map_eq_some_iff.mp h
    obtain ⟨rfl, rfl⟩ := Prod.mk.inj heq
    refine Or.inr ⟨fun e he hk => ?_, hj, rfl⟩
    exact absurd hk (by simpa using List.find?_eq_none.mp hnone e he)

/-- The keys that a desk remembers. -/
def Desk.keys (s : Desk κ) : List κ := s.known.map (·.1)

omit [DecidableEq κ] in
theorem Desk.keys_remember (s : Desk κ) (k : κ) (j : Nat) :
    (s.remember room k j).keys = if room ≤ s.keys.length then s.keys else s.keys ++ [k] := by
  unfold Desk.remember Desk.keys
  rw [List.length_map]
  by_cases h : room ≤ s.known.length
  · rw [if_pos h, if_neg (by omega)]
  · rw [if_neg h, if_pos (by omega), List.map_append]
    rfl

omit [DecidableEq κ] in
theorem Desk.mem_keys {s : Desk κ} {k : κ} : k ∈ s.keys ↔ ∃ j, (k, j) ∈ s.known := by
  simp [Desk.keys]

omit [DecidableEq κ] in
theorem Desk.mem_known_remember {s : Desk κ} {k : κ} {j : Nat} {e : κ × Nat}
    (h : e ∈ (s.remember room k j).known) : e ∈ s.known ∨ e = (k, j) := by
  unfold Desk.remember at h
  dsimp only at h
  split at h
  · simpa using h
  · exact Or.inl h

omit [DecidableEq κ] in
/-- Nothing is forgotten. -/
theorem Desk.keys_sublist_remember (s : Desk κ) (k : κ) (j : Nat) :
    s.keys.Sublist (s.remember room k j).keys := by
  rw [Desk.keys_remember]
  split
  · exact List.Sublist.refl _
  · exact List.sublist_append_left _ _

omit [DecidableEq κ] in
theorem Desk.mem_keys_remember_self {s : Desk κ} {k : κ} {j : Nat} (h : s.keys.length < room) :
    k ∈ (s.remember room k j).keys := by
  rw [Desk.keys_remember, if_neg (by omega)]
  exact List.mem_append_right _ (List.mem_singleton_self k)

/-! ## Many requests -/

/-- What holds of a desk after the requests `done`, each given as its key and its answer. -/
structure Kept (limit room : Nat) (done : List (κ × Nat)) (s : Desk κ) : Prop where
  nodup : s.used.Nodup
  range : ∀ j ∈ s.used, 1 ≤ j ∧ j ≤ limit
  taken : ∀ d ∈ done, d.2 ∈ s.used
  known : ∀ e ∈ s.known, e ∈ done
  same : ∀ e ∈ s.known, ∀ d ∈ done, d.1 = e.1 → d.2 = e.2
  full : ∀ d ∈ done, d.1 ∉ s.keys → room ≤ s.keys.length
  injective : ∀ a ∈ done, ∀ b ∈ done, a.2 = b.2 → a.1 = b.1
  pairs : done.Pairwise fun a b => a.2 = b.2 ↔ a.1 = b.1 ∧ a.1 ∈ s.keys

omit [DecidableEq κ] in
theorem Kept.empty (limit room : Nat) : Kept limit room [] (Desk.empty : Desk κ) := by
  refine ⟨List.nodup_nil, ?_, ?_, ?_, ?_, ?_, ?_, List.Pairwise.nil⟩ <;> simp [Desk.empty]

section

variable {done : List (κ × Nat)} {s t : Desk κ} {k : κ} {w j : Nat}

omit [DecidableEq κ] in
/-- An answer from memory. -/
theorem Kept.again (h : Kept limit room done s) (hk : (k, j) ∈ s.known) :
    Kept limit room (done ++ [(k, j)]) s := by
  have hdone := h.known _ hk
  have hmem : ∀ d ∈ done ++ [(k, j)], d ∈ done := by
    intro d hd
    rcases List.mem_append.mp hd with hd | hd
    · exact hd
    · rw [List.mem_singleton.mp hd]
      exact hdone
  refine ⟨h.nodup, h.range, fun d hd => h.taken d (hmem d hd),
    fun e he => List.mem_append_left _ (h.known e he),
    fun e he d hd => h.same e he d (hmem d hd), fun d hd => h.full d (hmem d hd),
    fun a ha b hb => h.injective a (hmem a ha) b (hmem b hb), ?_⟩
  refine List.pairwise_append.mpr ⟨h.pairs, List.pairwise_singleton _ _, ?_⟩
  intro d hd b hb
  rw [List.mem_singleton.mp hb]
  constructor
  · intro heq
    have hkey := h.injective d hd (k, j) hdone heq
    exact ⟨hkey, hkey ▸ Desk.mem_keys.mpr ⟨j, hk⟩⟩
  · rintro ⟨hkey, -⟩
    exact h.same (k, j) hk d hd hkey

omit [DecidableEq κ] in
/-- A key that was asked for before is remembered since, or never. -/
theorem Kept.remembered_since (h : Kept limit room done s) {d : κ × Nat} (hd : d ∈ done)
    (hin : d.1 ∈ (s.remember room k j).keys) : d.1 ∈ s.keys := by
  by_contra hno
  rw [Desk.keys_remember, if_pos (h.full d hd hno)] at hin
  exact hno hin

omit [DecidableEq κ] in
/-- A number that is free was no answer. -/
theorem Kept.ne_of_number (h : Kept limit room done s) (hj : number limit s.used w = some j) :
    ∀ d ∈ done, d.2 ≠ j := by
  obtain ⟨-, -, hfree, -⟩ := number_eq_some_iff.mp hj
  exact fun d hd heq => hfree (heq ▸ h.taken d hd)

omit [DecidableEq κ] in
/-- The answers are told apart as before when one comes with a new number. -/
theorem Kept.injective_concat (h : Kept limit room done s) (hother : ∀ d ∈ done, d.2 ≠ j) :
    ∀ a ∈ done ++ [(k, j)], ∀ b ∈ done ++ [(k, j)], a.2 = b.2 → a.1 = b.1 := by
  intro a ha b hb heq
  rcases List.mem_append.mp ha with ha | ha <;> rcases List.mem_append.mp hb with hb | hb
  · exact h.injective a ha b hb heq
  · rw [List.mem_singleton.mp hb] at heq
    exact absurd heq (hother a ha)
  · rw [List.mem_singleton.mp ha] at heq
    exact absurd heq.symm (hother b hb)
  · rw [List.mem_singleton.mp ha, List.mem_singleton.mp hb]

omit [DecidableEq κ] in
/-- A new number, with which the key is remembered if there is room. -/
theorem Kept.fresh (h : Kept limit room done s) (hk : ∀ e ∈ s.known, e.1 ≠ k)
    (hj : number limit s.used w = some j) :
    Kept limit room (done ++ [(k, j)]) (s.remember room k j) := by
  obtain ⟨h1, hl, hfree, -⟩ := number_eq_some_iff.mp hj
  have hother := h.ne_of_number hj
  have hmore : s.keys.Sublist (s.remember room k j).keys := s.keys_sublist_remember k j
  have hnew : ∀ d ∈ done, d.1 = k → k ∉ (s.remember room k j).keys := by
    rintro d hd rfl hin
    obtain ⟨i, hi⟩ := Desk.mem_keys.mp (h.remembered_since hd hin)
    exact hk _ hi rfl
  refine ⟨?_, ?_, ?_, ?_, ?_, ?_, h.injective_concat hother, ?_⟩
  · rw [show (s.remember room k j).used = s.used ++ [j] from rfl, List.nodup_append]
    refine ⟨h.nodup, List.nodup_singleton j, fun a ha b hb hab => ?_⟩
    rw [hab, List.mem_singleton.mp hb] at ha
    exact hfree ha
  · intro i hi
    rcases List.mem_append.mp hi with hi | hi
    · exact h.range i hi
    · rw [List.mem_singleton.mp hi]
      exact ⟨h1, hl⟩
  · intro d hd
    rcases List.mem_append.mp hd with hd | hd
    · exact List.mem_append_left _ (h.taken d hd)
    · rw [List.mem_singleton.mp hd]
      exact List.mem_append_right _ (List.mem_singleton_self j)
  · intro e he
    rcases Desk.mem_known_remember he with he | rfl
    · exact List.mem_append_left _ (h.known e he)
    · exact List.mem_append_right _ (List.mem_singleton_self _)
  · intro e he d hd hkey
    rcases Desk.mem_known_remember he with hin | rfl <;> rcases List.mem_append.mp hd with hd | hd
    · exact h.same e hin d hd hkey
    · rw [List.mem_singleton.mp hd] at hkey
      exact absurd hkey.symm (hk e hin)
    · exact absurd (Desk.mem_keys.mpr ⟨j, he⟩) (hnew d hd hkey)
    · rw [List.mem_singleton.mp hd]
  · intro d hd hno
    rcases List.mem_append.mp hd with hd | hd
    · exact (h.full d hd fun hin => hno (hmore.subset hin)).trans hmore.length_le
    · rw [List.mem_singleton.mp hd] at hno
      by_contra hroom
      exact hno (Desk.mem_keys_remember_self (by have := hmore.length_le; omega))
  · refine List.pairwise_append.mpr ⟨?_, List.pairwise_singleton _ _, ?_⟩
    · refine h.pairs.imp_of_mem fun {a b} ha _ hab => hab.trans ?_
      exact and_congr_right fun _ => ⟨fun hin => hmore.subset hin, h.remembered_since ha⟩
    · intro d hd b hb
      rw [List.mem_singleton.mp hb]
      refine iff_of_false (hother d hd) ?_
      rintro ⟨rfl, hin⟩
      exact hnew d hd rfl hin

theorem Kept.ask (h : Kept limit room done s) (ha : ask limit room s k w = some (j, t)) :
    Kept limit room (done ++ [(k, j)]) t ∧
      t.keys = if k ∈ s.keys ∨ room ≤ s.keys.length then s.keys else s.keys ++ [k] := by
  rcases ask_some ha with ⟨hk, rfl⟩ | ⟨hk, hj, rfl⟩
  · exact ⟨h.again hk, (if_pos (Or.inl (Desk.mem_keys.mpr ⟨j, hk⟩))).symm⟩
  · have hnot : k ∉ s.keys := by
      intro hin
      obtain ⟨i, hi⟩ := Desk.mem_keys.mp hin
      exact hk _ hi rfl
    refine ⟨h.fresh hk hj, ?_⟩
    rw [Desk.keys_remember]
    simp only [hnot, false_or]

theorem asks_cons_some {rs : List (κ × Nat)} {js : List Nat}
    (h : asks limit room s ((k, w) :: rs) = some (js, t)) :
    ∃ j u js', ask limit room s k w = some (j, u) ∧ asks limit room u rs = some (js', t) ∧
      js = j :: js' := by
  unfold asks at h
  dsimp only at h
  split at h
  · simp at h
  · rename_i j u hone
    obtain ⟨⟨js', t'⟩, hrest, heq⟩ := Option.map_eq_some_iff.mp h
    obtain ⟨rfl, rfl⟩ := Prod.mk.inj heq
    exact ⟨j, u, js', hone, hrest, rfl⟩

theorem Kept.asks {rs : List (κ × Nat)} {js : List Nat} (h : Kept limit room done s)
    (ha : asks limit room s rs = some (js, t)) :
    js.length = rs.length ∧ Kept limit room (done ++ (rs.map (·.1)).zip js) t ∧
      t.keys = remembered room s.keys (rs.map (·.1)) := by
  induction rs generalizing s done js with
  | nil =>
    obtain ⟨rfl, rfl⟩ := Prod.mk.inj (Option.some.inj ha)
    exact ⟨rfl, by simpa using h, rfl⟩
  | cons r rs ih =>
    obtain ⟨j, u, js', hone, hrest, rfl⟩ := asks_cons_some ha
    obtain ⟨hu, hkeys⟩ := h.ask hone
    obtain ⟨hlen, ht, hall⟩ := ih hu hrest
    refine ⟨congrArg (· + 1) hlen, ?_, ?_⟩
    · rw [List.append_assoc] at ht
      exact ht
    · rw [hall, hkeys]
      rfl

theorem ask_isSome_iff (h : Kept limit room done s) (k : κ) (w : Nat) :
    (ask limit room s k w).isSome = true ↔ k ∈ s.keys ∨ s.used.length < limit := by
  unfold ask
  split
  · rename_i e he
    have hkey : e.1 = k := by simpa using List.find?_some he
    exact iff_of_true rfl (Or.inl (Desk.mem_keys.mpr ⟨e.2, hkey ▸ List.mem_of_find?_eq_some he⟩))
  · rename_i hnone
    have hnot : k ∉ s.keys := by
      intro hin
      obtain ⟨j, hj⟩ := Desk.mem_keys.mp hin
      simpa using List.find?_eq_none.mp hnone _ hj
    rw [Option.isSome_map, number_isSome_iff h.nodup h.range]
    simp only [hnot, false_or]

/-- All requests are answered as long as there are numbers for those that need one. -/
theorem asks_isSome_iff (h : Kept limit room done s) (rs : List (κ × Nat)) :
    (asks limit room s rs).isSome = true ↔
      draws room s.keys (rs.map (·.1)) = 0 ∨
        s.used.length + draws room s.keys (rs.map (·.1)) ≤ limit := by
  induction rs generalizing s done with
  | nil => exact iff_of_true rfl (Or.inl rfl)
  | cons r rs ih =>
    obtain ⟨k, w⟩ := r
    have hone := ask_isSome_iff h k w
    unfold asks
    simp only [List.map_cons, draws]
    split
    · rename_i hnone
      rw [hnone, Option.isSome_none] at hone
      simp only [Bool.false_eq_true, false_iff, not_or] at hone
      rw [if_neg hone.1]
      simp only [Option.isSome_none, Bool.false_eq_true, false_iff]
      omega
    · rename_i j u hask
      obtain ⟨hu, hkeys⟩ := h.ask hask
      rw [Option.isSome_map, ih hu, hkeys]
      by_cases hk : k ∈ s.keys
      · have hused : u.used = s.used := by
          rcases ask_some hask with ⟨-, rfl⟩ | ⟨hno, -, -⟩
          · rfl
          · obtain ⟨i, hi⟩ := Desk.mem_keys.mp hk
            exact absurd rfl (hno _ hi)
        rw [if_pos (Or.inl hk), if_pos hk, hused]
      · have hused : u.used.length = s.used.length + 1 := by
          rcases ask_some hask with ⟨hin, -⟩ | ⟨-, -, rfl⟩
          · exact absurd (Desk.mem_keys.mpr ⟨j, hin⟩) hk
          · exact List.length_append
        rw [hask, Option.isSome_some] at hone
        have hlt := (hone.mp rfl).resolve_left hk
        rw [if_neg hk, hused]
        simp only [hk, false_or]
        omega

end

/-- Two answers are the same number exactly when they are for one key that is remembered. -/
theorem asks_answers {rs : List (κ × Nat)} {js : List Nat} {t : Desk κ}
    (h : asks limit room Desk.empty rs = some (js, t)) :
    js.length = rs.length ∧ (∀ j ∈ js, 1 ≤ j ∧ j ≤ limit) ∧
      ((rs.map (·.1)).zip js).Pairwise fun a b =>
        a.2 = b.2 ↔ a.1 = b.1 ∧ a.1 ∈ remembered room [] (rs.map (·.1)) := by
  obtain ⟨hlen, ht, hkeys⟩ := (Kept.empty limit room).asks h
  rw [List.nil_append] at ht
  rw [show (Desk.empty : Desk κ).keys = [] from rfl] at hkeys
  refine ⟨hlen, fun j hj => ?_, ?_⟩
  · have hsnd : ((rs.map (·.1)).zip js).map (·.2) = js := List.map_snd_zip (by simp [hlen])
    rw [← hsnd] at hj
    obtain ⟨d, hd, rfl⟩ := List.mem_map.mp hj
    exact ht.range _ (ht.taken d hd)
  · rw [← hkeys]
    exact ht.pairs

theorem remembered_all {known ks : List κ} (hnodup : known.Nodup)
    (hroom : (known ++ ks).toFinset.card ≤ room) {k : κ} (hk : k ∈ known ++ ks) :
    k ∈ remembered room known ks := by
  induction ks generalizing known with
  | nil =>
    rw [List.append_nil] at hk
    exact hk
  | cons k' ks ih =>
    unfold remembered
    by_cases hin : k' ∈ known
    · rw [if_pos (Or.inl hin)]
      refine ih hnodup ((Finset.card_le_card fun x hx => ?_).trans hroom) ?_
      · rw [List.mem_toFinset] at hx ⊢
        rcases List.mem_append.mp hx with hx | hx
        · exact List.mem_append_left _ hx
        · exact List.mem_append_right _ (List.mem_cons_of_mem k' hx)
      · rcases List.mem_append.mp hk with hk | hk
        · exact List.mem_append_left _ hk
        rcases List.mem_cons.mp hk with rfl | hk
        · exact List.mem_append_left _ hin
        · exact List.mem_append_right _ hk
    · have hone : (known ++ [k']).Nodup := by
        rw [List.nodup_append]
        refine ⟨hnodup, List.nodup_singleton k', fun a ha b hb hab => ?_⟩
        rw [hab, List.mem_singleton.mp hb] at ha
        exact hin ha
      have hsub : (known ++ [k']).toFinset ⊆ (known ++ k' :: ks).toFinset := by
        intro x hx
        rw [List.mem_toFinset] at hx ⊢
        simp only [List.mem_append, List.mem_cons] at hx ⊢
        tauto
      have hlen := (Finset.card_le_card hsub).trans hroom
      rw [List.toFinset_card_of_nodup hone, List.length_append, List.length_singleton] at hlen
      rw [if_neg (by simp only [hin, false_or]; omega)]
      refine ih hone ?_ ?_
      · rw [List.append_assoc]
        exact hroom
      · rw [List.append_assoc]
        exact hk

/-- With room for all of them every key is remembered. -/
theorem mem_remembered {ks : List κ} (hroom : ks.toFinset.card ≤ room) {k : κ} (hk : k ∈ ks) :
    k ∈ remembered room [] ks :=
  remembered_all List.nodup_nil hroom hk

/-- No request needs more than one number. -/
theorem draws_le_length (known ks : List κ) : draws room known ks ≤ ks.length := by
  induction ks generalizing known with
  | nil => exact Nat.le_refl _
  | cons k ks ih =>
    unfold draws
    split
    · exact (ih known).trans (Nat.le_succ _)
    · exact Nat.succ_le_succ (ih _)

/-- What holds of every pair of a list in its order holds of any two of its elements. -/
theorem agree_of_pairwise {α β γ : Type*} {f : α → β} {g : α → γ} {l : List α}
    (h : l.Pairwise fun a b => f a = f b → g a = g b) {a b : α} (ha : a ∈ l) (hb : b ∈ l)
    (hab : f a = f b) : g a = g b := by
  induction h with
  | nil => simp at ha
  | @cons c l hc hl ih =>
    rcases List.mem_cons.mp ha with rfl | hal <;> rcases List.mem_cons.mp hb with rfl | hbl
    · rfl
    · exact hc b hbl hab
    · exact (hc a hal hab.symm).symm
    · exact ih hal hbl

end keyed_numbers
