-- Tables with linear probing, and the bounded maps that they are: a key is searched from the
-- slot that it hashes to, until a slot has it or is empty.
import Mathlib.Algebra.Ring.Nat
import Mathlib.Data.Finmap
import Mathlib.Data.Fintype.Card

namespace linear_probing

/-! ## Maps of at most `n` keys -/

structure BoundedMap (n : Nat) (κ ν : Type*) where
  map : Finmap fun _ : κ => ν
  card_le : map.keys.card ≤ n

variable {α κ ν : Type*} {n : Nat}

def BoundedMap.empty : BoundedMap n κ ν := ⟨∅, Nat.zero_le n⟩

variable [DecidableEq κ]

/-- A key that is stored, or that there is room for. -/
def BoundedMap.Takes (m : BoundedMap n κ ν) (k : κ) : Prop :=
  k ∈ m.map.keys ∨ m.map.keys.card < n

instance (m : BoundedMap n κ ν) (k : κ) : Decidable (m.Takes k) :=
  inferInstanceAs (Decidable (_ ∨ _))

theorem keys_insert (m : Finmap fun _ : κ => ν) (k : κ) (v : ν) :
    (m.insert k v).keys = insert k m.keys := by
  ext k'
  rw [Finmap.mem_keys, Finmap.mem_insert, Finset.mem_insert, Finmap.mem_keys]

theorem BoundedMap.Takes.card_le {m : BoundedMap n κ ν} {k : κ} (h : m.Takes k) (v : ν) :
    (m.map.insert k v).keys.card ≤ n := by
  rw [keys_insert]
  rcases h with hmem | hroom
  · rw [Finset.insert_eq_of_mem hmem]
    exact m.card_le
  · exact (Finset.card_insert_le k _).trans hroom

/-- Without room a new key is not stored. -/
def BoundedMap.insert (m : BoundedMap n κ ν) (k : κ) (v : ν) : BoundedMap n κ ν :=
  if h : m.Takes k then ⟨m.map.insert k v, h.card_le v⟩ else m

theorem BoundedMap.lookup_insert (m : BoundedMap n κ ν) (k : κ) (v : ν) (k' : κ) :
    (m.insert k v).map.lookup k' = if k' = k ∧ m.Takes k then some v else m.map.lookup k' := by
  unfold insert
  by_cases htakes : m.Takes k
  · rw [dif_pos htakes]
    by_cases hk : k' = k
    · subst hk
      rw [if_pos ⟨rfl, htakes⟩, Finmap.lookup_insert]
    · rw [if_neg fun h => hk h.1, Finmap.lookup_insert_of_ne _ hk]
  · rw [dif_neg htakes, if_neg fun h => htakes h.2]

theorem BoundedMap.keys_insert (m : BoundedMap n κ ν) (k : κ) (v : ν) :
    (m.insert k v).map.keys = if m.Takes k then Insert.insert k m.map.keys else m.map.keys := by
  unfold insert
  split
  · exact linear_probing.keys_insert _ k v
  · rfl

/-- The map after insertions in a row. -/
def BoundedMap.after (es : List (κ × ν)) : BoundedMap n κ ν :=
  es.foldl (fun m e => m.insert e.1 e.2) BoundedMap.empty

theorem BoundedMap.after_append (es : List (κ × ν)) (e : κ × ν) :
    (BoundedMap.after (es ++ [e]) : BoundedMap n κ ν) = (after es).insert e.1 e.2 := by
  unfold after
  rw [List.foldl_append]
  rfl

/-- A key that is stored has the value that was inserted last: from its first insertion that was
taken on, all of them are. -/
theorem BoundedMap.lookup_after (es : List (κ × ν)) (k : κ) :
    (after es : BoundedMap n κ ν).map.lookup k =
      if k ∈ (after es : BoundedMap n κ ν).map.keys then es.reverse.lookup k else none := by
  induction es using List.reverseRecOn with
  | nil => rfl
  | append_singleton es e ih =>
    rw [after_append, lookup_insert, keys_insert, List.reverse_append, List.reverse_singleton,
      List.singleton_append]
    by_cases hk : k = e.1
    · subst hk
      rw [List.lookup_cons_self]
      by_cases htakes : (after es : BoundedMap n κ ν).Takes e.1
      · rw [if_pos ⟨rfl, htakes⟩, if_pos htakes, if_pos (Finset.mem_insert_self _ _)]
      · have hnot : e.1 ∉ (after es : BoundedMap n κ ν).map.keys := fun hmem => htakes (.inl hmem)
        rw [if_neg fun h => htakes h.2, if_neg htakes, if_neg hnot, ih, if_neg hnot]
    · have hmem : (k ∈ if (after es : BoundedMap n κ ν).Takes e.1 then
          Insert.insert e.1 (after es : BoundedMap n κ ν).map.keys
          else (after es : BoundedMap n κ ν).map.keys) ↔
          k ∈ (after es : BoundedMap n κ ν).map.keys := by
        split
        · rw [Finset.mem_insert, or_iff_right hk]
        · rfl
      rw [if_neg fun h => hk h.1, ih, List.lookup_cons, beq_false_of_ne hk]
      simp only [hmem]

/-! ## Distinct keys -/

theorem BoundedMap.card_after_le (es : List (κ × ν)) :
    (after es : BoundedMap n κ ν).map.keys.card ≤ es.length := by
  induction es using List.reverseRecOn with
  | nil => exact le_rfl
  | append_singleton es e ih =>
    rw [after_append, keys_insert, List.length_append, List.length_singleton]
    split
    · exact (Finset.card_insert_le _ _).trans (Nat.succ_le_succ ih)
    · exact ih.trans (Nat.le_succ _)

/-- Entries that fit and have distinct keys are all stored, in whatever order they come. -/
theorem BoundedMap.lookup_after_eq_some {es : List (κ × ν)} (hlen : es.length ≤ n)
    (hnodup : (es.map Prod.fst).Nodup) {k : κ} {v : ν} :
    (after es : BoundedMap n κ ν).map.lookup k = some v ↔ (k, v) ∈ es := by
  induction es using List.reverseRecOn with
  | nil =>
    constructor
    · intro h
      exact absurd (h.symm.trans (Finmap.lookup_empty k)) (by simp)
    · intro h
      exact absurd h List.not_mem_nil
  | append_singleton es e ih =>
    rw [List.length_append, List.length_singleton] at hlen
    rw [List.map_append, List.map_singleton] at hnodup
    obtain ⟨hfront, -, hdisj⟩ := List.nodup_append.mp hnodup
    have htakes : (after es : BoundedMap n κ ν).Takes e.1 :=
      .inr ((card_after_le es).trans_lt (by omega))
    rw [after_append, lookup_insert, List.mem_append, List.mem_singleton]
    by_cases hk : k = e.1
    · have hnot : (k, v) ∉ es := fun hmem =>
        hdisj k (List.mem_map_of_mem hmem) e.1 (List.mem_singleton_self _) hk
      rw [if_pos ⟨hk, htakes⟩, Option.some_inj, or_iff_right hnot, Prod.ext_iff]
      exact ⟨fun hv => ⟨hk, hv.symm⟩, fun hpair => hpair.2.symm⟩
    · rw [if_neg fun hand => hk hand.1, ih (by omega) hfront, iff_self_or]
      rintro rfl
      exact absurd rfl hk

/-! ## Tables with linear probing -/

/-- How a table of `n` slots reads them: an empty slot has no key. -/
structure Probing (α κ : Type*) where
  key : α → Option κ
  hash : κ → Nat

/-- The slot that the search for a key comes to after `i` others. -/
def Probing.slot (P : Probing α κ) (n : Nat) [NeZero n] (k : κ) (i : Nat) : Fin n :=
  Fin.ofNat n (P.hash k + i)

/-- The search for a key ends at this slot. -/
def Probing.ends (P : Probing α κ) (t : Fin n → α) (k : κ) (j : Fin n) : Bool :=
  P.key (t j) == none || P.key (t j) == some k

theorem Probing.ends_eq_true {P : Probing α κ} {t : Fin n → α} {k : κ} {j : Fin n} :
    P.ends t k j = true ↔ P.key (t j) = none ∨ P.key (t j) = some k := by
  unfold ends
  rw [Bool.or_eq_true, beq_iff_eq, beq_iff_eq]

variable [NeZero n] (P : Probing α κ)

/-- Where the search for a key ends: in a full table that does not have it, nowhere. -/
def Probing.stop (t : Fin n → α) (k : κ) : Option (Fin n) :=
  ((List.range n).map (P.slot n k)).find? (P.ends t k)

def Probing.find (t : Fin n → α) (k : κ) : Option α :=
  (P.stop t k).bind fun j => if P.key (t j) = some k then some (t j) else none

/-- The entry takes the slot at which the search for its key ends. -/
def Probing.insert (t : Fin n → α) (k : κ) (a : α) : Fin n → α :=
  match P.stop t k with
  | none => t
  | some j => Function.update t j a

/-- Each key is where the search for it ends: between the slot that it hashes to and its own there
is no empty one, and no other entry has it. -/
def Probing.Wf (t : Fin n → α) : Prop := ∀ j k, P.key (t j) = some k → P.stop t k = some j

variable {P} {t : Fin n → α} {k : κ} {a : α}

theorem Probing.Wf.of_empty (h : ∀ j, P.key (t j) = none) : P.Wf t := by
  intro j k hj
  rw [h j] at hj
  simp at hj

/-! ### The search -/

omit [DecidableEq κ] in
/-- The search comes to every slot, wherever it starts. -/
theorem Probing.exists_slot (P : Probing α κ) (k : κ) (j : Fin n) :
    ∃ i < n, P.slot n k i = j := by
  have hn : 0 < n := j.pos
  refine ⟨(j + (n - P.hash k % n)) % n, Nat.mod_lt _ hn, Fin.ext ?_⟩
  have hsum : P.hash k + (j + (n - P.hash k % n)) = j + n * (P.hash k / n + 1) := by
    have hdiv := Nat.div_add_mod (P.hash k) n
    have hlt := Nat.mod_lt (P.hash k) hn
    rw [Nat.mul_succ]
    omega
  show (P.hash k + (j + (n - P.hash k % n)) % n) % n = j
  rw [Nat.add_mod_mod, hsum, Nat.add_mul_mod_self_left, Nat.mod_eq_of_lt j.isLt]

theorem Probing.stop_eq_none :
    P.stop t k = none ↔ ∀ j, P.key (t j) ≠ none ∧ P.key (t j) ≠ some k := by
  unfold stop
  rw [List.find?_eq_none]
  constructor
  · intro h j
    obtain ⟨i, hi, rfl⟩ := P.exists_slot k j
    have hj := h _ (List.mem_map_of_mem (List.mem_range.mpr hi))
    rw [ends_eq_true, not_or] at hj
    exact hj
  · intro h j _
    rw [ends_eq_true, not_or]
    exact h j

theorem Probing.stop_ends {j : Fin n} (h : P.stop t k = some j) :
    P.key (t j) = none ∨ P.key (t j) = some k :=
  ends_eq_true.mp (List.find?_some h)

theorem find?_of_imp {β : Type*} {p q : β → Bool} {l : List β} {b : β} (h : l.find? p = some b)
    (hb : q b = true) (himp : ∀ x, p x = false → q x = false) : l.find? q = some b := by
  rw [List.find?_eq_some_iff_append] at h ⊢
  obtain ⟨-, front, back, hl, hfront⟩ := h
  refine ⟨hb, front, back, hl, fun x hx => ?_⟩
  have hpx := hfront x hx
  rw [Bool.not_eq_true'] at hpx ⊢
  exact himp x hpx

/-- A search that passes the changed slot, or ends there, ends where it did. -/
theorem Probing.stop_update {j m : Fin n} (h : P.stop t k = some m)
    (hm : P.ends (Function.update t j a) k m = true)
    (hj : P.ends t k j = false → P.ends (Function.update t j a) k j = false) :
    P.stop (Function.update t j a) k = some m := by
  refine find?_of_imp h hm fun x hx => ?_
  by_cases hxj : x = j
  · subst hxj
    exact hj hx
  · unfold ends at hx ⊢
    rwa [Function.update_of_ne hxj]

/-! ### What a table has -/

theorem Probing.Wf.find_eq_some (h : P.Wf t) :
    P.find t k = some a ↔ P.key a = some k ∧ ∃ j, t j = a := by
  unfold find
  constructor
  · intro hfind
    obtain ⟨j, -, hj⟩ := Option.bind_eq_some_iff.mp hfind
    split at hj
    · obtain rfl := Option.some.inj hj
      exact ⟨‹_›, j, rfl⟩
    · simp at hj
  · rintro ⟨hkey, j, rfl⟩
    rw [h j k hkey, Option.bind_some, if_pos hkey]

theorem Probing.Wf.find_eq_none (h : P.Wf t) :
    P.find t k = none ↔ ∀ j, P.key (t j) ≠ some k := by
  rw [Option.eq_none_iff_forall_ne_some]
  constructor
  · intro hfind j hj
    exact hfind (t j) (h.find_eq_some.mpr ⟨hj, j, rfl⟩)
  · intro hkeys b hb
    obtain ⟨hkey, j, rfl⟩ := h.find_eq_some.mp hb
    exact hkeys j hkey

theorem Probing.Wf.insert (h : P.Wf t) (hkey : P.key a = some k) : P.Wf (P.insert t k a) := by
  unfold Probing.insert
  cases hstop : P.stop t k with
  | none => exact h
  | some j =>
    have hends := stop_ends hstop
    intro m k' hm
    dsimp only at hm ⊢
    by_cases hmj : m = j
    · subst hmj
      rw [Function.update_self, hkey] at hm
      obtain rfl := Option.some.inj hm
      refine stop_update hstop ?_ fun hno => ?_
      · rw [ends_eq_true, Function.update_self]
        exact .inr hkey
      · rw [ends_eq_true.mpr hends] at hno
        exact absurd hno (by simp)
    · -- the slot that the entry takes was no end of the search for another key, or is none now
      rw [Function.update_of_ne hmj] at hm
      have hne : k' ≠ k := by
        rintro rfl
        rw [h m k' hm] at hstop
        exact hmj (Option.some.inj hstop)
      refine stop_update (h m k' hm) ?_ fun _ => ?_
      · rw [ends_eq_true, Function.update_of_ne hmj]
        exact .inr hm
      · rw [← Bool.not_eq_true, ends_eq_true, Function.update_self, hkey]
        simp [hne.symm]

/-- An insertion changes the answer for its own key only. -/
theorem Probing.Wf.find_insert (h : P.Wf t) (hkey : P.key a = some k) (k' : κ) :
    P.find (P.insert t k a) k' =
      if k' = k ∧ P.stop t k ≠ none then some a else P.find t k' := by
  have hins := h.insert hkey
  unfold Probing.insert at hins ⊢
  cases hstop : P.stop t k with
  | none => simp
  | some j =>
    rw [hstop] at hins
    dsimp only at hins ⊢
    by_cases hk : k' = k
    · subst hk
      rw [if_pos ⟨rfl, by simp⟩, hins.find_eq_some]
      exact ⟨hkey, j, Function.update_self _ _ _⟩
    · rw [if_neg fun hand => hk hand.1]
      cases hfind : P.find t k' with
      | some b =>
        obtain ⟨hb, m, rfl⟩ := h.find_eq_some.mp hfind
        have hmj : m ≠ j := by
          rintro rfl
          rcases stop_ends hstop with hnone | hsome
          · simp [hnone] at hb
          · exact hk (Option.some.inj (hb.symm.trans hsome))
        exact hins.find_eq_some.mpr ⟨hb, m, Function.update_of_ne hmj _ _⟩
      | none =>
        rw [hins.find_eq_none]
        intro m hm
        by_cases hmj : m = j
        · subst hmj
          rw [Function.update_self, hkey] at hm
          exact hk (Option.some.inj hm).symm
        · rw [Function.update_of_ne hmj] at hm
          exact h.find_eq_none.mp hfind m hm

/-! ## A table is a bounded map -/

/-- The table answers as the map does. -/
structure Probing.Represents (P : Probing α κ) (val : α → ν) (t : Fin n → α)
    (m : BoundedMap n κ ν) : Prop where
  wf : P.Wf t
  lookup : ∀ k, (P.find t k).map val = m.map.lookup k

variable {val : α → ν} {m : BoundedMap n κ ν}

theorem Probing.Represents.empty (h : ∀ j, P.key (t j) = none) :
    P.Represents val t BoundedMap.empty := by
  refine ⟨Wf.of_empty h, fun k => ?_⟩
  have hfind : P.find t k = none := by
    rw [(Wf.of_empty h).find_eq_none]
    intro j hj
    rw [h j] at hj
    simp at hj
  rw [hfind]
  rfl

theorem Probing.Represents.mem_keys (h : P.Represents val t m) :
    k ∈ m.map.keys ↔ ∃ j, P.key (t j) = some k := by
  rw [Finmap.mem_keys, ← Finmap.lookup_isSome, ← h.lookup, Option.isSome_map,
    Option.isSome_iff_ne_none, Ne, h.wf.find_eq_none]
  simp

/-- With an empty slot there is room: the keys are those of the other slots. -/
theorem Probing.Represents.card_lt (h : P.Represents val t m) {j : Fin n}
    (hj : P.key (t j) = none) : m.map.keys.card < n := by
  have hsub : m.map.keys.map Function.Embedding.some ⊆
      (Finset.univ.erase j).image fun i => P.key (t i) := by
    intro o ho
    obtain ⟨k', hk', rfl⟩ := Finset.mem_map.mp ho
    obtain ⟨i, hi⟩ := h.mem_keys.mp hk'
    refine Finset.mem_image.mpr ⟨i, Finset.mem_erase.mpr ⟨?_, Finset.mem_univ i⟩, hi⟩
    rintro rfl
    rw [hj] at hi
    simp at hi
  calc m.map.keys.card = (m.map.keys.map Function.Embedding.some).card :=
        (Finset.card_map _).symm
    _ ≤ ((Finset.univ.erase j).image fun i => P.key (t i)).card := Finset.card_le_card hsub
    _ ≤ (Finset.univ.erase j).card := Finset.card_image_le
    _ < n := by
      rw [Finset.card_erase_of_mem (Finset.mem_univ j), Finset.card_univ, Fintype.card_fin]
      exact Nat.sub_lt j.pos Nat.one_pos

/-- Without an empty slot there is none: the slots have distinct keys. -/
theorem Probing.Represents.le_card (h : P.Represents val t m)
    (hfull : ∀ j, P.key (t j) ≠ none) : n ≤ m.map.keys.card := by
  have hinj : Function.Injective fun i => P.key (t i) := by
    intro i j hij
    obtain ⟨k', hi⟩ := Option.ne_none_iff_exists'.mp (hfull i)
    have hj : P.key (t j) = some k' := hij.symm.trans hi
    exact Option.some.inj ((h.wf i k' hi).symm.trans (h.wf j k' hj))
  have hsub : Finset.univ.image (fun i => P.key (t i)) ⊆
      m.map.keys.map Function.Embedding.some := by
    intro o ho
    obtain ⟨i, -, rfl⟩ := Finset.mem_image.mp ho
    obtain ⟨k', hi⟩ := Option.ne_none_iff_exists'.mp (hfull i)
    rw [hi]
    exact Finset.mem_map_of_mem _ (h.mem_keys.mpr ⟨i, hi⟩)
  calc n = (Finset.univ.image fun i => P.key (t i)).card := by
        rw [Finset.card_image_of_injective _ hinj, Finset.card_univ, Fintype.card_fin]
    _ ≤ (m.map.keys.map Function.Embedding.some).card := Finset.card_le_card hsub
    _ = m.map.keys.card := Finset.card_map _

/-- The search ends for the keys that are stored, and for others while there is room. -/
theorem Probing.Represents.stop_ne_none (h : P.Represents val t m) :
    P.stop t k ≠ none ↔ m.Takes k := by
  unfold BoundedMap.Takes
  constructor
  · intro hstop
    obtain ⟨j, hj⟩ := Option.ne_none_iff_exists'.mp hstop
    rcases stop_ends hj with hnone | hsome
    · exact .inr (h.card_lt hnone)
    · exact .inl (h.mem_keys.mpr ⟨j, hsome⟩)
  · intro htakes hstop
    rw [stop_eq_none] at hstop
    rcases htakes with hmem | hroom
    · obtain ⟨j, hj⟩ := h.mem_keys.mp hmem
      exact (hstop j).2 hj
    · exact absurd (h.le_card fun j => (hstop j).1) (Nat.not_le.mpr hroom)

/-- An entry without a key in an empty slot changes no answer. -/
theorem Probing.Represents.update_empty (h : P.Represents val t m) {j : Fin n}
    (hj : P.key (t j) = none) (ha : P.key a = none) :
    P.Represents val (Function.update t j a) m := by
  have hkey : ∀ i, P.key (Function.update t j a i) = P.key (t i) := by
    intro i
    by_cases hi : i = j
    · rw [hi, Function.update_self, ha, hj]
    · rw [Function.update_of_ne hi]
  have hends : ∀ k i, P.ends (Function.update t j a) k i = P.ends t k i := by
    intro k i
    unfold ends
    rw [hkey]
  have hstop : ∀ k, P.stop (Function.update t j a) k = P.stop t k := by
    intro k
    unfold stop
    rw [funext (hends k)]
  refine ⟨fun i k hi => ?_, fun k => ?_⟩
  · rw [hstop]
    exact h.wf i k (hkey i ▸ hi)
  · rw [← h.lookup]
    unfold find
    rw [hstop]
    congr 2
    funext i
    rw [hkey]
    split
    · rename_i hi
      have hne : i ≠ j := by
        rintro rfl
        rw [hj] at hi
        simp at hi
      rw [Function.update_of_ne hne]
    · rfl

theorem Probing.Represents.insert (h : P.Represents val t m) (hkey : P.key a = some k) :
    P.Represents val (P.insert t k a) (m.insert k (val a)) := by
  refine ⟨h.wf.insert hkey, fun k' => ?_⟩
  rw [h.wf.find_insert hkey, BoundedMap.lookup_insert, ← h.lookup]
  simp only [h.stop_ne_none]
  split
  · rfl
  · rfl

end linear_probing
