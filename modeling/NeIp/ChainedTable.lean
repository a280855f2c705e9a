-- Tables of chained buckets: an entry is in the bucket that its key hashes to, and no key has
-- two entries. Each operation changes the lookups of one key, or drops entries.
import Mathlib.Data.List.Nodup

namespace chained_table

variable {α κ : Type*}

/-- How a table finds its entries. -/
structure Keyed (α κ : Type*) where
  key : α → κ
  hash : κ → Nat

structure Keyed.Wf (K : Keyed α κ) (t : Nat → List α) : Prop where
  nodup : ∀ i, ((t i).map K.key).Nodup
  placed : ∀ i, ∀ e ∈ t i, K.hash (K.key e) = i

/-- Only the entries that `p` accepts stay. -/
def retain (p : α → Bool) (t : Nat → List α) (i : Nat) : List α := (t i).filter p

variable {K : Keyed α κ} {t : Nat → List α}

/-- A table that differs from another in one bucket at most. -/
theorem set_eq {u : Nat → List α} {i : Nat} {bucket : List α} (hi : bucket = u i)
    (hne : ∀ j, j ≠ i → t j = u j) : (fun j => if j = i then bucket else t j) = u := by
  funext j
  by_cases hj : j = i
  · subst hj
    rw [if_pos rfl]
    exact hi
  · rw [if_neg hj]
    exact hne j hj

theorem Keyed.Wf.empty : K.Wf fun _ => [] := by
  refine ⟨fun i => List.nodup_nil, fun i e he => ?_⟩
  simp at he

theorem Keyed.Wf.of_sublist (h : K.Wf t) {u : Nat → List α} (hs : ∀ i, (u i).Sublist (t i)) :
    K.Wf u :=
  ⟨fun i => (h.nodup i).sublist ((hs i).map _), fun i e he => h.placed i e ((hs i).subset he)⟩

/-- Entries that change and keep their keys stay well placed. -/
theorem Keyed.Wf.of_keys (h : K.Wf t) {u : Nat → List α}
    (hu : ∀ i, (u i).map K.key = (t i).map K.key) : K.Wf u := by
  refine ⟨fun i => by rw [hu]; exact h.nodup i, fun i e he => ?_⟩
  have hmem : K.key e ∈ (t i).map K.key := by
    rw [← hu]
    exact List.mem_map_of_mem he
  obtain ⟨a, ha, hk⟩ := List.mem_map.mp hmem
  rw [← hk]
  exact h.placed i a ha

theorem Keyed.Wf.retain (h : K.Wf t) (p : α → Bool) : K.Wf (retain p t) :=
  h.of_sublist fun _ => List.filter_sublist

/-- Two entries of one key are one entry in one place. -/
theorem Keyed.Wf.unique (h : K.Wf t) {i j m n : Nat} {a b : α} (ha : (t i)[m]? = some a)
    (hb : (t j)[n]? = some b) (hk : K.key a = K.key b) : i = j ∧ m = n := by
  have hi := h.placed i a (List.mem_of_getElem? ha)
  have hj := h.placed j b (List.mem_of_getElem? hb)
  rw [hk, hj] at hi
  subst hi
  refine ⟨rfl, ?_⟩
  have hlt := (List.getElem?_eq_some_iff.mp ha).1
  refine (List.getElem?_inj (l := (t j).map K.key) (by rw [List.length_map]; exact hlt)
    (h.nodup j)).mp ?_
  rw [List.getElem?_map, List.getElem?_map, ha, hb, Option.map_some, Option.map_some, hk]

/-- A sweep over all the buckets. -/
theorem Keyed.Wf.sweep_eq (h : K.Wf t) {n : Nat} (hn : ∀ k, K.hash k < n) (p : α → Bool) :
    (List.range n).foldl (fun t i j => if j = i then (t i).filter p else t j) t =
      chained_table.retain p t := by
  have hfold : ∀ m, (List.range m).foldl (fun t i j => if j = i then (t i).filter p else t j) t =
      fun j => if j < m then (t j).filter p else t j := by
    intro m
    induction m with
    | zero => rfl
    | succ m ih =>
      rw [List.range_succ, List.foldl_append, ih, List.foldl_cons, List.foldl_nil]
      funext j
      by_cases hj : j = m
      · subst hj
        simp
      · simp only [if_neg hj, show j < m + 1 ↔ j < m by omega]
  rw [hfold]
  funext j
  unfold chained_table.retain
  split
  · rfl
  · -- nothing hashes to it
    rename_i hj
    cases hbucket : t j with
    | nil => rfl
    | cons e rest =>
      have he := h.placed j e (by rw [hbucket]; exact List.mem_cons_self)
      exact absurd (he ▸ hn (K.key e)) hj

variable [DecidableEq κ]

/-! ## The operations -/

/-- The entry of a key: the first one in its bucket that has it. -/
def Keyed.find (K : Keyed α κ) (t : Nat → List α) (k : κ) : Option α :=
  (t (K.hash k)).find? fun e => K.key e == k

/-- The entry of `k` is changed, if there is one. -/
def Keyed.modify (K : Keyed α κ) (k : κ) (g : α → α) (t : Nat → List α) (i : Nat) : List α :=
  (t i).map fun e => if K.key e = k then g e else e

/-- A new entry comes first in its bucket. -/
def Keyed.insert (K : Keyed α κ) (e : α) (t : Nat → List α) (i : Nat) : List α :=
  if i = K.hash (K.key e) then e :: t i else t i

def Keyed.remove (K : Keyed α κ) (k : κ) (t : Nat → List α) (i : Nat) : List α :=
  (t i).filter fun e => K.key e != k

/-! ## What they do to the lookups -/

theorem Keyed.find_some {k : κ} {e : α} (h : K.find t k = some e) :
    e ∈ t (K.hash k) ∧ K.key e = k :=
  ⟨List.mem_of_find?_eq_some h, by simpa using List.find?_some h⟩

theorem Keyed.find_none {k : κ} : K.find t k = none ↔ ∀ e ∈ t (K.hash k), K.key e ≠ k := by
  unfold find
  rw [List.find?_eq_none]
  simp only [beq_iff_eq, ne_eq]

theorem Keyed.key_modified {k : κ} {g : α → α} (hg : ∀ e, K.key e = k → K.key (g e) = k) (e : α) :
    K.key (if K.key e = k then g e else e) = K.key e := by
  split
  · rw [hg e ‹_›]
    exact (Eq.symm ‹_›)
  · rfl

theorem Keyed.find_modify {k : κ} {g : α → α} (hg : ∀ e, K.key e = k → K.key (g e) = k) (k' : κ) :
    K.find (K.modify k g t) k' = if k' = k then (K.find t k).map g else K.find t k' := by
  unfold find modify
  rw [List.find?_map]
  simp only [Function.comp_def, Keyed.key_modified hg]
  by_cases hk : k' = k
  · subst hk
    rw [if_pos rfl]
    cases hf : (t (K.hash k')).find? fun e => K.key e == k' with
    | none => rfl
    | some e =>
      have he : K.key e = k' := by simpa using List.find?_some hf
      rw [Option.map_some, Option.map_some, if_pos he]
  · rw [if_neg hk]
    cases hf : (t (K.hash k')).find? fun e => K.key e == k' with
    | none => rfl
    | some e =>
      have he : K.key e = k' := by simpa using List.find?_some hf
      rw [Option.map_some, he, if_neg hk]

theorem Keyed.find_insert (e : α) (k : κ) :
    K.find (K.insert e t) k = if k = K.key e then some e else K.find t k := by
  unfold find insert
  by_cases hk : k = K.key e
  · subst hk
    rw [if_pos rfl, if_pos rfl]
    exact List.find?_cons_of_pos (beq_self_eq_true _)
  · rw [if_neg hk]
    split
    · exact List.find?_cons_of_neg (by simpa using Ne.symm hk)
    · rfl

theorem Keyed.find_remove (k k' : κ) :
    K.find (K.remove k t) k' = if k' = k then none else K.find t k' := by
  unfold find remove
  rw [List.find?_filter]
  split
  · rename_i hk
    rw [List.find?_eq_none]
    intro e _
    simp [hk]
  · rename_i hk
    congr 1
    funext e
    by_cases he : K.key e = k'
    · rw [he]
      simp [hk]
    · simp [he]

/-- Where a key has one entry only, it stays or it is gone. -/
theorem Keyed.Wf.find_retain (h : K.Wf t) (p : α → Bool) (k : κ) :
    K.find (chained_table.retain p t) k = (K.find t k).filter p := by
  unfold Keyed.find chained_table.retain
  have hnodup := h.nodup (K.hash k)
  generalize t (K.hash k) = bucket at hnodup ⊢
  induction bucket with
  | nil => rfl
  | cons e rest ih =>
    rw [List.map_cons, List.nodup_cons] at hnodup
    by_cases he : K.key e = k
    · -- the others have other keys
      have hrest : rest.find? (fun e => K.key e == k) = none := by
        rw [List.find?_eq_none]
        intro a ha hak
        refine hnodup.1 ?_
        rw [he, ← beq_iff_eq.mp hak]
        exact List.mem_map_of_mem ha
      rw [List.find?_cons_of_pos (by simpa using he), List.filter_cons]
      cases hp : p e with
      | true =>
        rw [if_pos rfl, List.find?_cons_of_pos (by simpa using he), Option.filter_some_pos hp]
      | false =>
        rw [if_neg Bool.false_ne_true, ih hnodup.2, hrest, Option.filter_some_neg (by simp [hp])]
        rfl
    · rw [List.find?_cons_of_neg (by simpa using he), List.filter_cons]
      split
      · rw [List.find?_cons_of_neg (by simpa using he), ih hnodup.2]
      · exact ih hnodup.2

/-! ## They keep the table well formed -/

theorem Keyed.Wf.remove (h : K.Wf t) (k : κ) : K.Wf (K.remove k t) :=
  h.of_sublist fun _ => List.filter_sublist

theorem Keyed.Wf.modify (h : K.Wf t) {k : κ} {g : α → α} (hg : ∀ e, K.key e = k → K.key (g e) = k) :
    K.Wf (K.modify k g t) := by
  refine h.of_keys fun i => ?_
  unfold Keyed.modify
  rw [List.map_map]
  simp only [Function.comp_def, Keyed.key_modified hg]

theorem Keyed.Wf.insert (h : K.Wf t) {e : α} (hnew : K.find t (K.key e) = none) :
    K.Wf (K.insert e t) := by
  refine ⟨fun i => ?_, fun i a ha => ?_⟩
  · unfold Keyed.insert
    split
    · rename_i hi
      subst hi
      rw [List.map_cons, List.nodup_cons]
      refine ⟨fun hmem => ?_, h.nodup _⟩
      obtain ⟨a, ha, hk⟩ := List.mem_map.mp hmem
      exact Keyed.find_none.mp hnew a ha hk
    · exact h.nodup i
  · unfold Keyed.insert at ha
    split at ha
    · rename_i hi
      rcases List.mem_cons.mp ha with rfl | hmem
      · exact hi.symm
      · exact h.placed i a hmem
    · exact h.placed i a ha

/-! ## What a well formed table holds -/

/-- The entries are those that lookups find. -/
theorem Keyed.Wf.mem_iff (h : K.Wf t) {i : Nat} {e : α} :
    e ∈ t i ↔ K.find t (K.key e) = some e ∧ K.hash (K.key e) = i := by
  constructor
  · intro he
    have hi := h.placed i e he
    refine ⟨?_, hi⟩
    subst hi
    cases hf : K.find t (K.key e) with
    | none => exact absurd rfl (Keyed.find_none.mp hf e he)
    | some a =>
      obtain ⟨ha, hk⟩ := Keyed.find_some hf
      exact congrArg some (List.inj_on_of_nodup_map (h.nodup _) ha he hk)
  · rintro ⟨hf, rfl⟩
    exact (Keyed.find_some hf).1

/-- A change of the bucket of a key that touches its entries only is a change of its entry. -/
theorem Keyed.Wf.modify_eq (h : K.Wf t) (k : κ) (g : α → α) :
    K.modify k g t = fun i =>
      if i = K.hash k then (t i).map fun e => if K.key e = k then g e else e else t i := by
  funext i
  unfold Keyed.modify
  split
  · rfl
  · rename_i hi
    refine (List.map_congr_left fun e he => ?_).trans (List.map_id _)
    rw [if_neg fun hk => hi ?_]
    · rfl
    · rw [← hk]
      exact (h.placed i e he).symm

/-- The first entry of a key is all of them. -/
theorem eraseP_eq_filter {key : α → κ} (k : κ) {bucket : List α} (hnodup : (bucket.map key).Nodup) :
    bucket.eraseP (key · == k) = bucket.filter (key · != k) := by
  induction bucket with
  | nil => rfl
  | cons e rest ih =>
    rw [List.map_cons, List.nodup_cons] at hnodup
    rw [List.eraseP_cons, List.filter_cons]
    by_cases he : key e = k
    · rw [he, beq_self_eq_true, bne_self_eq_false, cond_true, if_neg Bool.false_ne_true]
      refine (List.filter_eq_self.mpr fun a ha => bne_iff_ne.mpr fun hk => hnodup.1 ?_).symm
      rw [he, ← hk]
      exact List.mem_map_of_mem ha
    · rw [beq_false_of_ne he, cond_false, if_pos (bne_iff_ne.mpr he), ih hnodup.2]

theorem Keyed.Wf.remove_eq (h : K.Wf t) (k : κ) :
    K.remove k t = fun i => if i = K.hash k then (t i).filter fun e => K.key e != k else t i := by
  funext i
  unfold Keyed.remove
  split
  · rfl
  · rename_i hi
    rw [List.filter_eq_self]
    intro e he
    rw [bne_iff_ne]
    intro hk
    exact hi (by rw [← hk]; exact (h.placed i e he).symm)

end chained_table
