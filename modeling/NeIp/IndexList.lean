-- Lists of indices into a table: what they read, and how they move when the table
-- becomes a part of a longer one.
import Mathlib.Data.List.Nodup

namespace index_list

variable {α β : Type}

/-- The entries that the indices name, in their order; an index out of range names none. -/
def reads (table : List α) (is : List Nat) : List α := is.filterMap (table[·]?)

/-- The part stands in the table from `base` on. -/
def Holds (table : List α) (base : Nat) (part : List α) : Prop :=
  ∀ i, i < part.length → table[base + i]? = part[i]?

/-- The indices of a part of `n` entries that stands from `base` on. -/
def relocate (base n : Nat) (is : List Nat) : List Nat :=
  is.filterMap ((List.range' base n)[·]?)

/-! ## Parts of a table -/

theorem holds_append (pre part post : List α) : Holds (pre ++ part ++ post) pre.length part := by
  intro i hi
  rw [List.append_assoc, List.getElem?_append_right (Nat.le_add_right _ _), Nat.add_sub_cancel_left,
    List.getElem?_append_left hi]

theorem Holds.prefix {table table' : List α} {base : Nat} {part : List α}
    (h : Holds table base part) (hpre : table <+: table') : Holds table' base part := by
  obtain ⟨later, rfl⟩ := hpre
  intro i hi
  have hread := h i hi
  rw [List.getElem?_eq_getElem hi] at hread
  obtain ⟨hlt, -⟩ := List.getElem?_eq_some_iff.mp hread
  rw [List.getElem?_append_left hlt]
  exact h i hi

/-! ## What the indices read -/

theorem reads_map (f : α → β) (table : List α) (is : List Nat) :
    (reads table is).map f = reads (table.map f) is := by
  unfold reads
  rw [List.map_filterMap]
  refine List.filterMap_congr fun i _ => ?_
  rw [List.getElem?_map]

/-- The first index whose entry has a property leads to the first such entry. -/
theorem first_index_entry (p : α → Bool) (table : List α) (is : List Nat) :
    (is.find? fun i => (table[i]?).any p).map (table[·]?) = ((reads table is).find? p).map some := by
  unfold reads
  rw [List.find?_filterMap]
  cases hfind : is.find? fun i => (table[i]?).any p with
  | none => rfl
  | some i =>
    have hentry := List.find?_some hfind
    rw [Option.any_eq_true] at hentry
    obtain ⟨a, ha, -⟩ := hentry
    simp [ha]

theorem relocated_index (base n i : Nat) :
    (List.range' base n)[i]? = if i < n then some (base + i) else none := by
  by_cases hi : i < n
  · rw [if_pos hi, List.getElem?_range' hi, Nat.one_mul]
  · rw [if_neg hi, List.getElem?_eq_none_iff.mpr]
    rw [List.length_range']
    omega

/-- Relocated indices read from the table what they read from the part. -/
theorem reads_relocate {table : List α} {base : Nat} {part : List α} (h : Holds table base part)
    (is : List Nat) : reads table (relocate base part.length is) = reads part is := by
  unfold reads relocate
  rw [List.filterMap_filterMap]
  refine List.filterMap_congr fun i _ => ?_
  rw [relocated_index]
  by_cases hi : i < part.length
  · rw [if_pos hi]
    exact h i hi
  · rw [if_neg hi]
    exact (List.getElem?_eq_none_iff.mpr (Nat.le_of_not_lt hi)).symm

theorem mem_relocate {base n i : Nat} {is : List Nat} (hi : i < n) :
    base + i ∈ relocate base n is ↔ i ∈ is := by
  unfold relocate
  rw [List.mem_filterMap]
  constructor
  · rintro ⟨j, hj, hread⟩
    rw [relocated_index] at hread
    split at hread
    · have hsame := Option.some.inj hread
      obtain rfl : j = i := by omega
      exact hj
    · simp at hread
  · intro hmem
    exact ⟨i, hmem, by rw [relocated_index, if_pos hi]⟩

theorem relocate_range {base n i : Nat} {is : List Nat} (h : i ∈ relocate base n is) :
    base ≤ i ∧ i < base + n := by
  obtain ⟨j, -, hread⟩ := List.mem_filterMap.mp h
  rw [relocated_index] at hread
  split at hread
  · obtain rfl := Option.some.inj hread
    omega
  · simp at hread

/-- Indices of a table read the same from a longer one. -/
theorem reads_of_longer {table table' : List α} {is : List Nat} (hpre : table <+: table')
    (hin : ∀ i ∈ is, i < table.length) : reads table' is = reads table is := by
  obtain ⟨later, rfl⟩ := hpre
  refine List.filterMap_congr fun i hi => ?_
  rw [List.getElem?_append_left (hin i hi)]

/-- Indices mapped to those of the same entries in another table read the same there. -/
theorem reads_mapped {table table' : List α} {map : List Nat}
    (h : map.map (table'[·]?) = table.map some) (is : List Nat) :
    reads table' (is.filterMap (map[·]?)) = reads table is := by
  unfold reads
  rw [List.filterMap_filterMap]
  refine List.filterMap_congr fun i _ => ?_
  have hi := congrArg (fun l => (l[i]?).bind id) h
  rw [List.getElem?_map, List.getElem?_map, Option.bind_map, Option.bind_map] at hi
  rw [show (map[i]?).bind (table'[·]?) = (table[i]?).bind some from hi, Option.bind_fun_some]

/-- All the indices of a table read it. -/
theorem reads_range (table : List α) : reads table (List.range table.length) = table := by
  have hall : ∀ n, reads table (List.range n) = table.take n := by
    intro n
    induction n with
    | zero => rfl
    | succ n ih =>
      have hread : reads table (List.range (n + 1)) =
          reads table (List.range n) ++ reads table [n] := by
        unfold reads
        rw [List.range_succ, List.filterMap_append]
      rw [hread, ih, List.take_add_one]
      unfold reads
      cases hn : table[n]? <;> simp [hn]
  rw [hall, List.take_length]

theorem mem_reads_iff {table : List α} {i : Nat} {a : α} (hnd : table.Nodup)
    (hi : table[i]? = some a) (is : List Nat) : a ∈ reads table is ↔ i ∈ is := by
  unfold reads
  rw [List.mem_filterMap]
  constructor
  · rintro ⟨j, hj, hread⟩
    obtain ⟨hjlt, hja⟩ := List.getElem?_eq_some_iff.mp hread
    obtain ⟨hilt, hia⟩ := List.getElem?_eq_some_iff.mp hi
    obtain rfl := (List.Nodup.getElem_inj_iff hnd).mp (hja.trans hia.symm)
    exact hj
  · intro hmem
    exact ⟨i, hmem, hi⟩

/-! ## A search whose hits are all in one part -/

theorem findIdx?_congr {p q : α → Bool} {l : List α} (h : ∀ a ∈ l, p a = q a) :
    l.findIdx? p = l.findIdx? q := by
  induction l with
  | nil => rfl
  | cons a l ih =>
    rw [List.findIdx?_cons, List.findIdx?_cons, h a List.mem_cons_self,
      ih fun b hb => h b (List.mem_cons_of_mem a hb)]

theorem findIdx?_part {p : α → Bool} {pre part post : List α} (hpre : ∀ a ∈ pre, p a = false)
    (hpost : ∀ a ∈ post, p a = false) :
    (pre ++ part ++ post).findIdx? p = (part.findIdx? p).map (pre.length + ·) := by
  have hnone : pre.findIdx? p = none := List.findIdx?_eq_none_iff.mpr hpre
  have hnone' : post.findIdx? p = none := List.findIdx?_eq_none_iff.mpr hpost
  rw [List.append_assoc, List.findIdx?_append, List.findIdx?_append, hnone, hnone']
  simp [Nat.add_comm]

/-! ## Entries written at indices -/

/-- The table after entries have been written at indices, one after the other. -/
def write_all (table : List α) (ws : List (Nat × α)) : List α :=
  ws.foldl (fun table w => table.set w.1 w.2) table

theorem write_all_append (table : List α) (ws vs : List (Nat × α)) :
    write_all table (ws ++ vs) = write_all (write_all table ws) vs := List.foldl_append

/-- An index has what was written there last. -/
theorem getElem?_write_all (table : List α) (ws : List (Nat × α)) (i : Nat) :
    (write_all table ws)[i]? =
      (table[i]?).map (((ws.filter (·.1 == i)).map (·.2)).getLast?.getD ·) := by
  induction ws generalizing table with
  | nil =>
    show table[i]? = (table[i]?).map fun a => a
    rw [Option.map_id_fun']
    rfl
  | cons w ws ih =>
    rw [show write_all table (w :: ws) = write_all (table.set w.1 w.2) ws from rfl, ih,
      List.getElem?_set]
    by_cases hw : w.1 = i
    · rw [if_pos hw, List.filter_cons_of_pos (by rw [hw, beq_self_eq_true]), List.map_cons,
        List.getLast?_cons, hw]
      split
      · rename_i hlt
        rw [List.getElem?_eq_getElem hlt]
        rfl
      · rename_i hlt
        rw [List.getElem?_eq_none (Nat.le_of_not_lt hlt)]
        rfl
    · rw [if_neg hw, List.filter_cons_of_neg (by rw [beq_iff_eq]; exact hw)]

end index_list
