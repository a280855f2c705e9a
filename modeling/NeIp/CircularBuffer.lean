-- A buffer of `n` slots with a head and a tail, of which one always stays free, as
-- the queue that it holds.
import Mathlib.Data.List.Basic
import Mathlib.Data.Nat.ModEq
import Mathlib.Logic.Function.Basic

namespace circular_buffer

variable {α : Type*} {n : Nat}

structure Ring (α : Type*) (n : Nat) where
  slots : Nat → α
  head : Nat
  tail : Nat
  head_lt : head < n
  tail_lt : tail < n

/-- Nothing behind a new tail; the slots are left as they are. -/
def Ring.push (r : Ring α n) (a : α) : Option (Ring α n) :=
  if (r.tail + 1) % n = r.head then none
  else some { r with
    slots := Function.update r.slots r.tail a
    tail := (r.tail + 1) % n
    tail_lt := Nat.mod_lt _ (Nat.zero_lt_of_lt r.tail_lt) }

def Ring.pop (r : Ring α n) : Option (α × Ring α n) :=
  if r.head = r.tail then none
  else some (r.slots r.head, { r with
    head := (r.head + 1) % n
    head_lt := Nat.mod_lt _ (Nat.zero_lt_of_lt r.head_lt) })

def Ring.size (r : Ring α n) : Nat := (r.tail + n - r.head) % n

/-- The queue, oldest first. -/
def Ring.contents (r : Ring α n) : List α :=
  (List.range r.size).map fun k => r.slots ((r.head + k) % n)

theorem Ring.length_contents (r : Ring α n) : r.contents.length = r.size := by
  rw [contents, List.length_map, List.length_range]

theorem Ring.size_eq (r : Ring α n) :
    r.size = if r.head ≤ r.tail then r.tail - r.head else r.tail + n - r.head := by
  have hh := r.head_lt
  have ht := r.tail_lt
  unfold size
  split
  · rw [show r.tail + n - r.head = r.tail - r.head + n by omega, Nat.add_mod_right,
      Nat.mod_eq_of_lt (by omega)]
  · rw [Nat.mod_eq_of_lt (by omega)]

theorem Ring.size_lt (r : Ring α n) : r.size < n := Nat.mod_lt _ (Nat.zero_lt_of_lt r.head_lt)

/-- The queue ends where the tail is. -/
theorem Ring.tail_eq (r : Ring α n) : (r.head + r.size) % n = r.tail := by
  have hh := r.head_lt
  have ht := r.tail_lt
  rw [r.size_eq]
  split
  · rw [Nat.mod_eq_of_lt (by omega)]
    omega
  · rw [show r.head + (r.tail + n - r.head) = r.tail + n by omega, Nat.add_mod_right,
      Nat.mod_eq_of_lt ht]

theorem succ_mod {i : Nat} (h : i < n) : (i + 1) % n = if i + 1 = n then 0 else i + 1 := by
  split
  · rename_i hn
    rw [hn, Nat.mod_self]
  · exact Nat.mod_eq_of_lt (by omega)

/-- A push finds no slot exactly when one is left. -/
theorem Ring.push_none_iff (r : Ring α n) (a : α) :
    r.push a = none ↔ r.contents.length + 1 = n := by
  have hh := r.head_lt
  have ht := r.tail_lt
  rw [r.length_contents, r.size_eq]
  have hnext := succ_mod ht
  unfold push
  constructor
  · intro h
    split at h
    · split at hnext <;> split <;> omega
    · simp at h
  · intro h
    refine if_pos ?_
    split at h <;> split at hnext <;> omega

theorem Ring.push_contents {r r' : Ring α n} {a : α} (h : r.push a = some r') :
    r'.contents = r.contents ++ [a] := by
  have hh := r.head_lt
  have ht := r.tail_lt
  have hlen : r.contents.length + 1 ≠ n := by
    rw [Ne, ← r.push_none_iff a, h]
    simp
  rw [r.length_contents] at hlen
  unfold push at h
  split at h
  · simp at h
  obtain rfl := Option.some.inj h
  have hsize : Ring.size { r with
      slots := Function.update r.slots r.tail a
      tail := (r.tail + 1) % n
      tail_lt := Nat.mod_lt _ (Nat.zero_lt_of_lt r.tail_lt) } = r.size + 1 := by
    have hlt := r.size_lt
    have hnext := succ_mod ht
    rw [r.size_eq] at hlen hlt
    rw [size_eq, size_eq]
    dsimp only at *
    split at hlen <;> split at hnext <;> split <;> omega
  unfold contents
  rw [hsize, List.range_succ, List.map_append, List.map_singleton]
  dsimp only
  rw [r.tail_eq, Function.update_self]
  congr 1
  refine List.map_congr_left fun k hk => Function.update_of_ne ?_ _ _
  -- the slots before the tail are others
  rw [List.mem_range] at hk
  have hlt := r.size_lt
  have htail := r.tail_eq
  intro heq
  have hk' : (r.head + k) % n = (r.head + r.size) % n := heq.trans htail.symm
  have : k = r.size := Nat.ModEq.eq_of_lt_of_lt (Nat.ModEq.add_left_cancel' r.head hk') (by omega) hlt
  omega

theorem Ring.pop_contents {r r' : Ring α n} {a : α} (h : r.pop = some (a, r')) :
    r.contents = a :: r'.contents := by
  have hh := r.head_lt
  have ht := r.tail_lt
  unfold pop at h
  split at h
  · simp at h
  rename_i hne
  obtain ⟨rfl, rfl⟩ := Prod.mk.inj (Option.some.inj h)
  have hsize : r.size = Ring.size { r with
      head := (r.head + 1) % n
      head_lt := Nat.mod_lt _ (Nat.zero_lt_of_lt r.head_lt) } + 1 := by
    have hnext := succ_mod hh
    rw [size_eq, size_eq]
    dsimp only
    split at hnext <;> split <;> split <;> omega
  unfold contents
  rw [hsize, List.range_succ_eq_map, List.map_cons, List.map_map]
  refine congrArg₂ List.cons (by rw [Nat.add_zero, Nat.mod_eq_of_lt hh]) ?_
  refine List.map_congr_left fun k _ => ?_
  change r.slots ((r.head + (k + 1)) % n) = r.slots (((r.head + 1) % n + k) % n)
  rw [Nat.mod_add_mod, Nat.add_right_comm, Nat.add_assoc]

/-- A pop finds nothing only in an empty queue. -/
theorem Ring.contents_of_pop_none {r : Ring α n} (h : r.pop = none) : r.contents = [] := by
  unfold pop at h
  split at h
  · rename_i heq
    refine List.length_eq_zero_iff.mp ?_
    rw [r.length_contents, r.size_eq, if_pos (Nat.le_of_eq heq), heq, Nat.sub_self]
  · simp at h

end circular_buffer
