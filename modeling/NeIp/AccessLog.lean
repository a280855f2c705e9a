-- Computations that log what they touch of a buffer: the bytes they read and
-- the lengths they hand to a copy. The log says nothing about the result, and
-- a computation is within a frame when every access it logs is.
import Mathlib.Data.List.Basic

namespace access_log

/-- One access: the `len` bytes from `off` on are read, or `len` is handed to `memcpy` or
`memmove`. -/
inductive Access where
  | load (off len : Nat)
  | copy (len : Nat)
  deriving DecidableEq, Repr

/-- Inside a frame of `n` bytes: only bytes of the frame are read, and no copy is longer. -/
def Access.Fits (n : Nat) : Access → Prop
  | .load off len => ∀ i, off ≤ i → i < off + len → i < n
  | .copy len => len ≤ n

/-- A result with the accesses that led to it, in order. -/
structure Logged (α : Type) where
  val : α
  log : List Access

instance : Monad Logged where
  pure a := ⟨a, []⟩
  bind m f := ⟨(f m.val).val, m.log ++ (f m.val).log⟩

/-- The `len` bytes from `off` on are read. -/
def load (off len : Nat) : Logged Unit := ⟨(), [.load off len]⟩

/-- A copy of `len` bytes from elsewhere. -/
def copy (len : Nat) : Logged Unit := ⟨(), [.copy len]⟩

/-- A copy of the `len` bytes from `off` on. -/
def copy_from (off len : Nat) : Logged Unit := ⟨(), [.copy len, .load off len]⟩

def Within {α : Type} (n : Nat) (m : Logged α) : Prop := ∀ a ∈ m.log, a.Fits n

variable {α β : Type} {n : Nat}

/-! ## Results -/

@[simp] theorem val_pure (a : α) : (pure a : Logged α).val = a := rfl

@[simp] theorem val_bind (m : Logged α) (f : α → Logged β) : (m >>= f).val = (f m.val).val := rfl

@[simp] theorem val_ite (c : Prop) [Decidable c] (m m' : Logged α) :
    (if c then m else m').val = if c then m.val else m'.val := apply_ite _ _ _ _

/-- A search whose test is logged finds what it finds without the log. -/
theorem val_findM? (p : α → Logged Bool) (l : List α) :
    (l.findM? p).val = l.find? fun a => (p a).val := by
  induction l with
  | nil => rfl
  | cons a l ih =>
    simp only [List.findM?, val_bind, List.find?_cons]
    cases (p a).val with
    | true => rfl
    | false => exact ih

/-! ## Accesses -/

theorem fits_load_iff {off len : Nat} :
    (Access.load off len).Fits n ↔ len = 0 ∨ off + len ≤ n := by
  unfold Access.Fits
  constructor
  · intro h
    rcases Nat.eq_zero_or_pos len with h0 | h0
    · exact Or.inl h0
    · have := h (off + len - 1) (by omega) (by omega)
      exact Or.inr (by omega)
  · intro h i h1 h2
    omega

@[simp] theorem within_pure (a : α) : Within n (pure a : Logged α) := by
  intro x hx
  cases hx

@[simp] theorem within_bind {m : Logged α} {f : α → Logged β} :
    Within n (m >>= f) ↔ Within n m ∧ Within n (f m.val) := List.forall_mem_append

@[simp] theorem within_load {off len : Nat} :
    Within n (load off len) ↔ len = 0 ∨ off + len ≤ n := by
  rw [← fits_load_iff]
  exact List.forall_mem_singleton

@[simp] theorem within_copy {len : Nat} : Within n (copy len) ↔ len ≤ n :=
  List.forall_mem_singleton

@[simp] theorem within_copy_from {off len : Nat} :
    Within n (copy_from off len) ↔ len ≤ n ∧ (len = 0 ∨ off + len ≤ n) := by
  rw [← fits_load_iff]
  exact List.forall_mem_cons.trans (and_congr_right fun _ => List.forall_mem_singleton)

/-- A search is within a frame when each of its tests is. -/
theorem within_findM? {p : α → Logged Bool} {l : List α} (h : ∀ a ∈ l, Within n (p a)) :
    Within n (l.findM? p) := by
  induction l with
  | nil => exact within_pure none
  | cons a l ih =>
    simp only [List.findM?, within_bind]
    refine ⟨h a (by simp), ?_⟩
    cases (p a).val with
    | true => exact within_pure (some a)
    | false => exact ih fun b hb => h b (List.mem_cons_of_mem _ hb)

end access_log
