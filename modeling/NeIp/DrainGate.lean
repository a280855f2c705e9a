-- A gate that any number of readers go through and one writer closes. A reader
-- counts itself in and looks again whether the gate is open; the writer closes
-- the gate and waits until no reader is counted.
import Mathlib.Algebra.BigOperators.Ring.Finset
import Mathlib.Data.Fintype.Basic
import Mathlib.Tactic.Ring

namespace drain_gate

/-- Where a reader is: it waits until it finds the gate open, counts itself in, looks again,
and goes in or takes itself back. -/
inductive ReaderPc where
  | outside
  | waiting
  | passing
  | looking
  | inside
  | retreating
  deriving DecidableEq, Repr

inductive WriterPc where
  | idle
  | draining
  | exclusive
  deriving DecidableEq, Repr

structure Gate (ι : Type) where
  closed : Bool
  counter : Int
  readers : ι → ReaderPc
  writer : WriterPc

/-- An open gate with nobody inside. -/
def Gate.open (ι : Type) : Gate ι where
  closed := false
  counter := 0
  readers := fun _ => .outside
  writer := .idle

variable {ι : Type} [DecidableEq ι]

def Gate.move (g : Gate ι) (i : ι) (pc : ReaderPc) (counter : Int) : Gate ι :=
  { g with readers := Function.update g.readers i pc, counter := counter }

/-- The next atomic step of a reader. -/
def Gate.reader (g : Gate ι) (i : ι) : Gate ι :=
  match g.readers i with
  | .outside => g.move i .waiting g.counter
  | .waiting => g.move i (if g.closed then .waiting else .passing) g.counter
  | .passing => g.move i .looking (g.counter + 1)
  | .looking => g.move i (if g.closed then .retreating else .inside) g.counter
  | .inside => g.move i .outside (g.counter - 1)
  | .retreating => g.move i .waiting (g.counter - 1)

/-- The next atomic step of the writer. -/
def Gate.write (g : Gate ι) : Gate ι :=
  match g.writer with
  | .idle => { g with closed := true, writer := .draining }
  | .draining => if 0 < g.counter then g else { g with writer := .exclusive }
  | .exclusive => { g with closed := false, writer := .idle }

/-! ## The counter -/

/-- The readers that have counted themselves in: inside, or about to go in or back. -/
def ReaderPc.counted : ReaderPc → Bool
  | .looking | .inside | .retreating => true
  | _ => false

/-- The readers that are counted for a moment only. -/
def ReaderPc.transient : ReaderPc → Bool
  | .looking | .retreating => true
  | _ => false

def number [Fintype ι] (p : ReaderPc → Bool) (readers : ι → ReaderPc) : Nat :=
  (Finset.univ.filter fun i => p (readers i) = true).card

theorem number_counted [Fintype ι] (readers : ι → ReaderPc) :
    number ReaderPc.counted readers =
      number (· == .inside) readers + number ReaderPc.transient readers := by
  unfold number
  rw [← Finset.card_union_of_disjoint]
  · congr 1
    ext i
    simp only [Finset.mem_filter, Finset.mem_univ, true_and, Finset.mem_union]
    cases readers i <;> decide
  · rw [Finset.disjoint_filter]
    intro i _
    cases readers i <;> decide

/-- A move of one reader changes the number by what it changes for that reader. -/
theorem number_update [Fintype ι] (p : ReaderPc → Bool) (readers : ι → ReaderPc) (i : ι)
    (pc : ReaderPc) :
    (number p (Function.update readers i pc) : Int) + (if p (readers i) then 1 else 0) =
      number p readers + (if p pc then 1 else 0) := by
  have hsum : ∀ r : ι → ReaderPc, (number p r : Int) = ∑ j, if p (r j) then 1 else 0 := by
    intro r
    unfold number
    rw [Finset.card_filter]
    push_cast
    rfl
  rw [hsum, hsum, ← Finset.add_sum_erase _ _ (Finset.mem_univ i),
    ← Finset.add_sum_erase Finset.univ (fun j => if p (readers j) then (1 : Int) else 0)
      (Finset.mem_univ i)]
  have hrest : ∑ j ∈ Finset.univ.erase i,
      (if p (Function.update readers i pc j) then (1 : Int) else 0) =
      ∑ j ∈ Finset.univ.erase i, if p (readers j) then (1 : Int) else 0 := by
    refine Finset.sum_congr rfl fun j hj => ?_
    rw [Function.update_of_ne (Finset.ne_of_mem_erase hj)]
  rw [hrest, Function.update_self]
  ring

/-! ## The invariant -/

/-- The counter is right, the gate is closed while the writer is at work, and nobody is inside
while it works alone. -/
structure Inv [Fintype ι] (g : Gate ι) : Prop where
  counter : g.counter = number ReaderPc.counted g.readers
  closed : g.closed = true ↔ g.writer ≠ .idle
  exclusive : g.writer = .exclusive → ∀ i, g.readers i ≠ .inside

omit [DecidableEq ι] in
theorem inv_open [Fintype ι] : Inv (Gate.open ι) where
  counter := by
    have hnone : ∀ i ∈ Finset.univ, ¬ ((Gate.open ι).readers i).counted = true :=
      fun i _ => Bool.false_ne_true
    unfold number
    rw [Finset.filter_false_of_mem hnone]
    rfl
  closed := ⟨fun h => absurd h Bool.false_ne_true, fun h => absurd rfl h⟩
  exclusive := nofun

/-- A move by the difference that the pc makes keeps the counter right. -/
theorem counter_move [Fintype ι] {g : Gate ι} (h : g.counter = number ReaderPc.counted g.readers)
    {i : ι} {pc : ReaderPc} {n : Int}
    (hn : n + (if (g.readers i).counted then 1 else 0) = g.counter + (if pc.counted then 1 else 0)) :
    (g.move i pc n).counter = number ReaderPc.counted (g.move i pc n).readers := by
  have hnum := number_update ReaderPc.counted g.readers i pc
  show n = _
  rw [h] at hn
  unfold Gate.move
  dsimp only
  omega

/-- A step of a reader that does not go in, or goes in through an open gate. -/
theorem Inv.move [Fintype ι] {g : Gate ι} (h : Inv g) {i : ι} {pc : ReaderPc} {n : Int}
    (hn : n + (if (g.readers i).counted then 1 else 0) = g.counter + (if pc.counted then 1 else 0))
    (hpc : pc = .inside → g.closed = false) : Inv (g.move i pc n) where
  counter := counter_move h.counter hn
  closed := h.closed
  exclusive hx j := by
    show Function.update g.readers i pc j ≠ .inside
    by_cases hj : j = i
    · subst hj
      rw [Function.update_self]
      intro hin
      have hcl := h.closed.mpr (by rw [show g.writer = .exclusive from hx]; decide)
      rw [hpc hin] at hcl
      exact Bool.false_ne_true hcl
    · rw [Function.update_of_ne hj]
      exact h.exclusive hx j

theorem Inv.reader [Fintype ι] {g : Gate ι} (h : Inv g) (i : ι) : Inv (g.reader i) := by
  unfold Gate.reader
  cases hpc : g.readers i with
  | outside => exact h.move (by rw [hpc]; rfl) nofun
  | waiting =>
    cases hc : g.closed with
    | true => exact h.move (by rw [hpc]; rfl) nofun
    | false => exact h.move (by rw [hpc]; rfl) nofun
  | passing => exact h.move (by rw [hpc]; simp [ReaderPc.counted]) nofun
  | looking =>
    cases hc : g.closed with
    | true => exact h.move (by rw [hpc]; rfl) nofun
    | false => exact h.move (by rw [hpc]; rfl) fun _ => hc
  | inside => exact h.move (by rw [hpc]; simp [ReaderPc.counted]) nofun
  | retreating => exact h.move (by rw [hpc]; simp [ReaderPc.counted]) nofun

omit [DecidableEq ι] in
/-- The writer works alone once it has found nobody counted. -/
theorem Inv.write [Fintype ι] {g : Gate ι} (h : Inv g) : Inv g.write := by
  unfold Gate.write
  cases hw : g.writer with
  | idle => exact ⟨h.counter, by simp, by simp⟩
  | draining =>
    dsimp only
    split
    · exact h
    rename_i hzero
    refine ⟨h.counter, ?_, ?_⟩
    · have hcl := h.closed.mpr (by rw [hw]; decide)
      simp [hcl]
    · intro _ i hin
      have hpos : 0 < number ReaderPc.counted g.readers := by
        refine Finset.card_pos.mpr ⟨i, ?_⟩
        rw [Finset.mem_filter, show g.readers i = .inside from hin]
        exact ⟨Finset.mem_univ i, rfl⟩
      have hcount := h.counter
      omega
  | exclusive => exact ⟨h.counter, by simp, by simp⟩

/-! ## What a step leaves alone -/

theorem reader_other {g : Gate ι} {i j : ι} (h : j ≠ i) : (g.reader i).readers j = g.readers j := by
  unfold Gate.reader Gate.move
  split <;> exact Function.update_of_ne h _ _

/-- A reader goes in from where it looks again, and nowhere else. -/
theorem reader_inside {g : Gate ι} {i : ι} (h : (g.reader i).readers i = .inside) :
    g.readers i = .looking := by
  unfold Gate.reader Gate.move at h
  cases hpc : g.readers i with
  | looking => rfl
  | waiting =>
    simp only [hpc, Function.update_self] at h
    split at h <;> simp at h
  | outside | passing | inside | retreating => simp [hpc, Function.update_self] at h

@[simp] theorem reader_writer (g : Gate ι) (i : ι) : (g.reader i).writer = g.writer := by
  unfold Gate.reader
  split <;> rfl

omit [DecidableEq ι] in
@[simp] theorem write_readers (g : Gate ι) : g.write.readers = g.readers := by
  unfold Gate.write
  split
  · rfl
  · split <;> rfl
  · rfl

end drain_gate
