-- The runs of a labelled step relation, with the rules by which a fact about
-- one step becomes a fact about every run.
import Mathlib.Data.List.Basic

namespace runs

variable {σ ε : Type*}

/-- `Run step s es t`: from `s` the labels `es`, taken in order, lead to `t`. -/
inductive Run (step : σ → ε → σ → Prop) : σ → List ε → σ → Prop
  | nil (s : σ) : Run step s [] s
  | snoc {s t u : σ} {es : List ε} {e : ε} :
      Run step s es t → step t e u → Run step s (es ++ [e]) u

/-- The steps that start where `good` allows them. -/
def Guarded (good : σ → ε → Prop) (step : σ → ε → σ → Prop) (s : σ) (e : ε) (t : σ) : Prop :=
  good s e ∧ step s e t

theorem Run.single {step : σ → ε → σ → Prop} {s t : σ} {e : ε} (h : step s e t) :
    Run step s [e] t :=
  Run.snoc (Run.nil s) h

/-- The run of a relation that allows more. -/
theorem Run.mono {step step' : σ → ε → σ → Prop} {s t : σ} {es : List ε} (h : Run step s es t)
    (hstep : ∀ s e t, step s e t → step' s e t) : Run step' s es t := by
  induction h with
  | nil => exact Run.nil _
  | snoc _ he ih => exact Run.snoc ih (hstep _ _ _ he)

/-- Runs in a row. -/
theorem Run.append {step : σ → ε → σ → Prop} {s t u : σ} {es fs : List ε} (h : Run step s es t)
    (h' : Run step t fs u) : Run step s (es ++ fs) u := by
  induction h' with
  | nil =>
    rw [List.append_nil]
    exact h
  | snoc _ he ih =>
    rw [← List.append_assoc]
    exact Run.snoc ih he

/-- A step function that takes all the labels has made a run. -/
theorem Run.of_foldlM {f : σ → ε → Option σ} {s t : σ} {es : List ε}
    (h : es.foldlM f s = some t) : Run (fun s e t => f s e = some t) s es t := by
  induction es generalizing s with
  | nil =>
    rw [List.foldlM_nil] at h
    rw [Option.some.inj h]
    exact Run.nil t
  | cons e es ih =>
    rw [List.foldlM_cons] at h
    obtain ⟨u, hu, hes⟩ := Option.bind_eq_some_iff.mp h
    have hfirst : Run (fun s e t => f s e = some t) s [e] u := Run.single hu
    exact hfirst.append (ih hes)

/-- A step function that never fails makes a run of any labels. -/
theorem Run.of_foldl (f : σ → ε → σ) (es : List ε) (s : σ) :
    Run (fun s e t => f s e = t) s es (es.foldl f s) := by
  induction es generalizing s with
  | nil => exact Run.nil s
  | cons e es ih =>
    have hfirst : Run (fun s e t => f s e = t) s [e] (f s e) := Run.single rfl
    exact hfirst.append (ih (f s e))

/-- A step function that takes all the labels, and each where `good` allows it. -/
theorem Run.guarded_of_foldlM {f : σ → ε → Option σ} {good : σ → ε → Prop}
    [∀ s e, Decidable (good s e)] {s t : σ} {es : List ε}
    (h : es.foldlM (fun s e => if good s e then f s e else none) s = some t) :
    Run (Guarded good fun s e t => f s e = some t) s es t := by
  refine (Run.of_foldlM h).mono fun s e t he => ?_
  split at he
  · exact ⟨‹_›, he⟩
  · simp at he

/-- Labels that are allowed everywhere. -/
theorem Run.guarded {good : σ → ε → Prop} {step : σ → ε → σ → Prop} {s t : σ} {es : List ε}
    (h : Run step s es t) (hgood : ∀ e ∈ es, ∀ s, good s e) : Run (Guarded good step) s es t := by
  induction h with
  | nil => exact Run.nil _
  | snoc _ he ih =>
    rw [List.forall_mem_append] at hgood
    exact Run.snoc (ih hgood.1) ⟨hgood.2 _ List.mem_cons_self _, he⟩

/-- What a step carries on holds after a run, together with the labels so far. -/
theorem Run.history {step : σ → ε → σ → Prop} {P : List ε → σ → Prop} {s t : σ} {es : List ε}
    (h : Run step s es t) (h0 : P [] s)
    (hstep : ∀ es t e u, P es t → step t e u → P (es ++ [e]) u) : P es t := by
  induction h with
  | nil => exact h0
  | snoc _ he ih => exact hstep _ _ _ _ ih he

/-- What every step keeps, every run keeps. -/
theorem Run.invariant {step : σ → ε → σ → Prop} {P : σ → Prop} {s t : σ} {es : List ε}
    (h : Run step s es t) (h0 : P s) (hstep : ∀ t e u, P t → step t e u → P u) : P t :=
  h.history (P := fun _ => P) h0 fun _ => hstep

end runs
