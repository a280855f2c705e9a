-- Sweeps over a table of stamped entries: a sweep reads the clock once and then visits the
-- slots one by one, while others work on the table.
import Mathlib.Algebra.Ring.Nat
import Mathlib.Data.List.Basic
import NeIp.Runs

open runs

namespace sweep

/-- The time from `stamp` to `now` in 64 bits: after `now` it is a long time. -/
def age64 (now stamp : Nat) : Nat := if stamp ≤ now then now - stamp else now + 2 ^ 64 - stamp

/-- A table whose slots hold entries with a stamp, the operations on it, and the visit of one
slot by a sweep, which drops what is older than the timeout. -/
structure Swept (τ α ω : Type*) where
  entries : τ → Nat → List α
  stamp : α → Nat
  timeout : Nat
  slots : Nat
  /-- An operation of another thread, at its reading of the clock. -/
  act : (now : Nat) → ω → τ → τ
  /-- Whether a sweep goes on after it has read the clock. -/
  starts : (now : Nat) → τ → Bool
  visit : (now i : Nat) → τ → τ
  entries_visit : ∀ now i t,
    entries (visit now i t) i = (entries t i).filter fun e => !decide (timeout < age64 now (stamp e))

variable {τ α ω : Type*}

/-- The table under any number of sweeps, each with its reading and its next slot, and the
entries that sweeps have removed, each with the time of its removal. -/
structure Sweeping (τ α : Type*) where
  clock : Nat
  table : τ
  sweeps : Nat → Option (Nat × Nat) := fun _ => none
  removed : List (Nat × α) := []

inductive SweepEvent (ω : Type*) where
  /-- The clock goes on. -/
  | tick (now : Nat)
  | act (op : ω)
  /-- Sweep `k` reads the clock. -/
  | begin (k : Nat)
  /-- Sweep `k` visits its next slot, or ends. -/
  | visit (k : Nat)

def Sweeping.set_sweep (s : Sweeping τ α) (k : Nat) (sweep : Option (Nat × Nat)) : Sweeping τ α :=
  { s with sweeps := fun j => if j = k then sweep else s.sweeps j }

/-- What a visit of slot `i` with the reading `now` drops. -/
def Swept.dropped (S : Swept τ α ω) (now i : Nat) (t : τ) : List α :=
  (S.entries t i).filter fun e => decide (S.timeout < age64 now (S.stamp e))

def Swept.step (S : Swept τ α ω) (s : Sweeping τ α) : SweepEvent ω → Option (Sweeping τ α)
  | .tick now => if s.clock ≤ now ∧ now < 2 ^ 64 then some { s with clock := now } else none
  | .act op => some { s with table := S.act s.clock op s.table }
  | .begin k =>
    if s.sweeps k = none then
      some (s.set_sweep k (if S.starts s.clock s.table then some (s.clock, 0) else none))
    else none
  | .visit k =>
    match s.sweeps k with
    | none => none
    | some (now, i) =>
      if i < S.slots then
        let s' := s.set_sweep k (some (now, i + 1))
        some { s' with
          table := S.visit now i s.table
          removed := s.removed ++ (S.dropped now i s.table).map fun e => (s.clock, e) }
      else some (s.set_sweep k none)

/-- The time since the stamp is within the timeout. -/
def Swept.Live (S : Swept τ α ω) (clock : Nat) (e : α) : Prop := clock - S.stamp e ≤ S.timeout

/-- No live entry of the slot that is visited has a stamp from after the sweep's reading. -/
def Swept.NotTouchedSince (S : Swept τ α ω) (s : Sweeping τ α) : SweepEvent ω → Prop
  | .visit k => ∀ p ∈ s.sweeps k, ∀ e ∈ S.entries s.table p.2, S.Live s.clock e → S.stamp e ≤ p.1
  | _ => True

instance (S : Swept τ α ω) (clock : Nat) (e : α) : Decidable (S.Live clock e) :=
  inferInstanceAs (Decidable (_ ≤ _))

instance (S : Swept τ α ω) (s : Sweeping τ α) (e : SweepEvent ω) : Decidable (S.NotTouchedSince s e) :=
  match e with
  | .visit k => inferInstanceAs (Decidable (∀ p ∈ s.sweeps k, ∀ e ∈ S.entries s.table p.2,
      S.Live s.clock e → S.stamp e ≤ p.1))
  | .tick _ => inferInstanceAs (Decidable True)
  | .act _ => inferInstanceAs (Decidable True)
  | .begin _ => inferInstanceAs (Decidable True)

/-- What was removed was no longer live. -/
structure Swept.Honest (S : Swept τ α ω) (s : Sweeping τ α) : Prop where
  reading_le : ∀ k now i, s.sweeps k = some (now, i) → now ≤ s.clock
  removed : ∀ r ∈ s.removed, S.timeout < r.1 - S.stamp r.2

theorem age64_of_le {now stamp : Nat} (h : stamp ≤ now) : age64 now stamp = now - stamp := if_pos h

theorem Swept.Honest.set_sweep {S : Swept τ α ω} {s : Sweeping τ α} (h : S.Honest s) (k : Nat)
    {sweep : Option (Nat × Nat)} (hs : ∀ now i, sweep = some (now, i) → now ≤ s.clock) :
    S.Honest (s.set_sweep k sweep) := by
  refine ⟨fun j now i hj => ?_, h.removed⟩
  unfold Sweeping.set_sweep at hj
  dsimp only at hj
  split at hj
  · exact hs now i hj
  · exact h.reading_le j now i hj

/-- A visit drops no live entry when none was touched since the reading. -/
theorem Swept.dropped_old {S : Swept τ α ω} {now i clock : Nat} {t : τ} (hnow : now ≤ clock)
    (hgood : ∀ e ∈ S.entries t i, S.Live clock e → S.stamp e ≤ now) {e : α}
    (he : e ∈ S.dropped now i t) : S.timeout < clock - S.stamp e := by
  unfold Swept.dropped at he
  rw [List.mem_filter, decide_eq_true_eq] at he
  obtain ⟨hmem, hage⟩ := he
  by_contra hlive
  have hle := hgood e hmem (Nat.not_lt.mp hlive)
  rw [age64_of_le hle] at hage
  omega

theorem Swept.Honest.step {S : Swept τ α ω} {s t : Sweeping τ α} {e : SweepEvent ω}
    (h : S.Honest s) (hgood : S.NotTouchedSince s e) (hs : S.step s e = some t) : S.Honest t := by
  cases e with
  | tick now =>
    simp only [Swept.step] at hs
    split at hs
    · rename_i hnow
      obtain rfl := Option.some.inj hs
      exact ⟨fun k r i hk => Nat.le_trans (h.reading_le k r i hk) hnow.1, h.removed⟩
    · simp at hs
  | act op =>
    obtain rfl := Option.some.inj hs
    exact ⟨h.reading_le, h.removed⟩
  | begin k =>
    simp only [Swept.step] at hs
    split at hs
    · obtain rfl := Option.some.inj hs
      refine h.set_sweep k fun now i hk => ?_
      split at hk
      · exact Nat.le_of_eq (Prod.mk.inj (Option.some.inj hk)).1.symm
      · simp at hk
    · simp at hs
  | visit k =>
    simp only [Swept.step] at hs
    split at hs
    · simp at hs
    rename_i now i hk
    have hnow := h.reading_le k now i hk
    split at hs
    · obtain rfl := Option.some.inj hs
      have hset : S.Honest (s.set_sweep k (some (now, i + 1))) := by
        refine h.set_sweep k fun now' i' hk' => ?_
        rw [← (Prod.mk.inj (Option.some.inj hk')).1]
        exact hnow
      refine ⟨hset.reading_le, fun r hr => ?_⟩
      rcases List.mem_append.mp hr with hr | hr
      · exact h.removed r hr
      · obtain ⟨e, he, rfl⟩ := List.mem_map.mp hr
        exact S.dropped_old hnow (hgood (now, i) hk) he
    · obtain rfl := Option.some.inj hs
      exact h.set_sweep k fun now' i' hk' => by simp at hk'

/-- In runs whose visits find nothing touched since the reading, no live entry is removed. -/
theorem Swept.honest_of_run {S : Swept τ α ω} {c0 : Nat} {t0 : τ} {es : List (SweepEvent ω)}
    {s : Sweeping τ α}
    (hrun : Run (Guarded S.NotTouchedSince fun s e t => S.step s e = some t)
      { clock := c0, table := t0 } es s) : S.Honest s := by
  refine hrun.invariant (P := S.Honest) ⟨fun k now i hk => ?_, fun r hr => ?_⟩ ?_
  · simp at hk
  · simp at hr
  · rintro t e u ht ⟨hgood, hs⟩
    exact ht.step hgood hs

end sweep
