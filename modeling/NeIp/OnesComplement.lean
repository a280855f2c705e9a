-- One's complement sums. Words of up to `m` are added with the carry going
-- round, and a checksum is what makes the sum of all words the largest word.
import Mathlib.Data.Nat.ModEq

namespace ones_complement

/-- One turn of the carry: what is over a word is added to the word. -/
def turn (m s : Nat) : Nat := s % (m + 1) + s / (m + 1)

/-- What a sum comes to when no carry is left. -/
def total (m s : Nat) : Nat := if s = 0 then 0 else (s - 1) % m + 1

/-- The checksum for words that sum to `s`. -/
def complement (m s : Nat) : Nat := m - total m s

/-- What a receiver wants of all the words, with the checksum among them. -/
def Accepted (m s : Nat) : Prop := total m s = m

instance (m s : Nat) : Decidable (Accepted m s) := inferInstanceAs (Decidable (_ = _))

/-! ## The carry -/

theorem turn_of_le {m s : Nat} (h : s ≤ m) : turn m s = s := by
  unfold turn
  rw [Nat.mod_eq_of_lt (by omega), Nat.div_eq_of_lt (by omega), Nat.add_zero]

/-- A turn only takes off multiples of `m`. -/
theorem turn_modEq (m s : Nat) : turn m s ≡ s [MOD m] := by
  have hs : s = turn m s + m * (s / (m + 1)) := by
    have h := Nat.mod_add_div s (m + 1)
    unfold turn
    rw [Nat.add_mul, Nat.one_mul] at h
    omega
  calc turn m s ≡ turn m s + m * (s / (m + 1)) [MOD m] := by
        simp [Nat.ModEq]
    _ = s := hs.symm

theorem turn_pos {m s : Nat} (h : 0 < s) : 0 < turn m s := by
  unfold turn
  rcases Nat.eq_zero_or_pos (s % (m + 1)) with h0 | h0
  · have hle : m + 1 ≤ s := Nat.le_of_dvd h (Nat.dvd_of_mod_eq_zero h0)
    exact Nat.add_pos_right _ (Nat.div_pos hle (Nat.succ_pos m))
  · exact Nat.add_pos_left h0 _

/-! ## What the sum comes to -/

theorem total_of_le {m s : Nat} (h : s ≤ m) : total m s = s := by
  unfold total
  split
  · omega
  · rw [Nat.mod_eq_of_lt (by omega)]
    omega

theorem total_le {m : Nat} (hm : 0 < m) (s : Nat) : total m s ≤ m := by
  unfold total
  split
  · omega
  · exact Nat.mod_lt _ hm

theorem total_pos {m s : Nat} (h : 0 < s) : 0 < total m s := by
  unfold total
  rw [if_neg (by omega)]
  omega

theorem total_modEq (m s : Nat) : total m s ≡ s [MOD m] := by
  unfold total
  split
  · rename_i h
    rw [h]
  · have h : (s - 1) % m + 1 ≡ s - 1 + 1 [MOD m] := (Nat.mod_modEq _ _).add_right 1
    rwa [Nat.sub_add_cancel (by omega)] at h

/-- Two sums that are not zero come to the same when they differ by multiples of `m`. -/
theorem total_eq_iff {m s t : Nat} (hs : 0 < s) (ht : 0 < t) :
    total m s = total m t ↔ s ≡ t [MOD m] := by
  constructor
  · intro h
    exact (total_modEq m s).symm.trans (h ▸ total_modEq m t)
  · intro h
    have hpred : s - 1 ≡ t - 1 [MOD m] := by
      refine Nat.ModEq.add_right_cancel' 1 ?_
      rwa [Nat.sub_add_cancel hs, Nat.sub_add_cancel ht]
    unfold total
    rw [if_neg (by omega), if_neg (by omega), hpred]

theorem total_turn (m s : Nat) : total m (turn m s) = total m s := by
  rcases Nat.eq_zero_or_pos s with rfl | h
  · rw [turn_of_le (Nat.zero_le m)]
  · exact (total_eq_iff (turn_pos h) h).mpr (turn_modEq m s)

/-! ## Checksums -/

theorem accepted_iff {m s : Nat} (hm : 0 < m) (hs : 0 < s) : Accepted m s ↔ s ≡ 0 [MOD m] := by
  have hmm : total m m = m := total_of_le (Nat.le_refl m)
  have h0 : m ≡ 0 [MOD m] := by simp [Nat.ModEq]
  constructor
  · intro h
    exact ((total_eq_iff hs hm).mp (h.trans hmm.symm)).trans h0
  · intro h
    exact ((total_eq_iff hs hm).mpr (h.trans h0.symm)).trans hmm

theorem complement_add_total {m : Nat} (hm : 0 < m) (s : Nat) : complement m s + total m s = m := by
  have := total_le hm s
  unfold complement
  omega

/-- A checksum is never the largest word. -/
theorem complement_lt {m s : Nat} (hm : 0 < m) (hs : 0 < s) : complement m s < m := by
  have := total_pos (m := m) hs
  unfold complement
  omega

/-- A receiver that sums up to `t` accepts the checksum of `s` when the two sums come to the
same. -/
theorem accepted_add_complement {m s t : Nat} (hm : 0 < m) (ht : 0 < t) :
    Accepted m (t + complement m s) ↔ t ≡ s [MOD m] := by
  have hzero : s + complement m s ≡ 0 [MOD m] := by
    have h := (total_modEq m s).symm.add_right (complement m s)
    rw [Nat.add_comm (total m s), complement_add_total hm] at h
    exact h.trans (by simp [Nat.ModEq])
  rw [accepted_iff hm (by omega)]
  constructor
  · intro h
    exact Nat.ModEq.add_right_cancel' (complement m s) (h.trans hzero.symm)
  · intro h
    exact (h.add_right _).trans hzero

/-- Words are accepted with their own checksum, also when they are all zero and it is the largest
word. -/
theorem accepted_add_self {m : Nat} (hm : 0 < m) (s : Nat) : Accepted m (s + complement m s) := by
  rcases Nat.eq_zero_or_pos s with rfl | hs
  · unfold Accepted complement
    rw [total_of_le (Nat.zero_le m), Nat.zero_add, Nat.sub_zero, total_of_le (Nat.le_refl m)]
  · exact (accepted_add_complement hm hs).mpr rfl

/-- The words that a receiver accepts as checksum: the one that the sender computes, and when
that is zero the largest word as well. -/
theorem accepted_checksum_iff {m s c : Nat} (hm : 0 < m) (hs : 0 < s) (hc : c ≤ m) :
    Accepted m (s + c) ↔ c = complement m s ∨ (c = m ∧ complement m s = 0) := by
  have hlt := complement_lt hm hs
  have hself := (accepted_add_complement (s := s) hm hs).mpr rfl
  rw [accepted_iff hm (by omega)] at hself ⊢
  constructor
  · intro h
    have hmod : c ≡ complement m s [MOD m] := Nat.ModEq.add_left_cancel' s (h.trans hself.symm)
    rcases Nat.lt_or_eq_of_le hc with hcm | rfl
    · exact Or.inl (hmod.eq_of_lt_of_lt hcm hlt)
    · refine Or.inr ⟨rfl, ?_⟩
      have h0 : 0 ≡ complement c s [MOD c] := (show 0 ≡ c [MOD c] by simp [Nat.ModEq]).trans hmod
      exact (h0.eq_of_lt_of_lt hm hlt).symm
  · rintro (rfl | ⟨rfl, hz⟩)
    · exact hself
    · rw [hz, Nat.add_zero] at hself
      exact (show s + c ≡ s [MOD c] by simp [Nat.ModEq]).trans hself

end ones_complement
