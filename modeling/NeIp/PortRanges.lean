-- What parse_port_range (db_config.c) accepts: the strings that denote a port or a range of ports,
-- and every other one that begins with a port, which its second attempt takes for the whole.
import NeIp.PolicyRows
import NeIp.ScanText

open c_text scan_text ne_ip.policy_rows

namespace ne_ip.port_ranges

/-! ## What a string denotes -/

/-- Decimal digits and nothing else. -/
def number (t : Text) : Option Nat :=
  if t ≠ [] ∧ t.all isDigit = true then some (decimal t) else none

/-- A port, or two in order with a dash between them, and nothing left over. -/
def denoted (v : Text) : Option (Nat × Nat) :=
  match (v.splitOn 45).map number with
  | [some p] => if p ≤ 65535 then some (p, p) else none
  | [some a, some b] => if a ≤ b ∧ b ≤ 65535 then some (a, b) else none
  | _ => none

/-- The string is accepted when it denotes a range, with that range. -/
def ParsedExactly (v : Text) : Prop :=
  parse_port_range v = (denoted v).map fun r => ((r.1 : Int), (r.2 : Int))

instance (v : Text) : Decidable (ParsedExactly v) := inferInstanceAs (Decidable (_ = _))

/-- `%d` reads a port at the front of the string. -/
def BeginsWithPort (v : Text) : Prop := ∃ n ∈ scan_int v, 0 ≤ n.1 ∧ n.1 ≤ 65535

theorem number_some {t : Text} {n : Nat} (h : number t = some n) :
    t ≠ [] ∧ (∀ b ∈ t, isDigit b = true) ∧ decimal t = n := by
  unfold number at h
  split at h
  · rename_i hdigits
    exact ⟨hdigits.1, List.all_eq_true.mp hdigits.2, Option.some.inj h⟩
  · simp at h

theorem denoted_some {v : Text} {a b : Nat} (h : denoted v = some (a, b)) :
    a ≤ b ∧ b ≤ 65535 ∧
    (number v = some a ∧ b = a ∨
      ∃ s t, v = s ++ 45 :: t ∧ number s = some a ∧ number t = some b) := by
  have hv := @List.intercalate_splitOn _ v _ _ (45 : UInt8)
  unfold denoted at h
  generalize v.splitOn 45 = parts at h hv
  match parts, h, hv with
  | [], h, _ => simp at h
  | [s], h, hv =>
    rw [List.intercalate_singleton] at hv
    subst hv
    cases hs : number s with
    | none => simp [hs] at h
    | some p =>
      simp only [List.map_cons, List.map_nil, hs] at h
      split at h
      · obtain ⟨rfl, rfl⟩ := Prod.mk.inj (Option.some.inj h)
        exact ⟨le_rfl, ‹_›, .inl ⟨rfl, rfl⟩⟩
      · simp at h
  | [s, t], h, hv =>
    rw [List.intercalate_cons_cons, List.intercalate_singleton, List.append_assoc] at hv
    cases hs : number s with
    | none => simp [hs] at h
    | some p =>
      cases ht : number t with
      | none => simp [hs, ht] at h
      | some q =>
        simp only [List.map_cons, List.map_nil, hs, ht] at h
        split at h
        · rename_i hrange
          obtain ⟨rfl, rfl⟩ := Prod.mk.inj (Option.some.inj h)
          exact ⟨hrange.1, hrange.2, .inr ⟨s, t, hv.symm, hs, ht⟩⟩
        · simp at h
  | s :: t :: u :: rest, h, _ => simp at h

/-! ## What is scanned -/

theorem scan_int_digits {ds rest : Text} (hds : ∀ b ∈ ds, isDigit b = true) (hne : ds ≠ [])
    (hport : decimal ds ≤ 65535) (h : EndsBefore isDigit rest) :
    scan_int (ds ++ rest) = some ((decimal ds : Int), rest) := by
  have hlong : long_of (decimal ds) = (decimal ds : Int) := by
    unfold long_of
    omega
  have hint : Int.bmod (decimal ds) (2 ^ 32) = (decimal ds : Int) := by
    rw [Int.bmod_eq_of_le_mul_two] <;> omega
  unfold scan_int strtol
  rw [scan_number_digits hds hne h, Option.map_some, Option.map_some, hlong, hint]

/-- A string that denotes a range is accepted with it. -/
theorem parse_of_denoted {v : Text} {a b : Nat} (hany : str_is_any v = false)
    (h : denoted v = some (a, b)) : parse_port_range v = some ((a : Int), (b : Int)) := by
  obtain ⟨hab, hb, hport | ⟨s, t, rfl, hs, ht⟩⟩ := denoted_some h
  · obtain ⟨hp, rfl⟩ := hport
    obtain ⟨hne, hdigits, rfl⟩ := number_some hp
    have hscan := scan_int_digits hdigits hne hb (endsBefore_nil _)
    rw [List.append_nil] at hscan
    unfold parse_port_range scan_range parse_port
    rw [hany, hscan, if_neg Bool.false_ne_true]
    exact if_pos ⟨Int.natCast_nonneg _, Int.ofNat_le.mpr hb⟩
  · obtain ⟨hsne, hsdigits, rfl⟩ := number_some hs
    obtain ⟨htne, htdigits, rfl⟩ := number_some ht
    have hscan1 := scan_int_digits hsdigits hsne (hab.trans hb) (endsBefore_cons (b := 45) rfl t)
    have hscan2 := scan_int_digits htdigits htne hb (endsBefore_nil _)
    rw [List.append_nil] at hscan2
    have hrange : scan_range (s ++ 45 :: t) = some ((decimal s : Int), (decimal t : Int)) := by
      unfold scan_range
      rw [hscan1]
      exact congrArg (Option.map _) hscan2
    unfold parse_port_range
    rw [hany, hrange, if_neg Bool.false_ne_true]
    exact if_pos ⟨Int.natCast_nonneg _, Int.ofNat_le.mpr hab, Int.ofNat_le.mpr hb⟩

theorem parse_port_eq_none {v : Text} : parse_port v = none ↔ ¬BeginsWithPort v := by
  unfold parse_port BeginsWithPort
  cases scan_int v with
  | none => simp
  | some n => simp

/-- The range test changes what is stored, not what is accepted: both attempts begin with the same
number, and the second one asks for no more than that it is a port. -/
theorem parse_port_range_eq_none {v : Text} (hany : str_is_any v = false) :
    parse_port_range v = none ↔ ¬BeginsWithPort v := by
  unfold parse_port_range
  rw [hany, if_neg Bool.false_ne_true]
  split
  · rename_i a b hrange
    split
    · rename_i hports
      have hbegins : BeginsWithPort v := by
        unfold scan_range at hrange
        split at hrange
        · rename_i a' rest hscan
          obtain ⟨n, -, heq⟩ := Option.map_eq_some_iff.mp hrange
          obtain ⟨rfl, -⟩ := Prod.mk.inj heq
          exact ⟨_, hscan, hports.1, hports.2.1.trans hports.2.2⟩
        · simp at hrange
      exact iff_of_false (by simp) (not_not.mpr hbegins)
    · exact parse_port_eq_none
  · exact parse_port_eq_none

/-- A string that is no any form is parsed exactly when it denotes a range, or does not even begin
with a port: a port in front of anything else is accepted as if it stood alone. -/
theorem a_port_range_is_parsed_exactly_iff_it_is_one_or_begins_with_no_port {v : Text}
    (hany : str_is_any v = false) :
    ParsedExactly v ↔ (denoted v).isSome = true ∨ ¬BeginsWithPort v := by
  unfold ParsedExactly
  cases hv : denoted v with
  | none =>
    rw [Option.map_none, parse_port_range_eq_none hany, Option.isSome_none]
    simp
  | some r =>
    rw [Option.map_some, parse_of_denoted hany hv, Option.isSome_some]
    simp

theorem a_range_in_order_is_parsed_exactly : ParsedExactly [56, 48, 45, 57, 48] :=
  (a_port_range_is_parsed_exactly_iff_it_is_one_or_begins_with_no_port (by decide)).mpr
    (.inl (by decide))

/-- `"80-70"`, `"80-70000"` and `"80x"` denote nothing, and all of them are the port 80. -/
theorem a_reversed_range_is_narrowed_to_its_first_number :
    (str_is_any [56, 48, 45, 55, 48] = false ∧ ¬ParsedExactly [56, 48, 45, 55, 48] ∧
      denoted [56, 48, 45, 55, 48] = none ∧
      parse_port_range [56, 48, 45, 55, 48] = some (80, 80)) ∧
    parse_port_range [56, 48, 45, 55, 48, 48, 48, 48] = some (80, 80) ∧
    parse_port_range [56, 48, 120] = some (80, 80) := by decide

end ne_ip.port_ranges
