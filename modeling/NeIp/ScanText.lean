-- Numbers as C programs print them into a text and scan them from one: the conversions `%u` and
-- `%x`, with and without a width, and that a number which was printed is scanned again.
import NeIp.CText

open c_text

namespace scan_text

/-! ## Printing -/

/-- `%u` -/
def print_unsigned (x : UInt32) : Text := (Nat.toDigits 10 x.toNat).map Char.toUInt8

/-- `%02x` -/
def print_hex_byte (b : UInt8) : Text :=
  [(Nat.digitChar (b.toNat / 16)).toUInt8, (Nat.digitChar (b.toNat % 16)).toUInt8]

/-! ## Scanning -/

/-- What an `unsigned int` of 32 bits holds of a number that `strtoul` reads: the `unsigned long`
ends at its largest value, and a minus sign negates it. -/
def uint_of (x : Int) : UInt32 :=
  if x.natAbs < 2 ^ 64 then UInt32.ofNat (x % 2 ^ 32).toNat else UInt32.ofNat (2 ^ 64 - 1)

/-- The conversion `%u`. -/
def scan_unsigned (s : Text) : Option (UInt32 × Text) :=
  (scan_number s).map fun n => (uint_of n.1, n.2)

/-- `isxdigit` -/
def isHexDigit (b : UInt8) : Bool := isDigit b || (97 ≤ b && b ≤ 102) || (65 ≤ b && b ≤ 70)

def hexValue (b : UInt8) : Nat :=
  if isDigit b then b.toNat - 48 else if 97 ≤ b then b.toNat - 87 else b.toNat - 55

/-- The number that hexadecimal digits write. -/
def hexadecimal (ds : Text) : Nat := ds.foldl (fun n b => 16 * n + hexValue b) 0

/-- `0x` or `0X` in front. -/
def hexPrefix (s : Text) : Text :=
  match s with
  | 48 :: 120 :: s => s
  | 48 :: 88 :: s => s
  | s => s

/-- A number in hexadecimal at the front of the text, with an optional sign and prefix: its value
and what follows. A prefix without a digit after it is no number. -/
def hex_number (s : Text) : Option (UInt32 × Text) :=
  let (sgn, s) := sign s
  let s := hexPrefix s
  let ds := s.takeWhile isHexDigit
  if ds = [] then none else some (uint_of (sgn * hexadecimal ds), s.drop ds.length)

/-- The conversion `%x`. -/
def scan_hex (s : Text) : Option (UInt32 × Text) := hex_number (s.dropWhile isSpace)

/-- The conversion `%x` with a width, which counts all but the white space. -/
def scan_hex_within (width : Nat) (s : Text) : Option (UInt32 × Text) :=
  let s := s.dropWhile isSpace
  (hex_number (s.take width)).map fun n => (n.1, n.2 ++ s.drop width)

/-- A byte of the format that is neither white space nor part of a conversion. -/
def scan_byte (b : UInt8) (s : Text) : Option Text :=
  match s with
  | c :: s => if c = b then some s else none
  | [] => none

/-! ## What scanning leaves -/

theorem length_sign_le (s : Text) : (sign s).2.length ≤ s.length := by
  unfold sign
  split
  · exact Nat.le_succ _
  · exact Nat.le_succ _
  · exact le_rfl

theorem length_hexPrefix_le (s : Text) : (hexPrefix s).length ≤ s.length := by
  unfold hexPrefix
  split
  · simp only [List.length_cons]
    omega
  · simp only [List.length_cons]
    omega
  · exact le_rfl

/-- Digits that are there are taken from the text. -/
theorem length_drop_digits_lt {p : UInt8 → Bool} {s : Text} (h : s.takeWhile p ≠ []) :
    (s.drop (s.takeWhile p).length).length < s.length := by
  have hpos := List.length_pos_iff.mpr h
  have hle := (List.takeWhile_prefix (l := s) p).length_le
  rw [List.length_drop]
  omega

theorem length_scan_unsigned_lt {s rest : Text} {x : UInt32}
    (h : scan_unsigned s = some (x, rest)) : rest.length < s.length := by
  unfold scan_unsigned scan_number at h
  dsimp only at h
  split at h
  · simp at h
  · obtain ⟨-, rfl⟩ := Prod.mk.inj (Option.some.inj h)
    calc _ < (sign (s.dropWhile isSpace)).2.length := length_drop_digits_lt ‹_›
      _ ≤ (s.dropWhile isSpace).length := length_sign_le _
      _ ≤ s.length := (List.dropWhile_suffix _).length_le

theorem length_scan_hex_lt {s rest : Text} {x : UInt32} (h : scan_hex s = some (x, rest)) :
    rest.length < s.length := by
  unfold scan_hex hex_number at h
  dsimp only at h
  split at h
  · simp at h
  · obtain ⟨-, rfl⟩ := Prod.mk.inj (Option.some.inj h)
    calc _ < (hexPrefix (sign (s.dropWhile isSpace)).2).length := length_drop_digits_lt ‹_›
      _ ≤ (sign (s.dropWhile isSpace)).2.length := length_hexPrefix_le _
      _ ≤ (s.dropWhile isSpace).length := length_sign_le _
      _ ≤ s.length := (List.dropWhile_suffix _).length_le

theorem length_scan_byte_lt {b : UInt8} {s rest : Text} (h : scan_byte b s = some rest) :
    rest.length < s.length := by
  unfold scan_byte at h
  split at h
  · split at h
    · obtain rfl := Option.some.inj h
      exact Nat.lt_succ_self _
    · simp at h
  · simp at h

/-! ## What was printed is scanned -/

/-- The text does not go on with such a byte. -/
def EndsBefore (p : UInt8 → Bool) (rest : Text) : Prop := ∀ b ∈ rest.head?, p b = false

theorem endsBefore_nil (p : UInt8 → Bool) : EndsBefore p [] := by
  intro b hb
  simp at hb

theorem endsBefore_cons {p : UInt8 → Bool} {b : UInt8} (h : p b = false) (s : Text) :
    EndsBefore p (b :: s) := by
  intro c hc
  obtain rfl := Option.some.inj hc
  exact h

theorem takeWhile_append_of_ends {p : UInt8 → Bool} {ds rest : Text} (hds : ∀ b ∈ ds, p b = true)
    (hrest : EndsBefore p rest) : (ds ++ rest).takeWhile p = ds := by
  rw [List.takeWhile_append_of_pos hds]
  cases rest with
  | nil => exact List.append_nil ds
  | cons b rest =>
    rw [List.takeWhile_cons_of_neg (by simp [hrest b rfl]), List.append_nil]

/-- A digit is no white space and no sign. -/
theorem isHexDigit_spec {b : UInt8} (h : isHexDigit b = true) :
    isSpace b = false ∧ b ≠ 45 ∧ b ≠ 43 ∧ b ≠ 120 ∧ b ≠ 88 := by
  unfold isHexDigit isDigit at h
  unfold isSpace
  simp only [Bool.or_eq_true, Bool.and_eq_true, decide_eq_true_eq, UInt8.le_iff_toNat_le,
    Bool.or_eq_false_iff, Bool.and_eq_false_iff, decide_eq_false_iff_not, beq_eq_false_iff_ne, Ne,
    ← UInt8.toNat_inj, UInt8.reduceToNat] at h ⊢
  omega

theorem isHexDigit_of_isDigit {b : UInt8} (h : isDigit b = true) : isHexDigit b = true := by
  unfold isHexDigit
  rw [h, Bool.true_or, Bool.true_or]

theorem dropWhile_isSpace_cons {b : UInt8} (h : isHexDigit b = true) (s : Text) :
    (b :: s).dropWhile isSpace = b :: s :=
  List.dropWhile_cons_of_neg (by simp [(isHexDigit_spec h).1])

theorem sign_of_ne {b : UInt8} (hminus : b ≠ 45) (hplus : b ≠ 43) (s : Text) :
    sign (b :: s) = (1, b :: s) := by
  unfold sign
  split
  · rename_i heq
    exact absurd (List.cons.inj heq).1 hminus
  · rename_i heq
    exact absurd (List.cons.inj heq).1 hplus
  · rfl

theorem sign_cons {b : UInt8} (h : isHexDigit b = true) (s : Text) :
    sign (b :: s) = (1, b :: s) :=
  sign_of_ne (isHexDigit_spec h).2.1 (isHexDigit_spec h).2.2.1 s

/-- After two digits there is no prefix. -/
theorem hexPrefix_cons {b b' : UInt8} (h : isHexDigit b' = true) (s : Text) :
    hexPrefix (b :: b' :: s) = b :: b' :: s := by
  obtain ⟨-, -, -, hlower, hupper⟩ := isHexDigit_spec h
  unfold hexPrefix
  split
  · rename_i heq
    exact absurd (List.cons.inj (List.cons.inj heq).2).1 hlower
  · rename_i heq
    exact absurd (List.cons.inj (List.cons.inj heq).2).1 hupper
  · rfl

theorem uint_of_toNat (x : UInt32) : uint_of (x.toNat : Int) = x := by
  have hx := x.toNat_lt
  have hmod : ((x.toNat : Int) % 2 ^ 32).toNat = x.toNat := by omega
  unfold uint_of
  rw [if_pos (by omega), hmod, UInt32.ofNat_toNat]

theorem toNat_toUInt8 {c : Char} (h : c.isDigit = true) : c.toUInt8.toNat = c.toNat := by
  have hc : c.toNat < 2 ^ 8 := by
    simp only [Char.isDigit, Bool.and_eq_true, decide_eq_true_eq] at h
    exact (UInt32.le_iff_toNat_le.mp h.2).trans_lt (by decide)
  exact Nat.mod_eq_of_lt hc

theorem isDigit_toUInt8 {c : Char} (h : c.isDigit = true) : isDigit c.toUInt8 = true := by
  have hval := toNat_toUInt8 h
  simp only [Char.isDigit, Bool.and_eq_true, decide_eq_true_eq] at h
  have hlow := UInt32.le_iff_toNat_le.mp h.1
  have hhigh := UInt32.le_iff_toNat_le.mp h.2
  unfold isDigit
  simp only [Bool.and_eq_true, decide_eq_true_eq, UInt8.le_iff_toNat_le, hval]
  exact ⟨hlow, hhigh⟩

theorem isDigit_of_mem_print {x : UInt32} {b : UInt8} (h : b ∈ print_unsigned x) :
    isDigit b = true := by
  obtain ⟨c, hc, rfl⟩ := List.mem_map.mp h
  exact isDigit_toUInt8 (Nat.isDigit_of_mem_toDigits (by decide) (by decide) hc)

theorem print_unsigned_ne_nil (x : UInt32) : print_unsigned x ≠ [] := by
  unfold print_unsigned
  rw [Ne, List.map_eq_nil_iff]
  exact Nat.toDigits_ne_nil

theorem decimal_map (cs : List Char) (h : ∀ c ∈ cs, c.isDigit = true) :
    decimal (cs.map Char.toUInt8) = Nat.ofDigitChars 10 cs 0 := by
  unfold decimal
  rw [Nat.ofDigitChars_eq_foldl, List.foldl_map]
  refine List.foldl_ext _ _ 0 fun n c hc => ?_
  rw [toNat_toUInt8 (h c hc)]
  rfl

theorem decimal_print (x : UInt32) : decimal (print_unsigned x) = x.toNat := by
  unfold print_unsigned
  rw [decimal_map _ fun c hc => Nat.isDigit_of_mem_toDigits (by decide) (by decide) hc,
    Nat.ofDigitChars_ten_toDigits]

/-- Digits are scanned up to where they end. -/
theorem scan_number_digits {ds rest : Text} (hds : ∀ b ∈ ds, isDigit b = true) (hne : ds ≠ [])
    (h : EndsBefore isDigit rest) : scan_number (ds ++ rest) = some ((decimal ds : Int), rest) := by
  have htake := takeWhile_append_of_ends hds h
  obtain ⟨b, ds', hcons⟩ := List.exists_cons_of_ne_nil hne
  have hdigit : isHexDigit b = true :=
    isHexDigit_of_isDigit (hds b (hcons ▸ List.mem_cons_self))
  have hfront : sign ((ds ++ rest).dropWhile isSpace) = (1, ds ++ rest) := by
    rw [hcons, List.cons_append, dropWhile_isSpace_cons hdigit, sign_cons hdigit]
  unfold scan_number
  rw [hfront]
  dsimp only
  rw [htake, if_neg hne, Int.one_mul, List.drop_left]

theorem scan_unsigned_print (x : UInt32) {rest : Text} (h : EndsBefore isDigit rest) :
    scan_unsigned (print_unsigned x ++ rest) = some (x, rest) := by
  unfold scan_unsigned
  rw [scan_number_digits (fun _ => isDigit_of_mem_print) (print_unsigned_ne_nil x) h,
    Option.map_some, decimal_print, uint_of_toNat]

theorem isHexDigit_digitChar {n : Nat} (h : n < 16) :
    isHexDigit (Nat.digitChar n).toUInt8 = true ∧ hexValue (Nat.digitChar n).toUInt8 = n := by
  revert n
  decide +kernel

theorem hexadecimal_print (b : UInt8) : hexadecimal (print_hex_byte b) = b.toNat := by
  have hb := b.toNat_lt
  unfold hexadecimal print_hex_byte
  rw [List.foldl_cons, List.foldl_cons, List.foldl_nil, (isHexDigit_digitChar (by omega)).2,
    (isHexDigit_digitChar (by omega)).2]
  omega

/-- Two digits and no more are scanned as the byte that they write. -/
theorem scan_hex_two {b b' : UInt8} (hb : isHexDigit b = true) (hb' : isHexDigit b' = true)
    {rest : Text} (h : EndsBefore isHexDigit rest) :
    scan_hex (b :: b' :: rest) = some (uint_of (hexadecimal [b, b']), rest) := by
  have htake : (b :: b' :: rest).takeWhile isHexDigit = [b, b'] := by
    have hds : ∀ d ∈ [b, b'], isHexDigit d = true := by simp [hb, hb']
    exact takeWhile_append_of_ends hds h
  unfold scan_hex hex_number
  rw [dropWhile_isSpace_cons hb, sign_cons hb]
  dsimp only
  rw [hexPrefix_cons hb', htake, if_neg (List.cons_ne_nil _ _), Int.one_mul]
  rfl

theorem scan_hex_print (b : UInt8) {rest : Text} (h : EndsBefore isHexDigit rest) :
    scan_hex (print_hex_byte b ++ rest) = some (b.toUInt32, rest) := by
  have hb := b.toNat_lt
  have htwo := scan_hex_two (isHexDigit_digitChar (n := b.toNat / 16) (by omega)).1
    (isHexDigit_digitChar (n := b.toNat % 16) (by omega)).1 h
  refine htwo.trans ?_
  show some (uint_of (hexadecimal (print_hex_byte b)), rest) = _
  rw [hexadecimal_print, ← UInt8.toNat_toUInt32, uint_of_toNat]

/-! ## The conversion with a width of two -/

/-- The text has a number for `%2x`: a digit that is not the front of a bare prefix, or a sign and
a digit. -/
def beginsHex (s : Text) : Bool :=
  match s.dropWhile isSpace with
  | [] => false
  | b :: s =>
    if b = 45 ∨ b = 43 then s.head?.any isHexDigit
    else isHexDigit b && !(b == 48 && s.head?.any fun c => c == 120 || c == 88)

theorem hex_number_isSome (s : Text) :
    (hex_number s).isSome = (hexPrefix (sign s).2).head?.any isHexDigit := by
  unfold hex_number
  dsimp only
  cases hexPrefix (sign s).2 with
  | nil => rfl
  | cons b t =>
    by_cases hb : isHexDigit b = true
    · rw [List.takeWhile_cons_of_pos hb, if_neg (List.cons_ne_nil _ _)]
      exact hb.symm
    · rw [List.takeWhile_cons_of_neg hb, if_pos rfl]
      exact (Bool.eq_false_iff.mpr hb).symm

theorem hexPrefix_singleton (b : UInt8) : hexPrefix [b] = [b] := by
  unfold hexPrefix
  split <;> simp_all

theorem hexPrefix_pair (b c : UInt8) :
    hexPrefix [b, c] = if b = 48 ∧ (c = 120 ∨ c = 88) then [] else [b, c] := by
  unfold hexPrefix
  split
  · simp_all
  · simp_all
  · rename_i hlower hupper
    rw [if_neg]
    rintro ⟨hb, hc | hc⟩
    · exact hlower [] (by rw [hb, hc])
    · exact hupper [] (by rw [hb, hc])

theorem scan_hex_within_two_isSome (s : Text) : (scan_hex_within 2 s).isSome = beginsHex s := by
  unfold scan_hex_within beginsHex
  dsimp only
  rw [Option.isSome_map, hex_number_isSome]
  generalize s.dropWhile isSpace = t
  cases t with
  | nil => rfl
  | cons b t =>
    dsimp only
    by_cases hsign : b = 45 ∨ b = 43
    · rw [if_pos hsign]
      have hrest : (sign ((b :: t).take 2)).2 = t.take 1 := by
        rcases hsign with rfl | rfl
        · rfl
        · rfl
      rw [hrest]
      cases t with
      | nil => rfl
      | cons c t => exact congrArg (·.head?.any isHexDigit) (hexPrefix_singleton c)
    · rw [not_or] at hsign
      rw [if_neg (by tauto), List.take_succ_cons, sign_of_ne hsign.1 hsign.2]
      cases t with
      | nil => simp [hexPrefix_singleton]
      | cons c t =>
        show (hexPrefix [b, c]).head?.any isHexDigit = _
        rw [hexPrefix_pair]
        by_cases hprefix : b = 48 ∧ (c = 120 ∨ c = 88)
        · rw [if_pos hprefix]
          rcases hprefix with ⟨rfl, rfl | rfl⟩
          · rfl
          · rfl
        · rw [if_neg hprefix]
          have hno : (b == 48 && (c == 120 || c == 88)) = false := by
            simpa [Bool.and_eq_false_iff, not_and_or, imp_iff_not_or] using hprefix
          simp [hno]

/-- Two digits are scanned whatever comes after them. -/
theorem scan_hex_within_two {b b' : UInt8} (hb : isHexDigit b = true) (hb' : isHexDigit b' = true)
    (rest : Text) :
    scan_hex_within 2 (b :: b' :: rest) = some (uint_of (hexadecimal [b, b']), rest) := by
  have htwo := scan_hex_two hb hb' (endsBefore_nil _)
  unfold scan_hex at htwo
  rw [dropWhile_isSpace_cons hb] at htwo
  unfold scan_hex_within
  dsimp only
  rw [dropWhile_isSpace_cons hb]
  show (hex_number [b, b']).map _ = _
  rw [htwo]
  rfl

end scan_text
