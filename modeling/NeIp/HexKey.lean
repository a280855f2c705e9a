-- The key of a policy from the text of its row (parse_hex_bytes in config.c, ne_fill_policy_key in
-- db_config.c): hexadecimal digits are decoded and any other text is hashed, but what counts as
-- digits is left to a scanner that takes more.
import NeIp.Config
import NeIp.FlowTable
import NeIp.ScanText

open c_text scan_text ne_ip.config ne_ip.flow_table

namespace ne_ip.hex_key

def SHA256_DIGEST_LENGTH : Nat := 32

abbrev Key := Vector UInt8 AES_KEY_LEN

/-- The loop of `parse_hex_bytes` at its turn `i` with `left` turns left; -1 is `false`. -/
def parse_pairs (str : Text) : (left i : Nat) → (out : Key) → Bool × Key
  | 0, _, out => (true, out)
  | left + 1, i, out =>
    match scan_hex_within 2 (str.drop (i * 2)) with
    | none => (false, out)
    | some (val, _) => parse_pairs str left (i + 1) (out.setIfInBounds i val.toUInt8)

/-- The length is held by an `int`. -/
def parse_hex_bytes (str : Text) (out : Key) (expected_len : Nat) : Bool × Key :=
  if int32 str.length ≠ expected_len * 2 then (false, out)
  else parse_pairs str expected_len 0 out

/-- `memcpy` to the front of a key. -/
def overwrite (out : Key) (n : Nat) (bytes : Nat → UInt8) : Key :=
  Vector.ofFn fun i => if i.val < n then bytes i else out.get i

def zero_key : Key := Vector.replicate AES_KEY_LEN 0

/-- Without a text the key is zero. -/
def ne_fill_policy_key (sha256 : Text → Vector UInt8 SHA256_DIGEST_LENGTH) (enc_key : Option Text)
    (key_len_bytes : Nat) : Key :=
  match enc_key with
  | none => zero_key
  | some enc_key =>
    if enc_key = [] then zero_key
    else
      match parse_hex_bytes enc_key zero_key key_len_bytes with
      | (true, out) => out
      | (false, out) => overwrite out key_len_bytes fun i => (sha256 enc_key).getD i 0

/-! ## What a text is -/

/-- The text is `n` bytes in hexadecimal. -/
def IsHex (n : Nat) (v : Text) : Prop := v.length = 2 * n ∧ ∀ b ∈ v, isHexDigit b = true

instance (n : Nat) (v : Text) : Decidable (IsHex n v) := inferInstanceAs (Decidable (_ ∧ _))

/-- The byte that the digits at `2 * i` write. -/
def decoded (v : Text) (i : Nat) : UInt8 :=
  UInt8.ofNat (16 * hexValue (v.getD (2 * i) 0) + hexValue (v.getD (2 * i + 1) 0))

/-- The text has the length, as an `int`, and at every other byte a number for `%2x`. -/
def Scans (n : Nat) (v : Text) : Prop :=
  int32 v.length = n * 2 ∧ ∀ i < n, beginsHex (v.drop (i * 2)) = true

instance (n : Nat) (v : Text) : Decidable (Scans n v) := inferInstanceAs (Decidable (_ ∧ _))

/-- A text in hexadecimal is decoded, and the key of any other text is the front of its digest. -/
structure RecognisedExactly (sha256 : Text → Vector UInt8 SHA256_DIGEST_LENGTH) (n : Nat)
    (v : Text) : Prop where
  success : ∀ out, (parse_hex_bytes v out n).1 = true ↔ IsHex n v
  bytes : IsHex n v → ∀ out, (parse_hex_bytes v out n).2 = overwrite out n (decoded v)
  key : v ≠ [] → ne_fill_policy_key sha256 (some v) n =
    overwrite zero_key n (if IsHex n v then decoded v else fun i => (sha256 v).getD i 0)

/-! ## The loop -/

theorem get_overwrite (out : Key) (n : Nat) (bytes : Nat → UInt8) (k : Fin AES_KEY_LEN) :
    (overwrite out n bytes).get k = if k.val < n then bytes k else out.get k := by
  unfold overwrite
  show (Vector.ofFn _)[k.val] = _
  rw [Vector.getElem_ofFn]

theorem get_setIfInBounds (out : Key) (i : Nat) (b : UInt8) (k : Fin AES_KEY_LEN) :
    (out.setIfInBounds i b).get k = if i = k.val then b else out.get k := by
  show (out.setIfInBounds i b)[k.val] = _
  rw [Vector.getElem_setIfInBounds]
  rfl

theorem key_ext {out out' : Key} (h : ∀ k, out.get k = out'.get k) : out = out' :=
  Vector.ext fun k hk => h ⟨k, hk⟩

theorem parse_pairs_fst (v : Text) (left i : Nat) (out : Key) :
    (parse_pairs v left i out).1 = true ↔
      ∀ j, i ≤ j → j < i + left → beginsHex (v.drop (j * 2)) = true := by
  induction left generalizing i out with
  | zero => exact iff_of_true rfl fun j hi hj => absurd hj (by omega)
  | succ left ih =>
    rw [parse_pairs]
    have hsome := scan_hex_within_two_isSome (v.drop (i * 2))
    cases hscan : scan_hex_within 2 (v.drop (i * 2)) with
    | none =>
      rw [hscan, Option.isSome_none] at hsome
      refine iff_of_false (by simp) fun hall => ?_
      rw [hall i le_rfl (by omega)] at hsome
      simp at hsome
    | some r =>
      rw [hscan, Option.isSome_some] at hsome
      refine (ih (i + 1) _).trans ⟨fun h j hi hj => ?_, fun h j hi hj => h j (by omega) (by omega)⟩
      by_cases hji : j = i
      · rw [hji, ← hsome]
      · exact h j (by omega) (by omega)

/-- Whatever it comes to, the loop writes to the bytes from `i` on that it has turns for. -/
theorem get_parse_pairs_of_outside (v : Text) (left i : Nat) (out : Key) {k : Fin AES_KEY_LEN}
    (hk : k.val < i ∨ i + left ≤ k.val) : (parse_pairs v left i out).2.get k = out.get k := by
  induction left generalizing i out with
  | zero => rfl
  | succ left ih =>
    rw [parse_pairs]
    cases scan_hex_within 2 (v.drop (i * 2)) with
    | none => rfl
    | some r =>
      refine (ih (i + 1) _ (by omega)).trans ?_
      rw [get_setIfInBounds, if_neg (by omega)]

theorem hexValue_lt {b : UInt8} (h : isHexDigit b = true) : hexValue b < 16 := by
  unfold isHexDigit isDigit at h
  unfold hexValue isDigit
  simp only [Bool.or_eq_true, Bool.and_eq_true, decide_eq_true_eq, UInt8.le_iff_toNat_le,
    UInt8.reduceToNat] at h ⊢
  split
  · omega
  split
  · omega
  · omega

/-- Two digits at their place are scanned as the byte that they write. -/
theorem scan_pair {n : Nat} {v : Text} (h : IsHex n v) {i : Nat} (hi : i < n) :
    ∃ rest, scan_hex_within 2 (v.drop (i * 2)) = some ((decoded v i).toUInt32, rest) := by
  obtain ⟨hlen, hdigits⟩ := h
  have hdrop : v.drop (i * 2) = v[2 * i] :: v[2 * i + 1] :: v.drop (2 * i + 1 + 1) := by
    rw [Nat.mul_comm, List.drop_eq_getElem_cons (by omega), List.drop_eq_getElem_cons]
  have hhigh := hdigits _ (List.getElem_mem (l := v) (n := 2 * i) (by omega))
  have hlow := hdigits _ (List.getElem_mem (l := v) (n := 2 * i + 1) (by omega))
  have hlt := hexValue_lt hhigh
  have hlt' := hexValue_lt hlow
  have hval : (decoded v i).toNat = hexadecimal [v[2 * i], v[2 * i + 1]] := by
    unfold decoded hexadecimal
    rw [List.getD_eq_getElem _ _ (by omega), List.getD_eq_getElem _ _ (by omega),
      UInt8.toNat_ofNat']
    simp only [List.foldl_cons, List.foldl_nil]
    omega
  refine ⟨v.drop (2 * i + 1 + 1), ?_⟩
  rw [hdrop, scan_hex_within_two hhigh hlow, ← hval, ← UInt8.toNat_toUInt32, uint_of_toNat]

/-- The bytes that the loop has turns for are decoded. -/
theorem get_parse_pairs_of_hex {n : Nat} {v : Text} (h : IsHex n v) (left i : Nat) (out : Key)
    (hle : i + left ≤ n) (k : Fin AES_KEY_LEN) :
    (parse_pairs v left i out).2.get k =
      if i ≤ k.val ∧ k.val < i + left then decoded v k else out.get k := by
  induction left generalizing i out with
  | zero =>
    rw [if_neg (by omega)]
    rfl
  | succ left ih =>
    obtain ⟨rest, hscan⟩ := scan_pair h (i := i) (by omega)
    rw [parse_pairs, hscan]
    dsimp only
    rw [ih (i + 1) _ (by omega), get_setIfInBounds]
    by_cases hk : i = k.val
    · rw [if_neg (by omega), if_pos hk, if_pos (by omega), UInt8.toUInt8_toUInt32, hk]
    · rw [if_neg hk]
      by_cases hlater : i + 1 ≤ k.val ∧ k.val < i + 1 + left
      · rw [if_pos hlater, if_pos (by omega)]
      · rw [if_neg hlater, if_neg (by omega)]

/-! ## What is recognised -/

theorem parse_hex_bytes_fst (v : Text) (out : Key) (n : Nat) :
    (parse_hex_bytes v out n).1 = true ↔ Scans n v := by
  unfold parse_hex_bytes Scans
  by_cases hlen : int32 v.length = n * 2
  · rw [if_neg (not_not.mpr hlen), parse_pairs_fst]
    exact ⟨fun h => ⟨hlen, fun i hi => h i (Nat.zero_le i) (by omega)⟩,
      fun h i _ hi => h.2 i (by omega)⟩
  · rw [if_pos hlen]
    exact iff_of_false (by simp) fun h => hlen h.1

theorem Scans.of_hex {n : Nat} {v : Text} (hn : n = 16 ∨ n = 32) (h : IsHex n v) : Scans n v := by
  have hlen := h.1
  refine ⟨?_, fun i hi => ?_⟩
  · rw [int32_of_lt (by omega) (by omega)]
    omega
  · obtain ⟨rest, hscan⟩ := scan_pair h hi
    rw [← scan_hex_within_two_isSome, hscan, Option.isSome_some]

theorem parse_hex_bytes_snd_of_hex {n : Nat} {v : Text} (hn : n = 16 ∨ n = 32) (h : IsHex n v)
    (out : Key) : (parse_hex_bytes v out n).2 = overwrite out n (decoded v) := by
  unfold parse_hex_bytes
  rw [if_neg (not_not.mpr (Scans.of_hex hn h).1)]
  refine key_ext fun k => ?_
  rw [get_parse_pairs_of_hex h n 0 out (by omega), get_overwrite]
  simp only [Nat.zero_le, true_and, Nat.zero_add]

/-- What a call leaves in the front of a key is gone once a digest is copied there. -/
theorem overwrite_parse_hex_bytes (v : Text) (out : Key) (n : Nat) (bytes : Nat → UInt8) :
    overwrite (parse_hex_bytes v out n).2 n bytes = overwrite out n bytes := by
  refine key_ext fun k => ?_
  rw [get_overwrite, get_overwrite]
  by_cases hk : k.val < n
  · rw [if_pos hk, if_pos hk]
  · rw [if_neg hk, if_neg hk]
    unfold parse_hex_bytes
    split
    · rfl
    · exact get_parse_pairs_of_outside v n 0 out (by omega)

theorem ne_fill_policy_key_eq (sha256 : Text → Vector UInt8 SHA256_DIGEST_LENGTH) {v : Text}
    (hv : v ≠ []) (n : Nat) :
    ne_fill_policy_key sha256 (some v) n =
      if Scans n v then (parse_hex_bytes v zero_key n).2
      else overwrite zero_key n fun i => (sha256 v).getD i 0 := by
  have hfst := parse_hex_bytes_fst v zero_key n
  have hover := overwrite_parse_hex_bytes v zero_key n fun i => (sha256 v).getD i 0
  unfold ne_fill_policy_key
  dsimp only
  rw [if_neg hv]
  generalize parse_hex_bytes v zero_key n = r at hfst hover ⊢
  obtain ⟨ok, out⟩ := r
  cases ok with
  | true => rw [if_pos (hfst.mp rfl)]
  | false =>
    rw [if_neg fun h => Bool.false_ne_true (hfst.mpr h)]
    exact hover

/-- A text is recognised exactly when it is in hexadecimal, or has another length, or has two
characters that `%2x` cannot begin at: the scanner takes white space, a sign, and one digit before
anything, so that a text of the right length with these passes for a key. -/
theorem a_key_is_recognised_exactly_iff_it_is_hex_or_does_not_scan
    (sha256 : Text → Vector UInt8 SHA256_DIGEST_LENGTH) {n : Nat} (hn : n = 16 ∨ n = 32)
    (v : Text) : RecognisedExactly sha256 n v ↔ IsHex n v ∨ ¬Scans n v := by
  constructor
  · intro h
    by_cases hscans : Scans n v
    · exact .inl ((h.success zero_key).mp ((parse_hex_bytes_fst v _ n).mpr hscans))
    · exact .inr hscans
  · intro h
    have hiff : Scans n v ↔ IsHex n v :=
      ⟨fun hscans => h.resolve_right (not_not.mpr hscans), Scans.of_hex hn⟩
    refine ⟨fun out => (parse_hex_bytes_fst v out n).trans hiff,
      fun hhex out => parse_hex_bytes_snd_of_hex hn hhex out, fun hv => ?_⟩
    rw [ne_fill_policy_key_eq sha256 hv]
    by_cases hhex : IsHex n v
    · rw [if_pos (hiff.mpr hhex), if_pos hhex, parse_hex_bytes_snd_of_hex hn hhex]
    · rw [if_neg fun hscans => hhex (hiff.mp hscans), if_neg hhex]

/-- `"correct horse battery staple"` -/
def passphrase : Text :=
  [99, 111, 114, 114, 101, 99, 116, 32, 104, 111, 114, 115, 101, 32, 98, 97, 116, 116, 101, 114,
    121, 32, 115, 116, 97, 112, 108, 101]

/-- `"0123456789abcdef0123456789abcdeg"` -/
def mistyped : Text :=
  [48, 49, 50, 51, 52, 53, 54, 55, 56, 57, 97, 98, 99, 100, 101, 102, 48, 49, 50, 51, 52, 53, 54,
    55, 56, 57, 97, 98, 99, 100, 101, 103]

/-- The SHA-256 digests of the two texts. -/
def digests (v : Text) : Vector UInt8 SHA256_DIGEST_LENGTH :=
  if v = mistyped then
    #v[0xeb, 0xe8, 0x45, 0xf6, 0xf7, 0xfc, 0x8b, 0xa9, 0xab, 0xe8, 0xcc, 0x6b, 0x9f, 0xe2, 0xbe,
      0x20, 0xe0, 0xd3, 0x58, 0x67, 0x08, 0x9b, 0xc5, 0x6d, 0x7c, 0xda, 0x29, 0xb8, 0xf7, 0x03,
      0x86, 0xc1]
  else
    #v[0xc4, 0xbb, 0xcb, 0x1f, 0xbe, 0xc9, 0x9d, 0x65, 0xbf, 0x59, 0xd8, 0x5c, 0x8c, 0xb6, 0x2e,
      0xe2, 0xdb, 0x96, 0x3f, 0x0f, 0xe1, 0x06, 0xf4, 0x83, 0xd9, 0xaf, 0xa7, 0x3b, 0xd4, 0xe3,
      0x9a, 0x8a]

theorem a_passphrase_is_recognised_exactly : RecognisedExactly digests 16 passphrase :=
  (a_key_is_recognised_exactly_iff_it_is_hex_or_does_not_scan digests (.inl rfl) passphrase).mpr
    (.inr (by decide +kernel))

/-- 31 digits and a letter that is none are taken for 16 bytes, the last of them 14. -/
theorem a_mistyped_key_passes_for_hex :
    ¬RecognisedExactly digests 16 mistyped ∧
    (parse_hex_bytes mistyped zero_key 16).1 = true ∧
    ne_fill_policy_key digests (some mistyped) 16 =
      #v[0x01, 0x23, 0x45, 0x67, 0x89, 0xab, 0xcd, 0xef, 0x01, 0x23, 0x45, 0x67, 0x89, 0xab, 0xcd,
        0x0e, 0, 0, 0, 0, 0, 0, 0, 0, 0, 0, 0, 0, 0, 0, 0, 0] := by
  have hparse : (parse_hex_bytes mistyped zero_key 16).1 = true := by
    decide +kernel
  refine ⟨fun h => ?_, hparse, key_ext (by decide +kernel)⟩
  have hhex := (h.success _).mp hparse
  revert hhex
  decide +kernel

end ne_ip.hex_key
