-- The start of the program (main.c): what its arguments ask for, and the way of a profile id from
-- the command line through the notification to the daemon.
import NeIp.ScanText

open c_text scan_text

namespace ne_ip.startup

def INT_MAX : Int := 2147483647

/-- A number with nothing behind it that can be an id. -/
def profile_id_in (s : Text) : Option Int :=
  match strtol s with
  | none => none
  | some (v, rest) => if rest ≠ [] ∨ v ≤ 0 ∨ INT_MAX < v then none else some v

/-- The argument of `-id`; -1 is `none`. -/
def parse_profile_id_token (token : Text) : Option Int := profile_id_in token

/-- The payload of a notification; -1 is `none`. -/
def parse_notify_profile_id (payload : Text) : Option Int := profile_id_in payload

/-! ## The arguments -/

/-- `"-id"` -/
def ID : Text := [45, 105, 100]
/-- `"--id"` -/
def LONG_ID : Text := [45, 45, 105, 100]

/-- What stands behind the `=` of `-id=` and `--id=`. -/
def id_str (arg : Text) : Text :=
  if arg[1]? = some 45 then (arg.dropWhile (· != 61)).tail else arg.drop 4

/-- The loop of `parse_startup_profile_id` with what is in `out_id`; -1 is `none` there. -/
def parse_args (out_id : Option Int) : List Text → Option (Option Int)
  | [] => some out_id
  | arg :: rest =>
    if arg = ID ∨ arg = LONG_ID then
      if out_id.isSome then none
      else
        match rest with
        | [] => none
        | token :: rest =>
          match parse_profile_id_token token with
          | none => none
          | some id => parse_args (some id) rest
    else if (ID ++ [61]).isPrefixOf arg || (LONG_ID ++ [61]).isPrefixOf arg then
      if out_id.isSome then none
      else
        match parse_profile_id_token (id_str arg) with
        | none => none
        | some id => parse_args (some id) rest
    else none

def parse_startup_profile_id (args : List Text) : Option (Option Int) := parse_args none args

/-- What the program does. -/
inductive Start where
  | usage
  | version
  | refused
  | notify (id : Int)
  | daemon
  deriving DecidableEq, Repr

/-- `main` up to its connection, with the arguments behind the name of the program. -/
def main (args : List Text) : Start :=
  if args = [[45, 104]] ∨ args = [[45, 45, 104, 101, 108, 112]] then .usage
  else if args = [[45, 45, 118, 101, 114, 115, 105, 111, 110]] then .version
  else
    match parse_startup_profile_id args with
    | none => .refused
    | some (some id) => .notify id
    | some none => if args ≠ [] then .refused else .daemon

/-! ## The notification -/

/-- `%d` -/
def print_int (x : Int) : Text :=
  if x < 0 then 45 :: (Nat.toDigits 10 x.natAbs).map Char.toUInt8
  else (Nat.toDigits 10 x.toNat).map Char.toUInt8

/-- `"SELECT pg_notify('xdp_start', '"` -/
def SELECT_NOTIFY : Text :=
  [83, 69, 76, 69, 67, 84, 32, 112, 103, 95, 110, 111, 116, 105, 102, 121, 40, 39, 120, 100, 112, 95,
    115, 116, 97, 114, 116, 39, 44, 32, 39]

/-- The statement of `notify_profile_load`, as much of it as the buffer takes. -/
def notify_sql (profile_id : Int) : Text :=
  (SELECT_NOTIFY ++ print_int profile_id ++ [39, 41]).take 95

/-! ## What an id looks like -/

/-- White space, perhaps a plus, and digits that write the id. -/
structure IdText (t : Text) (id : Int) : Prop where
  parts : ∃ blanks plus ds, t = blanks ++ plus ++ ds ∧ (∀ b ∈ blanks, isSpace b = true) ∧
    (plus = [] ∨ plus = [43]) ∧ ds ≠ [] ∧ (∀ b ∈ ds, isDigit b = true) ∧ (decimal ds : Int) = id
  pos : 0 < id
  le : id ≤ INT_MAX

theorem sign_cases (s : Text) : (∃ t, s = 45 :: t ∧ sign s = (-1, t)) ∨
    (∃ t, s = 43 :: t ∧ sign s = (1, t)) ∨ sign s = (1, s) := by
  unfold sign
  split
  · exact Or.inl ⟨_, rfl, rfl⟩
  · exact Or.inr (Or.inl ⟨_, rfl, rfl⟩)
  · exact Or.inr (Or.inr rfl)

/-- Digits with nothing behind them. -/
theorem all_digits {u : Text} (h : u.drop (u.takeWhile isDigit).length = []) :
    ∀ b ∈ u, isDigit b = true := by
  have hwhole : u.takeWhile isDigit = u := by
    have hlen := List.drop_eq_nil_iff.mp h
    exact (List.takeWhile_prefix isDigit).eq_of_length_le hlen
  exact List.takeWhile_eq_self_iff.mp hwhole

theorem idText_of_profile_id_in {t : Text} {id : Int} (h : profile_id_in t = some id) :
    IdText t id := by
  unfold profile_id_in at h
  split at h
  · simp at h
  rename_i v rest hnum
  split at h
  · simp at h
  rename_i hok
  obtain rfl := Option.some.inj h
  rw [not_or, not_or, not_not] at hok
  obtain ⟨rfl, hpos, hle⟩ := hok
  unfold strtol at hnum
  obtain ⟨n, hscan, hn⟩ := Option.map_eq_some_iff.mp hnum
  obtain ⟨hlong, hrest⟩ := Prod.mk.inj hn
  unfold long_of at hlong
  unfold INT_MAX at hle
  unfold scan_number at hscan
  have hsplit : t = t.takeWhile isSpace ++ t.dropWhile isSpace :=
    List.takeWhile_append_dropWhile.symm
  have hblanks : ∀ b ∈ t.takeWhile isSpace, isSpace b = true :=
    fun b hb => List.mem_takeWhile_imp hb
  revert hscan hsplit
  generalize t.dropWhile isSpace = s
  intro hscan hsplit
  -- the sign is a minus, a plus or none
  have hdigits : ∀ (sgn : Int) (u : Text), sign s = (sgn, u) →
      n.1 = sgn * decimal (u.takeWhile isDigit) ∧ u ≠ [] ∧ ∀ b ∈ u, isDigit b = true := by
    intro sgn u hsign
    rw [hsign] at hscan
    dsimp only at hscan
    split at hscan
    · simp at hscan
    rename_i hne
    have hn := (Option.some.inj hscan).symm
    rw [hn] at hrest
    refine ⟨by rw [hn], ?_, all_digits hrest⟩
    rintro rfl
    exact hne rfl
  rcases sign_cases s with ⟨u, rfl, hsign⟩ | ⟨u, rfl, hsign⟩ | hsign
  · obtain ⟨hval, -⟩ := hdigits _ _ hsign
    omega
  · obtain ⟨hval, hne, hall⟩ := hdigits _ _ hsign
    rw [List.takeWhile_eq_self_iff.mpr hall] at hval
    refine ⟨⟨_, [43], u, ?_, hblanks, Or.inr rfl, hne, hall, by omega⟩, by omega,
      by unfold INT_MAX; omega⟩
    rw [List.append_assoc]
    exact hsplit
  · obtain ⟨hval, hne, hall⟩ := hdigits _ _ hsign
    rw [List.takeWhile_eq_self_iff.mpr hall] at hval
    refine ⟨⟨_, [], s, ?_, hblanks, Or.inl rfl, hne, hall, by omega⟩, by omega,
      by unfold INT_MAX; omega⟩
    rw [List.append_nil]
    exact hsplit

theorem profile_id_in_of_idText {t : Text} {id : Int} (h : IdText t id) :
    profile_id_in t = some id := by
  obtain ⟨blanks, plus, ds, rfl, hblanks, hplus, hne, hall, hval⟩ := h.parts
  have hpos := h.pos
  have hle := h.le
  obtain ⟨d, ds', rfl⟩ := List.exists_cons_of_ne_nil hne
  have hdigit : isHexDigit d = true := isHexDigit_of_isDigit (hall d List.mem_cons_self)
  have hsign : sign ((blanks ++ plus ++ d :: ds').dropWhile isSpace) = (1, d :: ds') := by
    rw [List.append_assoc, List.dropWhile_append_of_pos hblanks]
    rcases hplus with rfl | rfl
    · rw [List.nil_append, dropWhile_isSpace_cons hdigit, sign_cons hdigit]
    · rfl
  have hscan : scan_number (blanks ++ plus ++ d :: ds') = some (id, []) := by
    unfold scan_number
    rw [hsign]
    dsimp only
    rw [List.takeWhile_eq_self_iff.mpr hall, if_neg hne, Int.one_mul, List.drop_length, hval]
  have hlong : long_of id = id := by
    unfold long_of
    unfold INT_MAX at hle
    omega
  unfold profile_id_in strtol
  rw [hscan, Option.map_some, hlong]
  dsimp only
  rw [if_neg]
  rintro (hrest | hneg | hbig)
  · exact hrest rfl
  · omega
  · omega

/-- What is accepted as an id. -/
theorem profile_id_in_eq_some_iff (t : Text) (id : Int) :
    profile_id_in t = some id ↔ IdText t id :=
  ⟨idText_of_profile_id_in, profile_id_in_of_idText⟩

/-- An id that is printed is read again. -/
theorem idText_print {id : Int} (hpos : 0 < id) (hle : id ≤ INT_MAX) :
    IdText (print_int id) id := by
  unfold INT_MAX at hle
  have hprint : print_int id = print_unsigned (UInt32.ofNat id.toNat) := by
    have hnat : (UInt32.ofNat id.toNat).toNat = id.toNat :=
      UInt32.toNat_ofNat_of_lt' (by rw [show UInt32.size = 4294967296 from rfl]; omega)
    unfold print_int print_unsigned
    rw [if_neg (by omega), hnat]
  have hnat : (UInt32.ofNat id.toNat).toNat = id.toNat :=
    UInt32.toNat_ofNat_of_lt' (by rw [show UInt32.size = 4294967296 from rfl]; omega)
  refine ⟨⟨[], [], print_int id, rfl, by simp, Or.inl rfl, ?_, ?_, ?_⟩, hpos, hle⟩
  · rw [hprint]
    exact print_unsigned_ne_nil _
  · rw [hprint]
    exact fun b hb => isDigit_of_mem_print hb
  · rw [hprint, decimal_print, hnat]
    omega

/-! ## What the arguments ask for -/

/-- Once there is an id, nothing may follow. -/
theorem parse_args_some (id : Int) (args : List Text) (out : Option Int) :
    parse_args (some id) args = some out ↔ args = [] ∧ out = some id := by
  cases args with
  | nil =>
    unfold parse_args
    rw [Option.some.injEq, eq_comm (a := some id)]
    exact (and_iff_right rfl).symm
  | cons arg rest =>
    unfold parse_args
    simp

/-- The four ways to give an id. -/
inductive Gives (token : Text) : List Text → Prop
  | id : Gives token [ID, token]
  | long_id : Gives token [LONG_ID, token]
  | id_eq : Gives token [ID ++ 61 :: token]
  | long_id_eq : Gives token [LONG_ID ++ 61 :: token]

theorem id_str_eq_iff {arg token : Text} :
    ((ID ++ [61]).isPrefixOf arg || (LONG_ID ++ [61]).isPrefixOf arg) = true ∧ id_str arg = token ↔
      arg = ID ++ 61 :: token ∨ arg = LONG_ID ++ 61 :: token := by
  rw [Bool.or_eq_true, List.isPrefixOf_iff_prefix, List.isPrefixOf_iff_prefix]
  constructor
  · rintro ⟨⟨u, rfl⟩ | ⟨u, rfl⟩, rfl⟩
    · exact Or.inl rfl
    · exact Or.inr rfl
  · rintro (rfl | rfl)
    · exact ⟨Or.inl ⟨token, rfl⟩, rfl⟩
    · exact ⟨Or.inr ⟨token, rfl⟩, rfl⟩

theorem gives_opt_iff {arg token : Text} {rest : List Text} (h : arg = ID ∨ arg = LONG_ID) :
    Gives token (arg :: rest) ↔ rest = [token] := by
  constructor
  · intro hgives
    cases hgives with
    | id => rfl
    | long_id => rfl
    | id_eq => exact absurd h (by simp [ID, LONG_ID])
    | long_id_eq => exact absurd h (by simp [ID, LONG_ID])
  · rintro rfl
    rcases h with rfl | rfl
    · exact Gives.id
    · exact Gives.long_id

theorem gives_eq_iff {arg token : Text} {rest : List Text} (h : ¬(arg = ID ∨ arg = LONG_ID)) :
    Gives token (arg :: rest) ↔
      (arg = ID ++ 61 :: token ∨ arg = LONG_ID ++ 61 :: token) ∧ rest = [] := by
  constructor
  · intro hgives
    cases hgives with
    | id => exact absurd (Or.inl rfl) h
    | long_id => exact absurd (Or.inr rfl) h
    | id_eq => exact ⟨Or.inl rfl, rfl⟩
    | long_id_eq => exact ⟨Or.inr rfl, rfl⟩
  · rintro ⟨rfl | rfl, rfl⟩
    · exact Gives.id_eq
    · exact Gives.long_id_eq

/-- What the loop makes of a token and the arguments behind it. -/
def parse_token (token : Text) (rest : List Text) : Option (Option Int) :=
  (parse_profile_id_token token).bind fun id => parse_args (some id) rest

theorem parse_token_some_iff {token : Text} {rest : List Text} {out : Option Int} :
    parse_token token rest = some out ↔
      rest = [] ∧ ∃ id, parse_profile_id_token token = some id ∧ out = some id := by
  unfold parse_token
  simp only [Option.bind_eq_some_iff, parse_args_some]
  constructor
  · rintro ⟨id, hid, rfl, rfl⟩
    exact ⟨rfl, id, hid, rfl⟩
  · rintro ⟨rfl, id, hid, rfl⟩
    exact ⟨id, hid, rfl, rfl⟩

theorem parse_args_opt_nil {arg : Text} (h : arg = ID ∨ arg = LONG_ID) :
    parse_args none [arg] = none := by
  unfold parse_args
  rw [if_pos h]
  rfl

theorem parse_args_opt {arg : Text} (h : arg = ID ∨ arg = LONG_ID) (token : Text)
    (rest : List Text) : parse_args none (arg :: token :: rest) = parse_token token rest := by
  unfold parse_args parse_token
  rw [if_pos h]
  dsimp only [Option.isSome_none]
  rw [if_neg Bool.false_ne_true]
  cases parse_profile_id_token token <;> rfl

theorem parse_args_eq {arg : Text} (h : ¬(arg = ID ∨ arg = LONG_ID)) (rest : List Text) :
    parse_args none (arg :: rest) =
      if (ID ++ [61]).isPrefixOf arg || (LONG_ID ++ [61]).isPrefixOf arg then
        parse_token (id_str arg) rest
      else none := by
  unfold parse_args parse_token
  rw [if_neg h]
  split
  · cases parse_profile_id_token (id_str arg) <;> rfl
  · rfl

theorem parse_startup_profile_id_some_iff (args : List Text) (id : Int) :
    parse_startup_profile_id args = some (some id) ↔
      ∃ token, Gives token args ∧ parse_profile_id_token token = some id := by
  unfold parse_startup_profile_id
  cases args with
  | nil =>
    constructor
    · intro h
      cases h
    · rintro ⟨token, hgives, -⟩
      cases hgives
  | cons arg rest =>
    by_cases hopt : arg = ID ∨ arg = LONG_ID
    · simp only [gives_opt_iff hopt]
      cases rest with
      | nil =>
        rw [parse_args_opt_nil hopt]
        simp
      | cons token rest =>
        rw [parse_args_opt hopt, parse_token_some_iff]
        constructor
        · rintro ⟨rfl, id', hid, he⟩
          obtain rfl := Option.some.inj he
          exact ⟨token, rfl, hid⟩
        · rintro ⟨token', heq, hid⟩
          obtain ⟨rfl, rfl⟩ := List.cons.inj heq
          exact ⟨rfl, id, hid, rfl⟩
    · simp only [gives_eq_iff hopt, ← id_str_eq_iff]
      rw [parse_args_eq hopt]
      split
      · rename_i hpre
        rw [parse_token_some_iff]
        constructor
        · rintro ⟨rfl, id', hid, he⟩
          obtain rfl := Option.some.inj he
          exact ⟨id_str arg, ⟨⟨hpre, rfl⟩, rfl⟩, hid⟩
        · rintro ⟨token, ⟨⟨-, rfl⟩, rfl⟩, hid⟩
          exact ⟨rfl, id, hid, rfl⟩
      · rename_i hpre
        constructor
        · intro h
          cases h
        · rintro ⟨token, ⟨⟨hin, -⟩, -⟩, -⟩
          exact absurd hin hpre

/-- Arguments that give no id are refused, so there are none. -/
theorem parse_startup_profile_id_none_iff (args : List Text) :
    parse_startup_profile_id args = some none ↔ args = [] := by
  unfold parse_startup_profile_id
  have hno : ∀ token rest, parse_token token rest ≠ some none := by
    intro token rest h
    obtain ⟨-, id, -, he⟩ := parse_token_some_iff.mp h
    cases he
  cases args with
  | nil => exact ⟨fun _ => rfl, fun _ => rfl⟩
  | cons arg rest =>
    refine ⟨fun h => ?_, fun h => by cases h⟩
    by_cases hopt : arg = ID ∨ arg = LONG_ID
    · cases rest with
      | nil =>
        rw [parse_args_opt_nil hopt] at h
        cases h
      | cons token rest =>
        rw [parse_args_opt hopt] at h
        exact absurd h (hno token rest)
    · rw [parse_args_eq hopt] at h
      split at h
      · exact absurd h (hno _ rest)
      · cases h

/-- The statement fits its buffer. -/
theorem notify_sql_eq {id : Int} (hpos : 0 < id) (hle : id ≤ INT_MAX) :
    notify_sql id = SELECT_NOTIFY ++ print_int id ++ [39, 41] := by
  unfold INT_MAX at hle
  have hdigits : (print_int id).length ≤ 10 := by
    unfold print_int
    rw [if_neg (by omega), List.length_map,
      Nat.length_toDigits_le_iff (by decide) (by decide)]
    omega
  unfold notify_sql
  refine List.take_of_length_le ?_
  rw [List.length_append, List.length_append, show SELECT_NOTIFY.length = 31 from rfl]
  simp only [List.length_cons, List.length_nil]
  omega

theorem main_notify_iff (args : List Text) (id : Int) :
    main args = .notify id ↔ parse_startup_profile_id args = some (some id) := by
  have hforms : ∀ token, ¬Gives token [[45, 104]] ∧ ¬Gives token [[45, 45, 104, 101, 108, 112]] ∧
      ¬Gives token [[45, 45, 118, 101, 114, 115, 105, 111, 110]] := by
    intro token
    refine ⟨?_, ?_, ?_⟩ <;> rintro ⟨⟩
  unfold main
  split
  · rename_i husage
    refine ⟨fun h => (by cases h), fun h => ?_⟩
    obtain ⟨token, hgives, -⟩ := (parse_startup_profile_id_some_iff args id).mp h
    rcases husage with rfl | rfl
    · exact absurd hgives (hforms token).1
    · exact absurd hgives (hforms token).2.1
  · split
    · rename_i hversion
      refine ⟨fun h => (by cases h), fun h => ?_⟩
      obtain ⟨token, hgives, -⟩ := (parse_startup_profile_id_some_iff args id).mp h
      rw [hversion] at hgives
      exact absurd hgives (hforms token).2.2
    · split
      · rename_i hparse
        rw [hparse]
        exact ⟨fun h => (by cases h), fun h => (by cases h)⟩
      · rename_i id' hparse
        rw [hparse, Start.notify.injEq, Option.some.injEq, Option.some.injEq]
      · rename_i hparse
        rw [hparse]
        split
        · exact ⟨fun h => (by cases h), fun h => (by cases h)⟩
        · exact ⟨fun h => (by cases h), fun h => (by cases h)⟩

/-- The program is the daemon without arguments only, and it sends a notification for an id only
when this is all that the arguments give; the daemon then reads the same id from the payload. -/
theorem an_id_on_the_command_line_is_the_one_that_the_daemon_reads (args : List Text) :
    (main args = .daemon ↔ args = []) ∧
    (∀ id, main args = .notify id ↔ ∃ token, Gives token args ∧ IdText token id) ∧
    ∀ id, main args = .notify id →
      notify_sql id = SELECT_NOTIFY ++ print_int id ++ [39, 41] ∧
      parse_notify_profile_id (print_int id) = some id := by
  have hgives : ∀ id, main args = .notify id ↔ ∃ token, Gives token args ∧ IdText token id := by
    intro id
    rw [main_notify_iff, parse_startup_profile_id_some_iff]
    exact exists_congr fun token => and_congr_right fun _ => profile_id_in_eq_some_iff token id
  refine ⟨?_, hgives, fun id hid => ?_⟩
  · constructor
    · intro h
      unfold main at h
      split at h
      · cases h
      split at h
      · cases h
      split at h
      · cases h
      · cases h
      · rename_i hparse
        exact (parse_startup_profile_id_none_iff args).mp hparse
    · rintro rfl
      rfl
  · obtain ⟨token, -, htext⟩ := (hgives id).mp hid
    exact ⟨notify_sql_eq htext.pos htext.le,
      profile_id_in_of_idText (idText_print htext.pos htext.le)⟩

/-- `--id=" +7"` -/
theorem seven_on_the_command_line_is_seven_for_the_daemon :
    main [LONG_ID ++ 61 :: [32, 43, 55]] = .notify 7 ∧
      parse_notify_profile_id (print_int 7) = some 7 := by
  have hmain : main [LONG_ID ++ 61 :: [32, 43, 55]] = .notify 7 := rfl
  exact ⟨hmain, ((an_id_on_the_command_line_is_the_one_that_the_daemon_reads _).2.2 7 hmain).2⟩

end ne_ip.startup
