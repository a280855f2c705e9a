-- Text as C programs handle it, as lists of bytes before the NUL: blanks at the ends,
-- lists that are joined by a separator, and numbers at the front.
import Mathlib.Algebra.Ring.Int.Defs
import Mathlib.Algebra.Ring.Nat
import Mathlib.Data.List.DropRight

namespace c_text

abbrev Text := List UInt8

/-! ## Blanks at the ends -/

/-- A space or a tab. -/
def isBlank (b : UInt8) : Bool := b == 32 || b == 9

def ltrim (s : Text) : Text := s.dropWhile isBlank

def rtrim (s : Text) : Text := s.rdropWhile isBlank

def trim (s : Text) : Text := rtrim (ltrim s)

/-- Something in the text is not blank. -/
def NonBlank (s : Text) : Prop := ∃ b ∈ s, isBlank b = false

theorem ltrim_ne_nil_iff {s : Text} : ltrim s ≠ [] ↔ NonBlank s := by
  unfold ltrim NonBlank
  rw [Ne, List.dropWhile_eq_nil_iff]
  simp only [not_forall, exists_prop, Bool.not_eq_true]

theorem rtrim_ne_nil_iff {s : Text} : rtrim s ≠ [] ↔ NonBlank s := by
  unfold rtrim NonBlank
  rw [Ne, List.rdropWhile_eq_nil_iff]
  simp only [not_forall, exists_prop, Bool.not_eq_true]

theorem ltrim_append {s : Text} (h : NonBlank s) (t : Text) : ltrim (s ++ t) = ltrim s ++ t := by
  have hne := ltrim_ne_nil_iff.mpr h
  unfold ltrim at hne ⊢
  rw [List.dropWhile_append, if_neg]
  simpa using hne

theorem rtrim_append {t : Text} (h : NonBlank t) (s : Text) : rtrim (s ++ t) = s ++ rtrim t := by
  have hrev : NonBlank t.reverse := by
    obtain ⟨b, hb, hblank⟩ := h
    exact ⟨b, List.mem_reverse.mpr hb, hblank⟩
  have happ := ltrim_append hrev s.reverse
  unfold ltrim at happ
  unfold rtrim List.rdropWhile
  rw [List.reverse_append, happ, List.reverse_append, List.reverse_reverse]

/-- A text that is not blank starts with blanks and a byte that is none. -/
theorem NonBlank.split {s : Text} (h : NonBlank s) :
    ∃ pre b post, s = pre ++ b :: post ∧ (∀ a ∈ pre, isBlank a = true) ∧ isBlank b = false := by
  have hne := ltrim_ne_nil_iff.mpr h
  refine ⟨s.takeWhile isBlank, (ltrim s).head hne, (ltrim s).tail, ?_, ?_, ?_⟩
  · rw [List.cons_head_tail]
    exact List.takeWhile_append_dropWhile.symm
  · exact fun a ha => List.mem_takeWhile_imp ha
  · exact List.head_dropWhile_not _ hne

theorem NonBlank.ltrim {s : Text} (h : NonBlank s) : NonBlank (ltrim s) := by
  have hne := ltrim_ne_nil_iff.mpr h
  exact ⟨_, List.head_mem hne, List.head_dropWhile_not _ hne⟩

theorem NonBlank.rtrim {s : Text} (h : NonBlank s) : NonBlank (rtrim s) := by
  have hne := rtrim_ne_nil_iff.mpr h
  exact ⟨_, List.getLast_mem hne, Bool.eq_false_iff.mpr (List.rdropWhile_last_not _ _ hne)⟩

theorem trim_ltrim (s : Text) : trim (ltrim s) = trim s := by
  unfold trim ltrim
  rw [List.dropWhile_idempotent]

theorem ltrim_cons {b : UInt8} (hb : isBlank b = false) (s : Text) : ltrim (b :: s) = b :: s :=
  List.dropWhile_cons_of_neg (by simp [hb])

theorem ltrim_blanks {pre : Text} (hpre : ∀ a ∈ pre, isBlank a = true) (s : Text) :
    ltrim (pre ++ s) = ltrim s := List.dropWhile_append_of_pos hpre

/-- A byte in front that is not blank stays. -/
theorem rtrim_cons {b : UInt8} (hb : isBlank b = false) (s : Text) :
    ∃ t, rtrim (b :: s) = b :: t := by
  by_cases hs : NonBlank s
  · exact ⟨rtrim s, rtrim_append hs [b]⟩
  · have hall : ∀ a ∈ s.reverse, isBlank a = true := by
      intro a ha
      by_contra hnot
      exact hs ⟨a, List.mem_reverse.mp ha, Bool.eq_false_iff.mpr hnot⟩
    refine ⟨[], ?_⟩
    unfold rtrim List.rdropWhile
    rw [List.reverse_cons, List.dropWhile_append_of_pos hall,
      List.dropWhile_cons_of_neg (by simp [hb])]
    rfl

/-- The two ends are trimmed in either order. -/
theorem trim_rtrim {s : Text} (h : NonBlank s) : trim (rtrim s) = trim s := by
  obtain ⟨pre, b, post, rfl, hpre, hb⟩ := h.split
  have hrest : NonBlank (b :: post) := ⟨b, List.mem_cons_self, hb⟩
  obtain ⟨t, ht⟩ := rtrim_cons hb post
  unfold trim
  rw [rtrim_append hrest, ltrim_blanks hpre, ltrim_blanks hpre, ltrim_cons hb, ht, ltrim_cons hb,
    ← ht]
  exact List.rdropWhile_idempotent _ _

/-- What is left of a text that is not blank starts with a byte that is not blank. -/
theorem trim_head {s : Text} (h : NonBlank s) : ∃ b t, trim s = b :: t ∧ isBlank b = false := by
  obtain ⟨pre, b, post, rfl, hpre, hb⟩ := h.split
  obtain ⟨t, ht⟩ := rtrim_cons hb post
  refine ⟨b, t, ?_, hb⟩
  unfold trim
  rw [ltrim_blanks hpre, ltrim_cons hb, ht]

/-! ## Lists in a text -/

/-- The items with the separator between them. -/
def join (sep : UInt8) (items : List Text) : Text := [sep].intercalate items

/-- The parts between the separators that are not empty (`strtok_r`). -/
def tokens (sep : UInt8) (s : Text) : List Text := (s.splitOn sep).filter (· != [])

theorem tokens_join {sep : UInt8} {items : List Text} (hsep : ∀ t ∈ items, sep ∉ t)
    (hne : ∀ t ∈ items, t ≠ []) : tokens sep (join sep items) = items := by
  unfold tokens join
  cases items with
  | nil => rfl
  | cons t ts =>
    rw [List.splitOn_intercalate sep hsep (List.cons_ne_nil _ _), List.filter_eq_self]
    intro s hs
    simpa using hne s hs

/-- The first item is the front of the text. -/
theorem join_cons (sep : UInt8) (ts : List Text) :
    ∃ post, ∀ t, join sep (t :: ts) = t ++ post := by
  unfold join
  cases ts with
  | nil => exact ⟨[], fun t => by rw [List.intercalate_singleton, List.append_nil]⟩
  | cons u us =>
    refine ⟨[sep] ++ [sep].intercalate (u :: us), fun t => ?_⟩
    rw [List.intercalate_cons_cons, List.append_assoc]

/-- The last item is the end of the text. -/
theorem join_concat (sep : UInt8) (ts : List Text) :
    ∃ pre, ∀ t, join sep (ts ++ [t]) = pre ++ t := by
  induction ts with
  | nil => exact ⟨[], fun t => by rw [List.nil_append, join, List.intercalate_singleton]; rfl⟩
  | cons u us ih =>
    obtain ⟨pre, hpre⟩ := ih
    refine ⟨u ++ [sep] ++ pre, fun t => ?_⟩
    obtain ⟨v, vs, hvs⟩ := List.exists_cons_of_ne_nil (List.concat_ne_nil t us)
    have hjoin := hpre t
    unfold join at hjoin ⊢
    rw [List.cons_append, hvs, List.intercalate_cons_cons, ← hvs, hjoin]
    simp only [List.append_assoc]

/-- Every item can stand in a list: it has no separator and is not blank. -/
def Items (sep : UInt8) (items : List Text) : Prop := ∀ t ∈ items, sep ∉ t ∧ NonBlank t

theorem ltrim_join {sep : UInt8} {items : List Text} (h : Items sep items) (hne : items ≠ []) :
    ∃ items', ltrim (join sep items) = join sep items' ∧ items'.map trim = items.map trim ∧
      items' ≠ [] ∧ Items sep items' := by
  obtain ⟨t, ts, rfl⟩ := List.exists_cons_of_ne_nil hne
  obtain ⟨hsep, hblank⟩ := h t List.mem_cons_self
  obtain ⟨post, hpost⟩ := join_cons sep ts
  refine ⟨ltrim t :: ts, ?_, ?_, List.cons_ne_nil _ _, fun s hs => ?_⟩
  · rw [hpost, hpost, ltrim_append hblank]
  · rw [List.map_cons, List.map_cons, trim_ltrim]
  · rcases List.mem_cons.mp hs with rfl | hs
    · exact ⟨fun hmem => hsep ((List.dropWhile_suffix _).subset hmem), hblank.ltrim⟩
    · exact h s (List.mem_cons_of_mem t hs)

theorem rtrim_join {sep : UInt8} {items : List Text} (h : Items sep items) (hne : items ≠ []) :
    ∃ items', rtrim (join sep items) = join sep items' ∧ items'.map trim = items.map trim ∧
      Items sep items' := by
  obtain ⟨ts, t, rfl⟩ := (List.eq_nil_or_concat items).resolve_left hne
  rw [List.concat_eq_append] at h ⊢
  obtain ⟨hsep, hblank⟩ := h t (List.mem_append_right ts (List.mem_singleton_self t))
  obtain ⟨pre, hpre⟩ := join_concat sep ts
  refine ⟨ts ++ [rtrim t], ?_, ?_, fun s hs => ?_⟩
  · rw [hpre, hpre, rtrim_append hblank]
  · rw [List.map_append, List.map_append, List.map_singleton, List.map_singleton,
      trim_rtrim hblank]
  · rcases List.mem_append.mp hs with hs | hs
    · exact h s (List.mem_append_left _ hs)
    · rw [List.mem_singleton.mp hs]
      exact ⟨fun hmem => hsep ((List.rdropWhile_prefix _ _).subset hmem), hblank.rtrim⟩

/-- The items come back from the joined text, each trimmed, also when the text is trimmed first. -/
theorem tokens_trim_join {sep : UInt8} {items : List Text} (h : Items sep items) :
    (tokens sep (trim (join sep items))).map trim = items.map trim := by
  by_cases hne : items = []
  · subst hne
    rfl
  obtain ⟨items1, hfront, htrim1, hne1, h1⟩ := ltrim_join h hne
  obtain ⟨items2, hend, htrim2, h2⟩ := rtrim_join h1 hne1
  have hparts : tokens sep (trim (join sep items)) = items2 := by
    unfold trim
    rw [hfront, hend]
    refine tokens_join (fun t ht => (h2 t ht).1) fun t ht hnil => ?_
    obtain ⟨b, hb, -⟩ := (h2 t ht).2
    rw [hnil] at hb
    exact List.not_mem_nil hb
  rw [hparts, htrim2, htrim1]

/-! ## Numbers at the front of a text -/

/-- `isspace` -/
def isSpace (b : UInt8) : Bool := b == 32 || (9 ≤ b && b ≤ 13)

def isDigit (b : UInt8) : Bool := 48 ≤ b && b ≤ 57

/-- The number that decimal digits write. -/
def decimal (ds : Text) : Nat := ds.foldl (fun n b => 10 * n + (b.toNat - 48)) 0

/-- An optional sign. -/
def sign (s : Text) : Int × Text :=
  match s with
  | 45 :: s => (-1, s)
  | 43 :: s => (1, s)
  | s => (1, s)

/-- A number in decimal at the front of the text, after white space: its value and what follows. -/
def scan_number (s : Text) : Option (Int × Text) :=
  let (sgn, s) := sign (s.dropWhile isSpace)
  let ds := s.takeWhile isDigit
  if ds = [] then none else some (sgn * decimal ds, s.drop ds.length)

/-- What a `long` of 64 bits holds of a number that was read. -/
def long_of (x : Int) : Int := max (-2 ^ 63) (min x (2 ^ 63 - 1))

/-- `strtol` in base 10, when there is a number: its value and the rest of the text. -/
def strtol (s : Text) : Option (Int × Text) := (scan_number s).map fun n => (long_of n.1, n.2)

/-- The conversion `%d`, which stores a `long` in an `int` of 32 bits. -/
def scan_int (s : Text) : Option (Int × Text) :=
  (strtol s).map fun n => (Int.bmod n.1 (2 ^ 32), n.2)

/-- One part of a dotted quad: digits, no more than 255 and without a leading zero. -/
def octet (s : Text) : Option UInt32 :=
  if s ≠ [] ∧ s.all isDigit = true ∧ (s.head? = some 48 → s.length = 1) ∧ decimal s ≤ 255 then
    some (UInt32.ofNat (decimal s))
  else none

/-- `inet_pton` for IPv4: the address as a little-endian machine loads it from memory. -/
def inet_pton (s : Text) : Option UInt32 :=
  match (s.splitOn 46).map octet with
  | [some a, some b, some c, some d] => some (a ||| b <<< 8 ||| c <<< 16 ||| d <<< 24)
  | _ => none

/-- An address starts with a digit. -/
theorem inet_pton_head {s : Text} {ip : UInt32} (h : inet_pton s = some ip) :
    ∃ b rest, s = b :: rest ∧ isDigit b = true := by
  unfold inet_pton at h
  split at h
  · rename_i hparts
    obtain ⟨t, ts, hsplit⟩ := List.exists_cons_of_ne_nil (List.splitOn_ne_nil (46 : UInt8) s)
    rw [hsplit, List.map_cons] at hparts
    have ht := (List.cons.inj hparts).1
    unfold octet at ht
    split at ht
    · rename_i hdigits
      obtain ⟨b, rest, rfl⟩ := List.exists_cons_of_ne_nil hdigits.1
      obtain ⟨post, hpost⟩ := join_cons 46 ts
      refine ⟨b, rest ++ post, ?_, List.all_eq_true.mp hdigits.2.1 b List.mem_cons_self⟩
      rw [← @List.intercalate_splitOn _ s _ _ 46, hsplit]
      exact hpost (b :: rest)
    · simp at ht
  · simp at h

/-- `strcasecmp` with a text in lower case finds no difference. -/
def same_letters (s lower : Text) : Bool :=
  s.map (fun b => if 65 ≤ b && b ≤ 90 then b + 32 else b) == lower

end c_text
