-- Byte buffers. A buffer is its bytes from a start address on, with no
-- end: the length of what is in it is kept apart, as C code keeps it.
-- A write changes the bytes of its range and no other byte.
import Mathlib.Data.List.GetD
import Mathlib.Tactic.Linarith

namespace byte_buf

abbrev Bytes := List UInt8

/-- The bytes of a buffer, by their offset. -/
abbrev Buf := Nat → UInt8

/-- The `n` bytes from offset `off`. -/
def read (b : Buf) : Nat → Nat → Bytes
  | _, 0 => []
  | off, n + 1 => b off :: read b (off + 1) n

/-- `memcpy` of `bs` to offset `off`. -/
def write (b : Buf) (off : Nat) (bs : Bytes) : Buf :=
  fun i => if off ≤ i ∧ i < off + bs.length then bs.getD (i - off) 0 else b i

/-- The big-endian 16 bit number at offset `off`. -/
def be16 (b : Buf) (off : Nat) : Nat := (b off).toNat * 256 + (b (off + 1)).toNat

/-- The two bytes of a 16 bit number, big-endian. A larger number is cut to 16 bits. -/
def be16Bytes (x : Nat) : Bytes := [UInt8.ofNat (x / 256), UInt8.ofNat x]

/-- The buffer that starts with `bs` and holds 0 after it. -/
def ofBytes (bs : Bytes) : Buf := fun i => bs.getD i 0

/-! ## Reads -/

@[simp] theorem read_zero (b : Buf) (off : Nat) : read b off 0 = [] := rfl

theorem read_succ (b : Buf) (off n : Nat) : read b off (n + 1) = b off :: read b (off + 1) n := rfl

@[simp] theorem read_one (b : Buf) (off : Nat) : read b off 1 = [b off] := rfl

@[simp] theorem length_read (b : Buf) (off n : Nat) : (read b off n).length = n := by
  induction n generalizing off with
  | zero => rfl
  | succ n ih => simp [read_succ, ih]

theorem getD_read (b : Buf) (off n i : Nat) (h : i < n) :
    (read b off n).getD i 0 = b (off + i) := by
  induction n generalizing off i with
  | zero => omega
  | succ n ih =>
    cases i with
    | zero => simp [read_succ]
    | succ i =>
      have := ih (off + 1) i (by omega)
      simp only [read_succ, List.getD_cons_succ, this]
      congr 1
      omega

/-- Two ranges with the same bytes read the same. -/
theorem read_congr_shift {b c : Buf} {off off' n : Nat} (h : ∀ i, i < n → b (off + i) = c (off' + i)) :
    read b off n = read c off' n := by
  induction n generalizing off off' with
  | zero => rfl
  | succ n ih =>
    rw [read_succ, read_succ, show b off = c off' from h 0 (by omega), ih]
    intro i hi
    rw [Nat.add_right_comm, Nat.add_right_comm off']
    exact h (i + 1) (by omega)

/-- Two buffers that agree on a range read the same there. -/
theorem read_congr {b c : Buf} {off n : Nat} (h : ∀ i, off ≤ i → i < off + n → b i = c i) :
    read b off n = read c off n :=
  read_congr_shift fun i hi => h (off + i) (by omega) (by omega)

theorem read_add (b : Buf) (off m n : Nat) :
    read b off (m + n) = read b off m ++ read b (off + m) n := by
  induction m generalizing off with
  | zero => simp
  | succ m ih =>
    rw [show m + 1 + n = (m + n) + 1 by omega, read_succ, read_succ, ih]
    simp [Nat.add_assoc, Nat.add_comm 1 m]

theorem be16_lt (b : Buf) (off : Nat) : be16 b off < 65536 := by
  have h1 := (b off).toNat_lt
  have h2 := (b (off + 1)).toNat_lt
  unfold be16
  omega

theorem be16_congr {b c : Buf} {off : Nat} (h1 : b off = c off) (h2 : b (off + 1) = c (off + 1)) :
    be16 b off = be16 c off := by
  unfold be16
  rw [h1, h2]

theorem be16_ofBytes_read (b : Buf) (off n i : Nat) (h : i + 1 < n) :
    be16 (ofBytes (read b off n)) i = be16 b (off + i) := by
  unfold be16 ofBytes
  rw [getD_read _ _ _ _ (by omega), getD_read _ _ _ _ h, Nat.add_assoc]

theorem read_ofBytes (bs : Bytes) : read (ofBytes bs) 0 bs.length = bs := by
  apply List.ext_getElem (length_read _ _ _)
  intro i h1 h2
  have hr := getD_read (ofBytes bs) 0 bs.length i h2
  rw [List.getD_eq_getElem _ _ h1, Nat.zero_add] at hr
  rw [hr]
  exact List.getD_eq_getElem _ _ h2

@[simp] theorem length_be16Bytes (x : Nat) : (be16Bytes x).length = 2 := rfl

/-- Only the low 16 bits of a number are written. -/
theorem be16Bytes_congr {x y : Nat} (h : x % 65536 = y % 65536) : be16Bytes x = be16Bytes y := by
  have h1 : x / 256 % 256 = y / 256 % 256 := by omega
  have h2 : x % 256 = y % 256 := by omega
  unfold be16Bytes
  congr 1
  · rw [← UInt8.toNat_inj, UInt8.toNat_ofNat', UInt8.toNat_ofNat', h1]
  · congr 1
    rw [← UInt8.toNat_inj, UInt8.toNat_ofNat', UInt8.toNat_ofNat', h2]

theorem getD_set_self {bs : Bytes} {i : Nat} (h : i < bs.length) (x : UInt8) :
    (bs.set i x).getD i 0 = x := by
  rw [List.getD_eq_getElem _ _ (by rw [List.length_set]; exact h), List.getElem_set_self]

theorem getD_set_ne (bs : Bytes) (x : UInt8) {i j : Nat} (h : j ≠ i) :
    (bs.set i x).getD j 0 = bs.getD j 0 := by
  rw [List.getD_eq_getElem?_getD, List.getD_eq_getElem?_getD, List.getElem?_set_ne h.symm]

/-! ## Writes -/

theorem write_in (b : Buf) (off : Nat) (bs : Bytes) (i : Nat) (h1 : off ≤ i)
    (h2 : i < off + bs.length) : write b off bs i = bs.getD (i - off) 0 := by
  simp [write, h1, h2]

theorem write_out (b : Buf) (off : Nat) (bs : Bytes) (i : Nat)
    (h : i < off ∨ off + bs.length ≤ i) : write b off bs i = b i := by
  unfold write
  rw [if_neg (by omega)]

/-- A byte of a write depends on the buffer only outside the range written. -/
theorem write_congr_at {b c : Buf} {off : Nat} {bs : Bytes} {i : Nat}
    (h : i < off ∨ off + bs.length ≤ i → b i = c i) : write b off bs i = write c off bs i := by
  by_cases hi : i < off ∨ off + bs.length ≤ i
  · rw [write_out _ _ _ _ hi, write_out _ _ _ _ hi, h hi]
  · rw [write_in _ _ _ _ (by omega) (by omega), write_in _ _ _ _ (by omega) (by omega)]

@[simp] theorem write_nil (b : Buf) (off : Nat) : write b off [] = b := by
  funext i
  exact write_out b off [] i (by simp; omega)

/-- A read of the range just written gives what was written. -/
theorem read_write_self (b : Buf) (off : Nat) (bs : Bytes) (n : Nat) (h : n = bs.length) :
    read (write b off bs) off n = bs := by
  subst h
  apply List.ext_getElem (by simp)
  intro i h1 h2
  have hr := getD_read (write b off bs) off bs.length i h2
  rw [write_in b off bs (off + i) (by omega) (by omega)] at hr
  rw [List.getD_eq_getElem _ _ h1, List.getD_eq_getElem _ _ (by omega)] at hr
  rw [hr]
  congr 1
  omega

/-- A read apart from the range written gives what was there. -/
theorem read_write_apart (b : Buf) (off : Nat) (bs : Bytes) (o n : Nat)
    (h : o + n ≤ off ∨ off + bs.length ≤ o) : read (write b off bs) o n = read b o n :=
  read_congr fun i h1 h2 => write_out b off bs i (by omega)

/-- The first byte of a write. -/
theorem write_head (b : Buf) (off : Nat) (x : UInt8) (bs : Bytes) : write b off (x :: bs) off = x := by
  rw [write_in _ _ _ _ (le_refl _) (by simp)]
  simp

/-- The second byte of a write. -/
theorem write_second (b : Buf) (off : Nat) (x y : UInt8) (bs : Bytes) :
    write b off (x :: y :: bs) (off + 1) = y := by
  rw [write_in _ _ _ _ (by omega) (by simp)]
  simp

/-- A copy gives the bytes of its source. -/
theorem write_read_in (b c : Buf) (off o n i : Nat) (h1 : off ≤ i) (h2 : i < off + n) :
    write b off (read c o n) i = c (o + (i - off)) := by
  rw [write_in _ _ _ _ h1 (by rw [length_read]; exact h2), getD_read _ _ _ _ (by omega)]

/-- Writing back what a range holds changes nothing. -/
theorem write_read (b : Buf) (off n : Nat) : write b off (read b off n) = b := by
  funext i
  by_cases h : off ≤ i ∧ i < off + n
  · rw [write_read_in _ _ _ _ _ _ h.1 h.2]
    congr 1
    omega
  · exact write_out _ _ _ _ (by rw [length_read]; omega)

/-- The later of two writes to one range stays. -/
theorem write_write (b : Buf) (off : Nat) (bs cs : Bytes) (h : bs.length ≤ cs.length) :
    write (write b off bs) off cs = write b off cs := by
  funext i
  by_cases hi : off ≤ i ∧ i < off + cs.length
  · rw [write_in _ _ _ _ hi.1 hi.2, write_in _ _ _ _ hi.1 hi.2]
  · rw [write_out _ _ _ _ (by omega), write_out _ _ _ _ (by omega), write_out _ _ _ _ (by omega)]

/-- A write in two parts. -/
theorem write_append (b : Buf) (off : Nat) (bs cs : Bytes) :
    write b off (bs ++ cs) = write (write b off bs) (off + bs.length) cs := by
  funext i
  by_cases h1 : off + bs.length ≤ i ∧ i < off + bs.length + cs.length
  · rw [write_in _ (off + bs.length) _ _ h1.1 h1.2,
      write_in _ _ _ _ (by omega) (by simp; omega), List.getD_append_right _ _ _ _ (by omega)]
    congr 1
    omega
  · rw [write_out _ (off + bs.length) _ _ (by omega)]
    by_cases h2 : off ≤ i ∧ i < off + bs.length
    · rw [write_in _ _ _ _ h2.1 (by simp; omega), write_in _ _ _ _ h2.1 h2.2,
        List.getD_append _ _ _ _ (by omega)]
    · rw [write_out _ _ _ _ (by simp; omega), write_out _ _ _ _ (by omega)]

theorem be16_write_apart (b : Buf) (off : Nat) (bs : Bytes) (o : Nat)
    (h : o + 2 ≤ off ∨ off + bs.length ≤ o) : be16 (write b off bs) o = be16 b o :=
  be16_congr (write_out _ _ _ _ (by omega)) (write_out _ _ _ _ (by omega))

/-- The number that was written reads back, cut to 16 bits. -/
theorem be16_write_be16Bytes (b : Buf) (off x : Nat) :
    be16 (write b off (be16Bytes x)) off = x % 65536 := by
  unfold be16 be16Bytes
  rw [write_head, write_second]
  simp only [UInt8.toNat_ofNat']
  omega

/-- A number that reads as the one a buffer holds is written as the buffer's two bytes. -/
theorem be16Bytes_eq_read (b : Buf) (off x : Nat) (h : x % 65536 = be16 b off) :
    be16Bytes x = read b off 2 := by
  have h1 := (b off).toNat_lt
  have h2 := (b (off + 1)).toNat_lt
  unfold be16 at h
  have hr : read b off 2 = [b off, b (off + 1)] := rfl
  rw [hr]
  unfold be16Bytes
  congr 1
  · rw [← UInt8.toNat_inj, UInt8.toNat_ofNat']
    omega
  · congr 1
    rw [← UInt8.toNat_inj, UInt8.toNat_ofNat']
    omega

end byte_buf
