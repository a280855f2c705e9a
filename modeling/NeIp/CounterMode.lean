-- Counter mode. A text is added to what a block cipher makes of a run of counter blocks, which are
-- counted up modulo 2 ^ w: what of the cipher a text meets, and when two runs share no block.
import Mathlib.Data.Nat.ModEq
import Mathlib.Data.Set.BooleanAlgebra
import Mathlib.Order.CompletePartialOrder

namespace counter_mode

variable {w : Nat}

/-- The number that bytes write, the highest byte first. -/
def big_endian : List UInt8 → Nat
  | [] => 0
  | b :: bs => b.toNat * 256 ^ bs.length + big_endian bs

def counter_block (iv : BitVec w) (j : Nat) : BitVec w := iv + BitVec.ofNat w j

/-- The run of `n` counter blocks that starts at `iv`. -/
def counter_blocks (iv : BitVec w) (n : Nat) : Set (BitVec w) :=
  {b | ∃ j < n, b = counter_block iv j}

/-- How many blocks of `size` bytes `len` bytes begin. -/
def block_count (size len : Nat) : Nat := (len + size - 1) / size

/-- The cipher `E` gives the bytes of a block by their index. -/
def ctr (E : BitVec w → Nat → UInt8) (size : Nat) (iv : BitVec w) (data : List UInt8) :
    List UInt8 :=
  data.mapIdx fun i b => b ^^^ E (counter_block iv (i / size)) (i % size)

/-! ## Numbers of bytes -/

theorem big_endian_append (xs ys : List UInt8) :
    big_endian (xs ++ ys) = big_endian xs * 256 ^ ys.length + big_endian ys := by
  induction xs with
  | nil => rw [List.nil_append, big_endian, Nat.zero_mul, Nat.zero_add]
  | cons b xs ih =>
    rw [List.cons_append, big_endian, ih, big_endian, List.length_append, Nat.pow_add, Nat.add_mul,
      Nat.mul_assoc, Nat.add_assoc]

theorem big_endian_lt (bs : List UInt8) : big_endian bs < 256 ^ bs.length := by
  induction bs with
  | nil => exact Nat.one_pos
  | cons b bs ih =>
    calc b.toNat * 256 ^ bs.length + big_endian bs
        < b.toNat * 256 ^ bs.length + 256 ^ bs.length := Nat.add_lt_add_left ih _
      _ = (b.toNat + 1) * 256 ^ bs.length := by rw [Nat.add_mul, Nat.one_mul]
      _ ≤ 256 * 256 ^ bs.length := Nat.mul_le_mul_right _ b.toNat_lt
      _ = 256 ^ (b :: bs).length := by rw [List.length_cons, Nat.pow_succ, Nat.mul_comm]

theorem big_endian_replicate_zero (n : Nat) : big_endian (List.replicate n 0) = 0 := by
  induction n with
  | zero => rfl
  | succ n ih => rw [List.replicate_succ, big_endian, ih, UInt8.toNat_zero, Nat.zero_mul]

/-! ## What a text meets of the cipher -/

theorem div_lt_block_count {size len i : Nat} (hsize : 0 < size) (hi : i < len) :
    i / size < block_count size len := by
  unfold block_count
  rw [Nat.lt_div_iff_mul_lt hsize]
  have h := Nat.div_mul_le_self i size
  omega

/-- Ciphers that agree on the blocks of a text make the same of it. -/
theorem ctr_congr {E E' : BitVec w → Nat → UInt8} {size : Nat} {iv : BitVec w}
    {data : List UInt8} (hsize : 0 < size)
    (h : ∀ b ∈ counter_blocks iv (block_count size data.length), E b = E' b) :
    ctr E size iv data = ctr E' size iv data := by
  unfold ctr
  refine List.mapIdx_eq_mapIdx_iff.mpr fun i hi => ?_
  rw [h _ ⟨i / size, div_lt_block_count hsize hi, rfl⟩]

/-! ## Runs apart -/

theorem counter_block_ofNat (x j : Nat) :
    counter_block (BitVec.ofNat w x) j = BitVec.ofNat w (x + j) :=
  (BitVec.ofNat_add x j).symm

theorem modEq_of_ofNat_eq {x y : Nat} (h : BitVec.ofNat w x = BitVec.ofNat w y) :
    x ≡ y [MOD 2 ^ w] := by
  have htoNat := congrArg BitVec.toNat h
  rwa [BitVec.toNat_ofNat, BitVec.toNat_ofNat] at htoNat

/-- Two runs whose starts differ above bit `k` share no block as long as neither gets as far as the
low part of the other's start in the next stretch of `2 ^ k`. -/
theorem disjoint_of_high_ne {k high high' low low' m n : Nat} (hk : k ≤ w)
    (hhigh : high < 2 ^ (w - k)) (hhigh' : high' < 2 ^ (w - k)) (hne : high ≠ high')
    (hm : low + m ≤ low' + 2 ^ k) (hn : low' + n ≤ low + 2 ^ k) :
    Disjoint (counter_blocks (BitVec.ofNat w (high * 2 ^ k + low)) m)
      (counter_blocks (BitVec.ofNat w (high' * 2 ^ k + low')) n) := by
  refine Set.disjoint_left.mpr ?_
  rintro _ ⟨i, hi, rfl⟩ ⟨j, hj, heq⟩
  rw [counter_block_ofNat, counter_block_ofNat, Nat.add_assoc, Nat.add_assoc] at heq
  have hmod : high * 2 ^ k + (low + i) ≡ high' * 2 ^ k + (low' + j) [MOD 2 ^ (w - k) * 2 ^ k] := by
    rw [← Nat.pow_add, Nat.sub_add_cancel hk]
    exact modEq_of_ofNat_eq heq
  have hlow : low + i ≡ low' + j [MOD 2 ^ k] := by
    have h := hmod.of_mul_left
    unfold Nat.ModEq at h
    rwa [Nat.mul_add_mod', Nat.mul_add_mod'] at h
  -- the low parts are less than one stretch apart, so that they are the same
  have hsame : low + i = low' + j :=
    hlow.eq_of_abs_lt (abs_lt.mpr ⟨by omega, by omega⟩)
  rw [hsame] at hmod
  have hcancel := Nat.ModEq.mul_right_cancel' (Nat.two_pow_pos k).ne' (hmod.add_right_cancel' _)
  exact hne (hcancel.eq_of_lt_of_lt hhigh hhigh')

end counter_mode
