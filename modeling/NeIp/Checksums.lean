-- The checksums of packet_crypto.c as one's complement sums: what a receiver
-- accepts, and when a rewrite of an IPv4 header changes nothing.
import NeIp.PacketCrypto
import NeIp.OnesComplement

open byte_buf ones_complement ne_ip.packet_crypto

namespace ne_ip.checksums

/-! ## Sums of words -/

theorem fold_turn_eq (sum : Nat) : fold_turn sum = turn 65535 sum := rfl

/-- As long as a sum fits into 32 bits, what the code makes of it is its complement. -/
theorem fold_not_eq {sum : Nat} (h : sum < 2 ^ 32) : fold_not sum = complement 65535 sum := by
  have hlt := fold_turn_fold_turn_lt sum h
  have htotal : total 65535 (fold_turn (fold_turn sum)) = total 65535 sum := by
    rw [fold_turn_eq, fold_turn_eq, total_turn, total_turn]
  rw [total_of_le (by omega)] at htotal
  unfold fold_not complement
  rw [htotal]

theorem fold_not_lt (sum : Nat) : fold_not sum < 65536 := by
  unfold fold_not
  omega

theorem word_sum_append : ∀ {xs : Bytes} (ys : Bytes), xs.length % 2 = 0 →
    word_sum (xs ++ ys) = word_sum xs + word_sum ys
  | [], ys, _ => by simp [word_sum]
  | [_], _, h => by simp at h
  | a :: b :: xs, ys, h => by
    have hxs : xs.length % 2 = 0 := by
      simp only [List.length_cons] at h
      omega
    have ih := word_sum_append ys hxs
    simp only [List.cons_append, word_sum, ih]
    omega

/-- Behind an odd number of bytes the words are shifted by one byte. -/
theorem word_sum_append_odd : ∀ {xs : Bytes} (ys : Bytes), xs.length % 2 = 1 →
    word_sum (xs ++ ys) = word_sum xs + word_sum (0 :: ys)
  | [], _, h => by simp at h
  | [a], [], _ => by simp [word_sum]
  | [a], b :: ys, _ => by
    simp only [List.cons_append, List.nil_append, word_sum, UInt8.toNat_zero]
    omega
  | a :: b :: xs, ys, h => by
    have hxs : xs.length % 2 = 1 := by
      simp only [List.length_cons] at h
      omega
    have ih := word_sum_append_odd ys hxs
    simp only [List.cons_append, word_sum, ih]
    omega

/-- A word has 16 bits. -/
theorem word_sum_le : ∀ bs : Bytes, word_sum bs ≤ 32768 * (bs.length + 1)
  | [] => by simp [word_sum]
  | [a] => by
    have := a.toNat_lt
    simp only [word_sum, List.length_singleton]
    omega
  | a :: b :: bs => by
    have ih := word_sum_le bs
    have := a.toNat_lt
    have := b.toNat_lt
    simp only [word_sum, List.length_cons]
    omega

/-- The sum of a header is far from 32 bits. -/
theorem word_sum_read_lt (b : Buf) (off : Nat) {n : Nat} (h : n ≤ 60) :
    word_sum (read b off n) < 2 ^ 32 := by
  have hle := word_sum_le (read b off n)
  rw [length_read] at hle
  omega

theorem word_sum_read_two (b : Buf) (off : Nat) : word_sum (read b off 2) = be16 b off := by
  simp only [read_succ, read_zero, word_sum, be16]
  omega

/-- Two zeros in place of a word take the word off the sum. -/
theorem word_sum_zeroed (b : Buf) {off k n : Nat} (hk : k % 2 = 0) (hn : k + 2 ≤ n) :
    word_sum (read b off n) = word_sum (read (write b (off + k) [0, 0]) off n) + be16 b (off + k) := by
  have hsplit : ∀ c : Buf, word_sum (read c off n) =
      word_sum (read c off k) + (be16 c (off + k) + word_sum (read c (off + k + 2) (n - k - 2))) := by
    intro c
    have h1 := read_add c off k (2 + (n - k - 2))
    have h2 := read_add c (off + k) 2 (n - k - 2)
    rw [show k + (2 + (n - k - 2)) = n by omega] at h1
    rw [h1, h2, word_sum_append _ (by rw [length_read]; exact hk),
      word_sum_append _ (by rw [length_read]), word_sum_read_two]
  have hz : be16 (write b (off + k) [0, 0]) (off + k) = 0 := by
    unfold be16
    rw [write_head, write_second]
    rfl
  have hlen : ([0, 0] : Bytes).length = 2 := rfl
  rw [hsplit b, hsplit (write b (off + k) [0, 0]), hz, read_write_apart _ _ _ _ _ (by omega),
    read_write_apart _ _ _ _ _ (by omega)]
  omega

/-! ## The header checksum -/

/-- The sum of a header with its checksum taken for zero. -/
def header_sum (pkt : Buf) (ip_off ip_hdr_len : Nat) : Nat :=
  word_sum (read (write pkt (ip_off + 10) [0, 0]) ip_off ip_hdr_len)

/-- A receiver takes the checksum of the header for correct. -/
def HeaderAccepted (pkt : Buf) (ip_off ip_hdr_len : Nat) : Prop :=
  Accepted 65535 (word_sum (read pkt ip_off ip_hdr_len))

instance (pkt : Buf) (ip_off ip_hdr_len : Nat) : Decidable (HeaderAccepted pkt ip_off ip_hdr_len) :=
  inferInstanceAs (Decidable (Accepted _ _))

/-- The header has the checksum that a sender computes for it. -/
def HeaderCanonical (pkt : Buf) (ip_off ip_hdr_len : Nat) : Prop :=
  be16 pkt (ip_off + 10) = fold_not (header_sum pkt ip_off ip_hdr_len)

instance (pkt : Buf) (ip_off ip_hdr_len : Nat) : Decidable (HeaderCanonical pkt ip_off ip_hdr_len) :=
  inferInstanceAs (Decidable (_ = _))

variable {pkt : Buf} {ip_off ip_hdr_len : Nat}

/-- The first byte of a header is not zero. -/
theorem header_sum_pos (hihl : (pkt ip_off).toNat % 16 * 4 = ip_hdr_len) (h20 : 20 ≤ ip_hdr_len) :
    0 < header_sum pkt ip_off ip_hdr_len := by
  have hsplit := read_add (write pkt (ip_off + 10) [0, 0]) ip_off 2 (ip_hdr_len - 2)
  rw [show 2 + (ip_hdr_len - 2) = ip_hdr_len by omega] at hsplit
  have hword : be16 (write pkt (ip_off + 10) [0, 0]) ip_off = be16 pkt ip_off :=
    be16_write_apart _ _ _ _ (by omega)
  unfold header_sum
  rw [hsplit, word_sum_append _ (by rw [length_read]), word_sum_read_two, hword]
  unfold be16
  omega

theorem header_sum_lt (h : ip_hdr_len ≤ 60) : header_sum pkt ip_off ip_hdr_len < 2 ^ 32 :=
  word_sum_read_lt _ ip_off h

theorem crypto_calc_ip_checksum_eq (pkt : Buf) (ip_off : Nat) (h : ip_hdr_len ≤ 60) :
    crypto_calc_ip_checksum pkt ip_off ip_hdr_len =
      complement 65535 (word_sum (read pkt ip_off ip_hdr_len)) :=
  fold_not_eq (word_sum_read_lt pkt ip_off h)

theorem ihl_le (b : UInt8) : b.toNat % 16 * 4 ≤ 60 := by omega

/-- A correct checksum is the computed one, or it is `0xFFFF` where zero is computed. -/
theorem header_accepted_iff (hihl : (pkt ip_off).toNat % 16 * 4 = ip_hdr_len)
    (h20 : 20 ≤ ip_hdr_len) :
    HeaderAccepted pkt ip_off ip_hdr_len ↔ HeaderCanonical pkt ip_off ip_hdr_len ∨
      (be16 pkt (ip_off + 10) = 0xFFFF ∧ fold_not (header_sum pkt ip_off ip_hdr_len) = 0) := by
  have h60 := ihl_le (pkt ip_off)
  have hlt := be16_lt pkt (ip_off + 10)
  unfold HeaderAccepted HeaderCanonical
  rw [fold_not_eq (header_sum_lt (by omega)), word_sum_zeroed (k := 10) pkt (by omega) (by omega)]
  exact accepted_checksum_iff (by omega) (header_sum_pos hihl h20) (by omega)

/-- The computed checksum is never `0xFFFF`. -/
theorem HeaderCanonical.ne (h : HeaderCanonical pkt ip_off ip_hdr_len)
    (hihl : (pkt ip_off).toNat % 16 * 4 = ip_hdr_len) (h20 : 20 ≤ ip_hdr_len) :
    be16 pkt (ip_off + 10) ≠ 0xFFFF := by
  have h60 := ihl_le (pkt ip_off)
  have hlt := complement_lt (m := 65535) (by omega) (header_sum_pos hihl h20)
  unfold HeaderCanonical at h
  rw [h, fold_not_eq (header_sum_lt (by omega))]
  omega

/-- Among the correct checksums only `0xFFFF` is not the computed one. -/
theorem HeaderAccepted.canonical_iff (h : HeaderAccepted pkt ip_off ip_hdr_len)
    (hihl : (pkt ip_off).toNat % 16 * 4 = ip_hdr_len) (h20 : 20 ≤ ip_hdr_len) :
    HeaderCanonical pkt ip_off ip_hdr_len ↔ be16 pkt (ip_off + 10) ≠ 0xFFFF := by
  constructor
  · intro hc
    exact hc.ne hihl h20
  · intro hne
    rcases (header_accepted_iff hihl h20).mp h with hc | ⟨hf, -⟩
    · exact hc
    · exact absurd hf hne

/-! ## The rewrite of a header -/

/-- The header sum of a packet whose total length is written again. -/
theorem header_sum_totlen {total : Nat} (h : total % 65536 = be16 pkt (ip_off + 2)) :
    patch_ipv4 pkt ip_off ip_hdr_len total =
      write (write pkt (ip_off + 10) [0, 0]) (ip_off + 10)
        (be16Bytes (fold_not (header_sum pkt ip_off ip_hdr_len))) := by
  unfold patch_ipv4 crypto_calc_ip_checksum header_sum
  rw [be16Bytes_eq_read pkt (ip_off + 2) total h, write_read]

/-- A rewrite with the packet's own total length leaves a computed checksum. -/
theorem patch_ipv4_self {total : Nat} (h : total % 65536 = be16 pkt (ip_off + 2))
    (hc : HeaderCanonical pkt ip_off ip_hdr_len) : patch_ipv4 pkt ip_off ip_hdr_len total = pkt := by
  rw [header_sum_totlen h, write_write _ _ _ _ (by simp),
    be16Bytes_eq_read pkt (ip_off + 10) _ (by
      rw [Nat.mod_eq_of_lt (fold_not_lt _)]
      exact hc.symm),
    write_read]

theorem be16_cksum_patch_ipv4 {total : Nat} (h : total % 65536 = be16 pkt (ip_off + 2)) :
    be16 (patch_ipv4 pkt ip_off ip_hdr_len total) (ip_off + 10) =
      fold_not (header_sum pkt ip_off ip_hdr_len) := by
  rw [header_sum_totlen h, be16_write_be16Bytes, Nat.mod_eq_of_lt (fold_not_lt _)]

/-- A rewritten header is accepted, whatever it held. -/
theorem accepted_patch_ipv4 (pkt : Buf) (ip_off total : Nat) (h20 : 20 ≤ ip_hdr_len)
    (h60 : ip_hdr_len ≤ 60) :
    HeaderAccepted (patch_ipv4 pkt ip_off ip_hdr_len total) ip_off ip_hdr_len := by
  unfold patch_ipv4 crypto_calc_ip_checksum
  dsimp only
  generalize hz : write (write pkt (ip_off + 2) (be16Bytes total)) (ip_off + 10) [0, 0] = z
  have hzeroed : ∀ c, write (write z (ip_off + 10) (be16Bytes c)) (ip_off + 10) [0, 0] = z := by
    intro c
    rw [write_write _ _ _ _ (by simp), ← hz, write_write _ _ _ _ le_rfl]
  unfold HeaderAccepted
  rw [word_sum_zeroed (k := 10) _ (by omega) (by omega), hzeroed, be16_write_be16Bytes,
    Nat.mod_eq_of_lt (fold_not_lt _), fold_not_eq (word_sum_read_lt z ip_off h60)]
  exact accepted_add_self (by omega) _

end ne_ip.checksums
