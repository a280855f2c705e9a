-- The total length and the checksum of an IPv4 header as l3_patch_ipv4, frag_patch_ipv4 and
-- l4_fix_ipv4_totlen_and_cksum write them, byte by byte and in the integers of the machine: what a
-- receiver makes of the header after each of the three.
import NeIp.Checksums
import NeIp.CryptoLayer3
import NeIp.CryptoLayer4

open byte_buf ones_complement ne_ip.packet_crypto ne_ip.checksums

namespace ne_ip.header_patch

/-! ## The functions -/

/-- `word` at the index `i`; an odd last byte has none behind it. -/
def header_word (mem : Buf) (ip_hdr hdr_len i : Nat) : UInt16 :=
  let word := (mem (ip_hdr + i)).toUInt16 <<< 8
  if i + 1 < hdr_len then word ||| (mem (ip_hdr + i + 1)).toUInt16 else word

/-- The `for` loop of `crypto_calc_ip_checksum` from its index `i` on. -/
def add_words (mem : Buf) (ip_hdr hdr_len i : Nat) (sum : UInt32) : UInt32 :=
  if i < hdr_len then
    add_words mem ip_hdr hdr_len (i + 2) (sum + (header_word mem ip_hdr hdr_len i).toUInt32)
  else sum
termination_by hdr_len - i

theorem carry_toNat (sum : UInt32) :
    ((sum &&& (0xFFFF : UInt32)) + (sum >>> 16)).toNat = turn 65535 sum.toNat := by
  have hlow : (sum &&& (0xFFFF : UInt32)).toNat = sum.toNat % 2 ^ 16 :=
    Nat.and_two_pow_sub_one_eq_mod _ 16
  have hhigh : (sum >>> 16).toNat = sum.toNat / 2 ^ 16 := by
    rw [UInt32.toNat_shiftRight, Nat.shiftRight_eq_div_pow]
    rfl
  have hlt := sum.toNat_lt
  rw [UInt32.toNat_add, hlow, hhigh]
  unfold turn
  omega

theorem carry_ne_zero {sum : UInt32} (h : sum >>> 16 ≠ 0) : 65535 < sum.toNat := by
  by_contra hle
  refine h (UInt32.toNat_inj.mp ?_)
  rw [UInt32.toNat_shiftRight, Nat.shiftRight_eq_div_pow]
  exact Nat.div_eq_of_lt (Nat.lt_succ_of_le (not_lt.mp hle))

/-- `while (sum >> 16)` -/
def fold_carry (sum : UInt32) : UInt32 :=
  if sum >>> 16 ≠ 0 then fold_carry ((sum &&& (0xFFFF : UInt32)) + (sum >>> 16)) else sum
termination_by sum.toNat
decreasing_by
  have hgt := carry_ne_zero (by assumption)
  rw [carry_toNat]
  unfold turn
  omega

def crypto_calc_ip_checksum (mem : Buf) (ip_hdr hdr_len : Nat) : UInt16 :=
  (~~~(fold_carry (add_words mem ip_hdr hdr_len 0 0))).toUInt16

def l3_patch_ipv4 (mem : Buf) (ip ip_hdr_len : Nat) (ip_total : UInt16) : Buf :=
  let mem := write mem (ip + 2) [(ip_total >>> 8).toUInt8]
  let mem := write mem (ip + 3) [(ip_total &&& 0xFF).toUInt8]
  let mem := write mem (ip + 10) [0]
  let mem := write mem (ip + 11) [0]
  let cksum := crypto_calc_ip_checksum mem ip ip_hdr_len
  let mem := write mem (ip + 10) [(cksum >>> 8).toUInt8]
  write mem (ip + 11) [(cksum &&& 0xFF).toUInt8]

def frag_patch_ipv4 (mem : Buf) (ip ip_hdr_len : Nat) (ip_total : UInt16) : Buf :=
  let mem := write mem (ip + 2) [(ip_total >>> 8).toUInt8]
  let mem := write mem (ip + 3) [(ip_total &&& 0xFF).toUInt8]
  let mem := write mem (ip + 10) [0]
  let mem := write mem (ip + 11) [0]
  let cksum := crypto_calc_ip_checksum mem ip ip_hdr_len
  let mem := write mem (ip + 10) [(cksum >>> 8).toUInt8]
  write mem (ip + 11) [(cksum &&& 0xFF).toUInt8]

/-- The sum is a `size_t`, of which the cast keeps 16 bits. -/
def new_totlen (ip_hdr_len : Nat) (ip_payload_len : UInt64) : UInt16 :=
  (UInt64.ofNat ip_hdr_len + ip_payload_len).toUInt16

def l4_fix_ipv4_totlen_and_cksum (mem : Buf) (packet l3_off ip_hdr_len : Nat)
    (ip_payload_len : UInt64) : Buf :=
  let new_totlen := new_totlen ip_hdr_len ip_payload_len
  let mem := write mem (packet + l3_off + 2) [(new_totlen >>> 8).toUInt8]
  let mem := write mem (packet + l3_off + 3) [(new_totlen &&& 0xFF).toUInt8]
  let mem := write mem (packet + l3_off + 10) [0]
  let mem := write mem (packet + l3_off + 11) [0]
  let cksum := crypto_calc_ip_checksum mem (packet + l3_off) ip_hdr_len
  let mem := write mem (packet + l3_off + 10) [(cksum >>> 8).toUInt8]
  write mem (packet + l3_off + 11) [(cksum &&& 0xFF).toUInt8]

/-! ## The sum of the words -/

theorem word_toNat (high low : UInt8) :
    (high.toUInt16 <<< 8 ||| low.toUInt16).toNat = high.toNat * 256 + low.toNat := by
  have hhigh := high.toNat_lt
  have hlow : low.toNat < 2 ^ 8 := low.toNat_lt
  have hshift : (high.toUInt16 <<< 8).toNat = high.toNat <<< 8 := by
    rw [UInt16.toNat_shiftLeft, UInt8.toNat_toUInt16]
    refine Nat.mod_eq_of_lt ?_
    show high.toNat <<< 8 < 2 ^ 16
    rw [Nat.shiftLeft_eq]
    omega
  rw [UInt16.toNat_or, hshift, UInt8.toNat_toUInt16, ← Nat.shiftLeft_add_eq_or_of_lt hlow,
    Nat.shiftLeft_eq]

/-- The word at an index and the words behind it are the words from there. -/
theorem header_word_add (mem : Buf) (ip_hdr : Nat) {hdr_len i : Nat} (h : i < hdr_len) :
    (header_word mem ip_hdr hdr_len i).toNat +
        word_sum (read mem (ip_hdr + (i + 2)) (hdr_len - (i + 2))) =
      word_sum (read mem (ip_hdr + i) (hdr_len - i)) := by
  unfold header_word
  by_cases hlast : i + 1 < hdr_len
  · rw [if_pos hlast, word_toNat, show hdr_len - i = hdr_len - (i + 2) + 1 + 1 by omega, read_succ,
      read_succ]
    rfl
  · have hword := word_toNat (mem (ip_hdr + i)) 0
    rw [show (0 : UInt8).toUInt16 = 0 from rfl, UInt16.or_zero] at hword
    rw [if_neg hlast, hword, show hdr_len - i = 1 by omega, show hdr_len - (i + 2) = 0 by omega,
      read_one, read_zero, word_sum, word_sum, UInt8.toNat_zero, Nat.add_zero]

/-- The loop adds up the words that are left, in 32 bits. -/
theorem add_words_toNat (mem : Buf) (ip_hdr hdr_len i : Nat) (sum : UInt32) :
    (add_words mem ip_hdr hdr_len i sum).toNat =
      (sum.toNat + word_sum (read mem (ip_hdr + i) (hdr_len - i))) % 2 ^ 32 := by
  fun_induction add_words with
  | case1 i sum hi ih =>
    rw [ih, UInt32.toNat_add, UInt16.toNat_toUInt32, Nat.mod_add_mod, Nat.add_assoc,
      header_word_add mem ip_hdr hi]
  | case2 i sum hi =>
    rw [show hdr_len - i = 0 by omega, read_zero, word_sum, Nat.add_zero,
      Nat.mod_eq_of_lt sum.toNat_lt]

/-- The carry goes round until the sum is one word. -/
theorem fold_carry_toNat (sum : UInt32) : (fold_carry sum).toNat = total 65535 sum.toNat := by
  fun_induction fold_carry with
  | case1 sum h ih => rw [ih, carry_toNat, total_turn]
  | case2 sum h =>
    refine (total_of_le ?_).symm
    have hzero : sum.toNat / 2 ^ 16 = 0 := by
      rw [← Nat.shiftRight_eq_div_pow]
      exact congrArg UInt32.toNat (not_not.mp h)
    omega

/-- The checksum of the machine is the one of the model. -/
theorem crypto_calc_ip_checksum_toNat (mem : Buf) (ip_hdr : Nat) {hdr_len : Nat}
    (h : hdr_len ≤ 60) :
    (crypto_calc_ip_checksum mem ip_hdr hdr_len).toNat =
      packet_crypto.crypto_calc_ip_checksum mem ip_hdr hdr_len := by
  have hsum : (add_words mem ip_hdr hdr_len 0 0).toNat = word_sum (read mem ip_hdr hdr_len) := by
    rw [add_words_toNat, UInt32.toNat_zero, Nat.zero_add, Nat.add_zero, Nat.sub_zero,
      Nat.mod_eq_of_lt (word_sum_read_lt mem ip_hdr h)]
  have htotal := total_le (m := 65535) (by omega) (word_sum (read mem ip_hdr hdr_len))
  rw [crypto_calc_ip_checksum_eq mem ip_hdr h]
  unfold crypto_calc_ip_checksum complement
  rw [UInt32.toNat_toUInt16, UInt32.toNat_not, fold_carry_toNat, hsum]
  simp only [UInt32.size]
  omega

/-! ## The header after a patch -/

/-- Two bytes written one after the other, the high one first. -/
theorem write_word (mem : Buf) (off : Nat) (x : UInt16) :
    write (write mem off [(x >>> 8).toUInt8]) (off + 1) [(x &&& 0xFF).toUInt8] =
      write mem off (be16Bytes x.toNat) := by
  have hhigh : (x >>> 8).toUInt8 = UInt8.ofNat (x.toNat / 256) := by
    refine UInt8.toNat_inj.mp ?_
    rw [UInt16.toNat_toUInt8, UInt16.toNat_shiftRight, Nat.shiftRight_eq_div_pow,
      UInt8.toNat_ofNat']
    rfl
  have hlow : (x &&& 0xFF).toUInt8 = UInt8.ofNat x.toNat := by
    refine UInt8.toNat_inj.mp ?_
    have hand : (x &&& 0xFF).toNat = x.toNat % 2 ^ 8 := Nat.and_two_pow_sub_one_eq_mod _ 8
    rw [UInt16.toNat_toUInt8, hand, UInt8.toNat_ofNat', Nat.mod_mod]
  rw [hhigh, hlow]
  exact (write_append mem off [UInt8.ofNat (x.toNat / 256)] [UInt8.ofNat x.toNat]).symm

theorem l3_patch_ipv4_eq (mem : Buf) (ip : Nat) {ip_hdr_len : Nat} (h : ip_hdr_len ≤ 60)
    (ip_total : UInt16) :
    l3_patch_ipv4 mem ip ip_hdr_len ip_total = patch_ipv4 mem ip ip_hdr_len ip_total.toNat := by
  have hzero : ∀ b : Buf, write (write b (ip + 10) [0]) (ip + 11) [0] = write b (ip + 10) [0, 0] :=
    fun b => (write_append b (ip + 10) [0] [0]).symm
  unfold l3_patch_ipv4 patch_ipv4
  dsimp only
  rw [write_word mem (ip + 2), hzero, write_word _ (ip + 10), crypto_calc_ip_checksum_toNat _ _ h]

/-- Layer 3 patches the header behind the Ethernet header. -/
theorem layer3_patch_eq (packet : Buf) {ip_hdr_len : Nat} (h : ip_hdr_len ≤ 60)
    (ip_total : UInt16) :
    crypto_layer3.l3_patch_ipv4 packet ip_hdr_len ip_total.toNat =
      l3_patch_ipv4 packet ETH_HEADER_SIZE ip_hdr_len ip_total :=
  (l3_patch_ipv4_eq packet ETH_HEADER_SIZE h ip_total).symm

/-- So does the reassembly. -/
theorem reassembly_patch_eq (out : Buf) {ip_hdr_len : Nat} (h : ip_hdr_len ≤ 60)
    (ip_total : UInt16) :
    patch_ipv4 out 14 ip_hdr_len ip_total.toNat = frag_patch_ipv4 out 14 ip_hdr_len ip_total :=
  (l3_patch_ipv4_eq out 14 h ip_total).symm

theorem new_totlen_toNat (ip_hdr_len : Nat) (ip_payload_len : UInt64) :
    (new_totlen ip_hdr_len ip_payload_len).toNat = (ip_hdr_len + ip_payload_len.toNat) % 65536 := by
  unfold new_totlen
  rw [UInt64.toNat_toUInt16, UInt64.toNat_add, UInt64.toNat_ofNat']
  omega

theorem layer4_fix_eq (packet : Buf) (l3_off : Nat) {ip_hdr_len : Nat} (h : ip_hdr_len ≤ 60)
    (ip_payload_len : UInt64) :
    crypto_layer4.l4_fix_ipv4_totlen_and_cksum packet l3_off ip_hdr_len ip_payload_len.toNat =
      l4_fix_ipv4_totlen_and_cksum packet 0 l3_off ip_hdr_len ip_payload_len := by
  calc patch_ipv4 packet l3_off ip_hdr_len (ip_hdr_len + ip_payload_len.toNat)
      = patch_ipv4 packet l3_off ip_hdr_len (new_totlen ip_hdr_len ip_payload_len).toNat :=
        patch_ipv4_total_congr packet l3_off ip_hdr_len (by rw [new_totlen_toNat, Nat.mod_mod])
    _ = l3_patch_ipv4 packet l3_off ip_hdr_len (new_totlen ip_hdr_len ip_payload_len) :=
        (l3_patch_ipv4_eq packet l3_off h _).symm
    _ = l4_fix_ipv4_totlen_and_cksum packet 0 l3_off ip_hdr_len ip_payload_len := by
        conv_lhs => rw [← Nat.zero_add l3_off]
        rfl

/-- The receiver's own sum over a header comes to zero when it accepts the header. -/
theorem checksum_eq_zero_iff (mem : Buf) (ip : Nat) {ip_hdr_len : Nat} (h : ip_hdr_len ≤ 60) :
    crypto_calc_ip_checksum mem ip ip_hdr_len = 0 ↔ HeaderAccepted mem ip ip_hdr_len := by
  have hself := complement_add_total (m := 65535) (by omega) (word_sum (read mem ip ip_hdr_len))
  rw [← UInt16.toNat_inj, crypto_calc_ip_checksum_toNat mem ip h, UInt16.toNat_zero,
    crypto_calc_ip_checksum_eq mem ip h]
  unfold HeaderAccepted Accepted
  omega

/-- `mem'` is `mem` with a valid header at `ip`, of the total length `ip_total`: only the total
length and the checksum are written. -/
structure Patched (mem mem' : Buf) (ip ip_hdr_len : Nat) (ip_total : UInt16) : Prop where
  total_length : be16 mem' (ip + 2) = ip_total.toNat
  checksum : crypto_calc_ip_checksum mem' ip ip_hdr_len = 0
  accepted : HeaderAccepted mem' ip ip_hdr_len
  elsewhere : ∀ i, i ∉ [ip + 2, ip + 3, ip + 10, ip + 11] → mem' i = mem i

theorem patched_l3_patch_ipv4 (mem : Buf) (ip : Nat) {ip_hdr_len : Nat} (h20 : 20 ≤ ip_hdr_len)
    (h60 : ip_hdr_len ≤ 60) (ip_total : UInt16) :
    Patched mem (l3_patch_ipv4 mem ip ip_hdr_len ip_total) ip ip_hdr_len ip_total := by
  rw [l3_patch_ipv4_eq mem ip h60]
  have haccepted := accepted_patch_ipv4 mem ip ip_total.toNat h20 h60
  refine ⟨?_, (checksum_eq_zero_iff _ ip h60).mpr haccepted, haccepted, fun i hi => ?_⟩
  · rw [be16_totlen_patch_ipv4, Nat.mod_eq_of_lt ip_total.toNat_lt]
  · simp only [List.mem_cons, List.not_mem_nil, or_false, not_or] at hi
    exact patch_ipv4_out mem ip ip_hdr_len _ i (by omega) (by omega)

/-- Each of the three functions leaves a valid header with the total length it is given, and the
three leave the same bytes. -/
theorem a_patched_header_is_valid_whichever_function_patches_it (mem : Buf) (ip : Nat)
    {ip_hdr_len : Nat} (h20 : 20 ≤ ip_hdr_len) (h60 : ip_hdr_len ≤ 60) (ip_total : UInt16) :
    Patched mem (l3_patch_ipv4 mem ip ip_hdr_len ip_total) ip ip_hdr_len ip_total ∧
    frag_patch_ipv4 mem ip ip_hdr_len ip_total = l3_patch_ipv4 mem ip ip_hdr_len ip_total ∧
    ∀ packet l3_off ip_payload_len, packet + l3_off = ip →
      new_totlen ip_hdr_len ip_payload_len = ip_total →
      l4_fix_ipv4_totlen_and_cksum mem packet l3_off ip_hdr_len ip_payload_len =
        l3_patch_ipv4 mem ip ip_hdr_len ip_total := by
  refine ⟨patched_l3_patch_ipv4 mem ip h20 h60 ip_total, rfl, ?_⟩
  rintro packet l3_off ip_payload_len rfl rfl
  rfl

/-- With nothing but ones in a header of the largest size. -/
theorem a_header_of_ones_is_valid_after_a_patch :
    Patched (fun _ => 0xFF) (l3_patch_ipv4 (fun _ => 0xFF) 14 60 0xFFFF) 14 60 0xFFFF :=
  (a_patched_header_is_valid_whichever_function_patches_it (fun _ => 0xFF) 14 (by decide)
    (by decide) 0xFFFF).1

end ne_ip.header_patch
