-- The counter blocks of the CTR encryptions (crypto_generate_nonce, crypto_nonce_to_iv and
-- crypto_aes_ctr_with_key in packet_crypto.c). The packet counter is in the highest bytes and AES
-- counts in the lowest, so that two packets share no block unless a count gets past a whole salt.
import NeIp.CounterMode
import NeIp.PacketCrypto

open byte_buf counter_mode ne_ip.packet_crypto

namespace ne_ip.keystreams

def AES_BLOCK_SIZE : Nat := 16

/-! ## The blocks of a call -/

def iv_value (iv : Bytes) : BitVec 128 := BitVec.ofNat 128 (big_endian iv)

/-- The counter blocks of a call of `crypto_aes_ctr_with_key`. -/
def keystream_blocks (iv : Bytes) (len : Nat) : Set (BitVec 128) :=
  counter_blocks (iv_value iv) (block_count AES_BLOCK_SIZE len)

/-- AES-CTR of OpenSSL counts up the IV as one number of 128 bits. -/
def RunsCounterMode (o : Openssl) (aes : Bytes → BitVec 128 → Nat → UInt8) : Prop :=
  ∀ key iv data, iv.length = AES128_IV_SIZE →
    o.ctr key iv data = ctr (aes key) AES_BLOCK_SIZE (iv_value iv) data

/-- A call meets AES on these blocks only: ciphers that agree there do the same. -/
theorem crypto_aes_ctr_with_key_congr {o o' : Openssl}
    {aes aes' : Bytes → BitVec 128 → Nat → UInt8} (h : RunsCounterMode o aes)
    (h' : RunsCounterMode o' aes') (tls : Tls) {key iv : Bytes} {len : Nat}
    (hiv : iv.length = AES128_IV_SIZE)
    (hagree : ∀ b ∈ keystream_blocks iv len,
      aes (key.take (get_key_size tls.aes_bits)) b = aes' (key.take (get_key_size tls.aes_bits)) b)
    (pkt : Buf) (off : Nat) :
    crypto_aes_ctr_with_key o tls key iv pkt off len =
      crypto_aes_ctr_with_key o' tls key iv pkt off len := by
  have hctr : o.ctr (key.take (get_key_size tls.aes_bits)) iv (read pkt off len) =
      o'.ctr (key.take (get_key_size tls.aes_bits)) iv (read pkt off len) := by
    rw [h _ _ _ hiv, h' _ _ _ hiv]
    refine ctr_congr (by decide) fun b hb => hagree b ?_
    rwa [length_read] at hb
  unfold crypto_aes_ctr_with_key
  rw [hctr]

/-- The counter blocks of an encryption of `len` bytes with a counter value. -/
def encryption_blocks (tls : Tls) (counter proto_flag len : Nat) : Set (BitVec 128) :=
  keystream_blocks (crypto_nonce_to_iv (crypto_generate_nonce tls counter proto_flag)) len

/-! ## The number that an IV is -/

/-- The first four bytes of a nonce. -/
def nonce_head (counter proto_flag : Nat) : Bytes :=
  [UInt8.ofNat (proto_flag * 128 + counter / 2 ^ 24 % 128), UInt8.ofNat (counter / 2 ^ 16),
    UInt8.ofNat (counter / 2 ^ 8), UInt8.ofNat counter]

/-- The salt in a nonce and the zeros behind it, as a number. -/
def salt_value (tls : Tls) : Nat :=
  big_endian (read tls.nonce_salt 0 (tls.nonce_size - 4)) * 256 ^ (AES128_IV_SIZE - tls.nonce_size)

theorem crypto_generate_nonce_eq (tls : Tls) (counter proto_flag : Nat) (h : 4 ≤ tls.nonce_size) :
    crypto_generate_nonce tls counter proto_flag =
      nonce_head counter proto_flag ++ read tls.nonce_salt 0 (tls.nonce_size - 4) := by
  refine List.take_of_length_le ?_
  rw [List.length_append, length_read]
  simp only [List.length_cons, List.length_nil]
  omega

/-- The counter is in the highest 32 bits, and what is below depends on the thread only. -/
theorem big_endian_crypto_nonce_to_iv {tls : Tls} (h4 : 4 ≤ tls.nonce_size)
    (h16 : tls.nonce_size ≤ 16) (counter proto_flag : Nat) :
    big_endian (crypto_nonce_to_iv (crypto_generate_nonce tls counter proto_flag)) =
      big_endian (nonce_head counter proto_flag) * 2 ^ 96 + salt_value tls := by
  have hpow : 256 ^ (tls.nonce_size - 4) * 256 ^ (AES128_IV_SIZE - tls.nonce_size) = 2 ^ 96 := by
    unfold AES128_IV_SIZE
    rw [← Nat.pow_add, show tls.nonce_size - 4 + (16 - tls.nonce_size) = 12 by omega]
    norm_num
  unfold crypto_nonce_to_iv salt_value
  rw [length_crypto_generate_nonce tls counter proto_flag h4, crypto_generate_nonce_eq _ _ _ h4,
    big_endian_append, big_endian_append, big_endian_replicate_zero, List.length_replicate,
    length_read, Nat.add_zero, Nat.add_mul, Nat.mul_assoc, hpow]

theorem nonce_head_mod (counter proto_flag : Nat) :
    big_endian (nonce_head counter proto_flag) % 2 ^ 31 = counter % 2 ^ 31 := by
  unfold nonce_head
  simp only [big_endian, List.length_cons, List.length_nil, UInt8.toNat_ofNat', Nat.reduceAdd,
    Nat.reducePow]
  omega

theorem nonce_head_lt (counter proto_flag : Nat) :
    big_endian (nonce_head counter proto_flag) < 2 ^ 32 := by
  have h := big_endian_lt (nonce_head counter proto_flag)
  rwa [show (nonce_head counter proto_flag).length = 4 from rfl,
    show 256 ^ 4 = 2 ^ 32 by norm_num] at h

theorem nonce_head_ne {counter counter' : Nat} (hne : counter % 2 ^ 31 ≠ counter' % 2 ^ 31)
    (proto_flag proto_flag' : Nat) :
    big_endian (nonce_head counter proto_flag) ≠ big_endian (nonce_head counter' proto_flag') := by
  intro h
  rw [← nonce_head_mod counter proto_flag, ← nonce_head_mod counter' proto_flag', h] at hne
  exact hne rfl

/-- With four bytes or more of zeros the salt leaves room for a count of 32 bits. -/
theorem salt_value_le {tls : Tls} (h4 : 4 ≤ tls.nonce_size) (h12 : tls.nonce_size ≤ 12) :
    salt_value tls + 2 ^ 32 ≤ 2 ^ 96 := by
  have hlt := big_endian_lt (read tls.nonce_salt 0 (tls.nonce_size - 4))
  rw [length_read] at hlt
  unfold salt_value AES128_IV_SIZE
  generalize big_endian (read tls.nonce_salt 0 (tls.nonce_size - 4)) = salt at hlt ⊢
  calc salt * 256 ^ (16 - tls.nonce_size) + 2 ^ 32
      ≤ salt * 256 ^ (16 - tls.nonce_size) + 256 ^ (16 - tls.nonce_size) := by
        refine Nat.add_le_add_left ?_ _
        calc 2 ^ 32 = 256 ^ 4 := by norm_num
          _ ≤ 256 ^ (16 - tls.nonce_size) := Nat.pow_le_pow_right (by omega) (by omega)
    _ = (salt + 1) * 256 ^ (16 - tls.nonce_size) := by rw [Nat.add_mul, Nat.one_mul]
    _ ≤ 256 ^ (tls.nonce_size - 4) * 256 ^ (16 - tls.nonce_size) :=
        Nat.mul_le_mul_right _ hlt
    _ = 2 ^ 96 := by
        rw [← Nat.pow_add, show tls.nonce_size - 4 + (16 - tls.nonce_size) = 12 by omega]
        norm_num

theorem block_count_le {len : Nat} (h : len < 2 ^ 31) :
    block_count AES_BLOCK_SIZE len ≤ 2 ^ 27 := by
  unfold block_count AES_BLOCK_SIZE
  omega

/-! ## Encryptions share no block -/

/-- Two encryptions with different counter values, of less than 2 ^ 31 bytes each and with nonces of
one size, share no counter block: on one thread because the salt is the same, and on two threads
because up to a size of 12 there are zeros for the count. -/
theorem keystreams_of_different_counters_do_not_overlap {tls tls' : Tls}
    {g_nonce_counter g_nonce_counter' len len' : Nat} (proto_flag proto_flag' : Nat)
    (hsize : tls.nonce_size ∈ [4, 8, 12, 16]) (hsame : tls'.nonce_size = tls.nonce_size)
    (hne : (packet_crypto_next_counter g_nonce_counter).1 ≠
      (packet_crypto_next_counter g_nonce_counter').1)
    (hlen : len < 2 ^ 31) (hlen' : len' < 2 ^ 31)
    (hthreads : tls'.nonce_salt = tls.nonce_salt ∨ tls.nonce_size ≤ 12) :
    Disjoint
      (encryption_blocks tls (packet_crypto_next_counter g_nonce_counter).1 proto_flag len)
      (encryption_blocks tls' (packet_crypto_next_counter g_nonce_counter').1 proto_flag'
        len') := by
  have hbounds : 4 ≤ tls.nonce_size ∧ tls.nonce_size ≤ 16 := by
    simp only [List.mem_cons, List.not_mem_nil, or_false] at hsize
    omega
  obtain ⟨h4, h16⟩ := hbounds
  have hcount := block_count_le hlen
  have hcount' := block_count_le hlen'
  have hroom : salt_value tls + 2 ^ 27 ≤ salt_value tls' + 2 ^ 96 ∧
      salt_value tls' + 2 ^ 27 ≤ salt_value tls + 2 ^ 96 := by
    rcases hthreads with hsalt | h12
    · have hvalue : salt_value tls' = salt_value tls := by
        unfold salt_value
        rw [hsalt, hsame]
      omega
    · have hle := salt_value_le h4 h12
      have hle' : salt_value tls' + 2 ^ 32 ≤ 2 ^ 96 := salt_value_le (by omega) (by omega)
      omega
  unfold encryption_blocks keystream_blocks iv_value
  rw [big_endian_crypto_nonce_to_iv h4 h16,
    big_endian_crypto_nonce_to_iv (by omega : 4 ≤ tls'.nonce_size) (by omega)]
  refine disjoint_of_high_ne (by omega) (nonce_head_lt _ _) (nonce_head_lt _ _)
    (nonce_head_ne ?_ _ _) (by omega) (by omega)
  unfold packet_crypto_next_counter at hne ⊢
  rwa [Nat.mod_mod, Nat.mod_mod]

/-- Two threads with the default size of 12, at the last counter value and at the first one after
it. -/
theorem two_threads_share_no_block_where_the_counter_wraps :
    Disjoint
      (encryption_blocks { nonce_salt := fun _ => 0xFF } (packet_crypto_next_counter (2 ^ 31 - 1)).1
        PROTO_FLAG_IPV4 1500)
      (encryption_blocks {} (packet_crypto_next_counter (2 ^ 31)).1 PROTO_FLAG_IPV4 1500) :=
  keystreams_of_different_counters_do_not_overlap PROTO_FLAG_IPV4 PROTO_FLAG_IPV4 (by decide) rfl
    (by decide) (by decide) (by decide) (.inr (by decide))

end ne_ip.keystreams
