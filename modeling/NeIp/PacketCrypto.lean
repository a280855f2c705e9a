-- The packet crypto core (packet_crypto.c): the key slots of a context, the
-- nonce of a packet, the AES steps, and the checksums the layers rewrite.
import NeIp.ByteBuf

open byte_buf

namespace ne_ip.packet_crypto

def AES_MAX_KEY_SIZE : Nat := 32
def AES128_IV_SIZE : Nat := 16
def AES128_GCM_TAG_SIZE : Nat := 16
def ETH_HEADER_SIZE : Nat := 14
def PROTO_FLAG_IPV4 : Nat := 0

/-! ## The primitives of OpenSSL -/

/-- The functions of OpenSSL that the code calls. A key is as long as its AES variant
wants it (16 or 32 bytes), which is how the code picks the variant. -/
structure Openssl where
  /-- AES-CTR of `data` under `key` and `iv`; the same call encrypts and decrypts. -/
  ctr : (key iv data : Bytes) → Bytes
  /-- The bytes a GCM update puts out, in either direction. -/
  gcm : (key nonce data : Bytes) → Bytes
  /-- The tag of a ciphertext. -/
  gcm_tag : (key nonce cipher : Bytes) → Bytes
  hmac_sha256 : (key msg : Bytes) → Bytes

/-- What OpenSSL's documentation promises: both modes are stream ciphers, so that a
second pass undoes the first, a tag has 16 bytes and an HMAC-SHA256 has 32. -/
structure Openssl.Lawful (o : Openssl) : Prop where
  length_ctr : ∀ key iv data, (o.ctr key iv data).length = data.length
  ctr_ctr : ∀ key iv data, o.ctr key iv (o.ctr key iv data) = data
  length_gcm : ∀ key nonce data, (o.gcm key nonce data).length = data.length
  gcm_gcm : ∀ key nonce data, o.gcm key nonce (o.gcm key nonce data) = data
  length_gcm_tag : ∀ key nonce cipher, (o.gcm_tag key nonce cipher).length = 16
  length_hmac : ∀ key msg, (o.hmac_sha256 key msg).length = 32

/-! ## The contexts of GCM -/

/-- One of the two GCM contexts of a thread and the cache beside it: `tls_gcm_enc_ctx` with
`tls_cached_key` and its kin, or `tls_gcm_dec_ctx` with `tls_dec_cached_key` and its kin. `evp_key`
is the key that the context has, as long as its cipher takes it. -/
structure GcmSide where
  key_cached : Bool := false
  cached_key : Bytes := List.replicate AES_MAX_KEY_SIZE 0
  cached_nonce_len : Nat := 0
  evp_key : Bytes := []

/-- `key_changed`, of a key that is cut to the key size. -/
def GcmSide.key_changed (s : GcmSide) (key : Bytes) (nonce_len : Nat) : Bool :=
  !s.key_cached || s.cached_key.take key.length != key || s.cached_nonce_len != nonce_len

/-- The context and the cache as a call goes on with them. A context whose key is in the cache is
given the nonce alone, whatever cipher and key it has. -/
def GcmSide.set_up (s : GcmSide) (key : Bytes) (nonce_len : Nat) : GcmSide :=
  if s.key_changed key nonce_len then
    { key_cached := true
      cached_key := key ++ s.cached_key.drop key.length
      cached_nonce_len := nonce_len
      evp_key := key }
  else s

/-- A call that finds its key in the cache finds it in the context too. -/
def GcmSide.InPlace (s : GcmSide) (key : Bytes) (nonce_len : Nat) : Prop :=
  s.key_changed key nonce_len = false → s.evp_key = key

section

variable {s : GcmSide} {key : Bytes} {nonce_len : Nat}

theorem GcmSide.set_up_of_cached (h : s.key_changed key nonce_len = false) :
    s.set_up key nonce_len = s := by
  unfold GcmSide.set_up
  rw [h]
  rfl

theorem GcmSide.InPlace.set_up (h : s.InPlace key nonce_len) :
    (s.set_up key nonce_len).evp_key = key := by
  cases hc : s.key_changed key nonce_len with
  | true =>
    unfold GcmSide.set_up
    rw [if_pos hc]
  | false => rw [GcmSide.set_up_of_cached hc, h hc]

/-- A context that has not been used yet. -/
theorem GcmSide.inPlace_empty (key : Bytes) (nonce_len : Nat) : GcmSide.InPlace {} key nonce_len :=
  fun h => absurd h (by simp [GcmSide.key_changed])

/-- The key of a call is in the cache after it. -/
theorem GcmSide.key_changed_set_up (s : GcmSide) (key : Bytes) (nonce_len : Nat) :
    (s.set_up key nonce_len).key_changed key nonce_len = false := by
  cases hc : s.key_changed key nonce_len with
  | true =>
    unfold GcmSide.set_up
    rw [if_pos hc]
    simp [GcmSide.key_changed]
  | false => rw [GcmSide.set_up_of_cached hc, hc]

/-- A second call with the same key goes on with the same context. -/
theorem GcmSide.set_up_set_up (s : GcmSide) (key : Bytes) (nonce_len : Nat) :
    (s.set_up key nonce_len).set_up key nonce_len = s.set_up key nonce_len :=
  GcmSide.set_up_of_cached (s.key_changed_set_up key nonce_len)

end

/-! ## The state of a thread -/

/-- `CRYPTO_MODE_CTR` and `CRYPTO_MODE_GCM`. -/
inductive CryptoMode where
  | ctr
  | gcm
  deriving DecidableEq, Repr

/-- The thread-local variables of packet_crypto.c. `RAND_bytes` fills the salt the first
time a nonce needs it: `nonce_salt` is what it draws. `stack_tag` is what the
uninitialised `tag` arrays of this thread hold. -/
structure Tls where
  fake_protocol : UInt8 := 99
  crypto_mode : CryptoMode := .ctr
  nonce_size : Nat := 12
  aes_bits : Nat := 128
  policy_id : UInt8 := 0
  nonce_salt : Buf := fun _ => 0
  stack_tag : Buf := fun _ => 0
  /-- `EVP_CIPHER_CTX_new` gives this thread its contexts. -/
  evp_ok : Bool := true
  /-- What a GCM encryption with these settings and this key finds of its context and its cache,
  after whatever calls the thread has made before. -/
  gcm_enc : (aes_bits nonce_len : Nat) → (key : Bytes) → GcmSide := fun _ _ _ => {}
  /-- The same for a decryption, at the first turn of its loop. -/
  gcm_dec : (aes_bits nonce_len : Nat) → (key : Bytes) → GcmSide := fun _ _ _ => {}

/-- `packet_crypto_get_tunnel_hdr_size`. -/
def packet_crypto_get_tunnel_hdr_size (tls : Tls) : Nat := tls.nonce_size + 2

/-- `get_key_size`. -/
def get_key_size (aes_bits : Nat) : Nat := if aes_bits = 256 then 32 else 16

/-- The bytes that GCM adds at the end of a packet. -/
def tag_overhead (tls : Tls) : Nat :=
  if tls.crypto_mode = .gcm then AES128_GCM_TAG_SIZE else 0

theorem tag_overhead_le (tls : Tls) : tag_overhead tls ≤ 16 := by
  unfold tag_overhead AES128_GCM_TAG_SIZE
  split <;> decide

/-! ## Contexts and keys -/

inductive KeySlot where
  | prev
  | current
  | next
  deriving DecidableEq, Repr

/-- `struct packet_crypto_ctx`. -/
structure PacketCryptoCtx where
  master_key : Bytes
  key_prev : Bytes
  key_current : Bytes
  key_next : Bytes
  initialized : Bool

def packet_crypto_get_key (ctx : PacketCryptoCtx) : KeySlot → Bytes
  | .prev => ctx.key_prev
  | .current => ctx.key_current
  | .next => ctx.key_next

/-- `derive_key`, cut to the key size as its `memcpy` is. -/
def derive_key (o : Openssl) (aes_bits : Nat) (master : Bytes) (epoch : Nat) : Bytes :=
  let epoch_buf := (List.range 8).map fun i => UInt8.ofNat (epoch / 2 ^ (8 * i))
  (o.hmac_sha256 (master.take (get_key_size aes_bits)) epoch_buf).take (get_key_size aes_bits)

/-- A key in its array of 32 bytes, which a `memset` cleared before. -/
def pad_key (key : Bytes) : Bytes := key ++ List.replicate (AES_MAX_KEY_SIZE - key.length) 0

/-- The context that `packet_crypto_init` fills in. All three slots are of epoch 0. -/
def init_ctx (o : Openssl) (aes_bits : Nat) (master_key : Bytes) : PacketCryptoCtx where
  master_key := pad_key (master_key.take (get_key_size aes_bits))
  key_prev := pad_key (derive_key o aes_bits master_key 0)
  key_current := pad_key (derive_key o aes_bits master_key 0)
  key_next := pad_key (derive_key o aes_bits master_key 0)
  initialized := true

/-- `packet_crypto_init`: its return code, the context, and `g_nonce_counter`, which
`packet_crypto_reset_counter` sets back whatever the code is. -/
def packet_crypto_init (o : Openssl) (tls : Tls) (master_key : Bytes) :
    Option Unit × PacketCryptoCtx × Nat :=
  (if tls.evp_ok then some () else none, init_ctx o tls.aes_bits master_key, 0)

/-! ## Nonces -/

/-- `packet_crypto_next_counter`: the value it returns and the 64 bit counter after it. -/
def packet_crypto_next_counter (g_nonce_counter : Nat) : Nat × Nat :=
  (g_nonce_counter % 2 ^ 31, (g_nonce_counter + 1) % 2 ^ 64)

/-- The first `nonce_size` bytes of what `crypto_generate_nonce` writes to `out_nonce`. -/
def crypto_generate_nonce (tls : Tls) (counter proto_flag : Nat) : Bytes :=
  let head := [UInt8.ofNat (proto_flag * 128 + counter / 2 ^ 24 % 128),
    UInt8.ofNat (counter / 2 ^ 16), UInt8.ofNat (counter / 2 ^ 8), UInt8.ofNat counter]
  (head ++ read tls.nonce_salt 0 (tls.nonce_size - 4)).take tls.nonce_size

/-- The nonce of the next encryption on a thread. -/
def next_nonce (tls : Tls) (g_nonce_counter : Nat) : Bytes :=
  crypto_generate_nonce tls (packet_crypto_next_counter g_nonce_counter).1 PROTO_FLAG_IPV4

def crypto_nonce_to_iv (nonce : Bytes) : Bytes :=
  nonce ++ List.replicate (AES128_IV_SIZE - nonce.length) 0

/-! ## The AES steps

Each works on `len` bytes of the packet at `off`, in place. -/

/-- `crypto_aes_ctr_with_key`. -/
def crypto_aes_ctr_with_key (o : Openssl) (tls : Tls) (key iv : Bytes) (pkt : Buf)
    (off len : Nat) : Option Buf :=
  if len = 0 then some pkt
  else if !tls.evp_ok then none
  else some (write pkt off (o.ctr (key.take (get_key_size tls.aes_bits)) iv (read pkt off len)))

/-- `crypto_aes_gcm_encrypt` on a context: the packet and the tag. -/
def crypto_aes_gcm_encrypt (o : Openssl) (tls : Tls) (s : GcmSide) (key nonce : Bytes) (pkt : Buf)
    (off len : Nat) : Option (Buf × Bytes) :=
  if len = 0 then some (pkt, read tls.stack_tag 0 AES128_GCM_TAG_SIZE)
  else if !tls.evp_ok then none
  else
    let s := s.set_up (key.take (get_key_size tls.aes_bits)) tls.nonce_size
    let cipher := o.gcm s.evp_key nonce (read pkt off len)
    some (write pkt off cipher, o.gcm_tag s.evp_key nonce cipher)

/-- `crypto_aes_gcm_decrypt` on a context. The update has put out its bytes before the final call
compares the tags, so that a failure leaves the packet overwritten. -/
def crypto_aes_gcm_decrypt (o : Openssl) (tls : Tls) (s : GcmSide) (key nonce : Bytes) (pkt : Buf)
    (off len : Nat) (tag : Bytes) : Bool × Buf :=
  if len = 0 then (true, pkt)
  else if !tls.evp_ok then (false, pkt)
  else
    let s := s.set_up (key.take (get_key_size tls.aes_bits)) tls.nonce_size
    let cipher := read pkt off len
    (o.gcm_tag s.evp_key nonce cipher == tag, write pkt off (o.gcm s.evp_key nonce cipher))

/-- The context that the two functions find at the begin of an AES step. -/
def enc_side (tls : Tls) (key : Bytes) : GcmSide := tls.gcm_enc tls.aes_bits tls.nonce_size key

def dec_side (tls : Tls) (key : Bytes) : GcmSide := tls.gcm_dec tls.aes_bits tls.nonce_size key

/-- The AES step of an encrypt function: the packet, and the tag to put after the
ciphertext (none in CTR mode). -/
def aes_encrypt (o : Openssl) (tls : Tls) (key nonce : Bytes) (pkt : Buf) (off len : Nat) :
    Option (Buf × Bytes) :=
  match tls.crypto_mode with
  | .gcm => crypto_aes_gcm_encrypt o tls (enc_side tls key) key nonce pkt off len
  | .ctr =>
    (crypto_aes_ctr_with_key o tls key (crypto_nonce_to_iv nonce) pkt off len).map (·, [])

/-- The AES step of a decrypt function under one key. `verify` is the check that a
function makes of a CTR plaintext. -/
def aes_decrypt (o : Openssl) (tls : Tls) (s : GcmSide) (key nonce tag : Bytes)
    (verify : Bytes → Bool) (pkt : Buf) (off len : Nat) : Bool × Buf :=
  match tls.crypto_mode with
  | .gcm => crypto_aes_gcm_decrypt o tls s key nonce pkt off len tag
  | .ctr =>
    match crypto_aes_ctr_with_key o tls key (crypto_nonce_to_iv nonce) pkt off len with
    | none => (false, pkt)
    | some pkt' => (verify (read pkt' off len), pkt')

/-- `uint8_t backup[2048]`. -/
def BACKUP_SIZE : Nat := 2048

/-- What a turn under a key leaves of the context for the next turn. There is none after one that
returns before it is set up with an empty ciphertext, and none that uses it without OpenSSL. -/
def next_side (tls : Tls) (s : GcmSide) (key : Bytes) : GcmSide :=
  match tls.crypto_mode with
  | .gcm => s.set_up (key.take (get_key_size tls.aes_bits)) tls.nonce_size
  | .ctr => s

/-- The loop of a decrypt function over its keys, at its `k`th turn. From the second turn
on it starts from the backup, which exists when the ciphertext fits into it. -/
def try_keys (o : Openssl) (tls : Tls) (ctx : PacketCryptoCtx) (nonce tag : Bytes)
    (verify : Bytes → Bool) (off len : Nat) (backup : Bytes) :
    Nat → GcmSide → List KeySlot → Buf → Bool × Buf
  | _, _, [], pkt => (false, pkt)
  | k, s, slot :: slots, pkt =>
    let work := if 0 < k ∧ len ≤ BACKUP_SIZE then write pkt off backup else pkt
    let key := packet_crypto_get_key ctx slot
    match aes_decrypt o tls s key nonce tag verify work off len with
    | (true, pkt') => (true, pkt')
    | (false, pkt') =>
      try_keys o tls ctx nonce tag verify off len backup (k + 1) (next_side tls s key) slots pkt'

/-- `key_order` of the decrypt functions. -/
def key_order : List KeySlot := [.current, .prev, .next]

/-- What the four decrypt functions share: the tag cut off the end, the backup and the
loop over the keys. It gives the plaintext's length and the packet; a packet too short
for its tag is not touched. -/
def decrypt_in_place (o : Openssl) (tls : Tls) (ctx : PacketCryptoCtx) (nonce : Bytes)
    (verify : Bytes → Bool) (pkt : Buf) (enc_off total_after : Nat) : Option Nat × Buf :=
  if total_after < tag_overhead tls then (none, pkt)
  else
    let enc_len := total_after - tag_overhead tls
    let tag := read pkt (enc_off + enc_len) (tag_overhead tls)
    match try_keys o tls ctx nonce tag verify enc_off enc_len (read pkt enc_off enc_len)
        0 (dec_side tls ctx.key_current) key_order pkt with
    | (true, pkt') => (some enc_len, pkt')
    | (false, pkt') => (none, pkt')

/-- What an encrypt function does: its return code, the packet, `g_nonce_counter`, and the
keys and nonces that AES was called with. -/
structure EncResult where
  ret : Option Nat
  pkt : Buf
  counter : Nat
  used : List (Bytes × Bytes) := []

/-! ## Checksums -/

/-- The sum of the big-endian words; an odd last byte counts as a high byte. -/
def word_sum : Bytes → Nat
  | [] => 0
  | [a] => a.toNat * 256
  | a :: b :: rest => a.toNat * 256 + b.toNat + word_sum rest

/-- One turn of `while (sum >> 16)`. -/
def fold_turn (sum : Nat) : Nat := sum % 65536 + sum / 65536

/-- `(uint16_t)(~sum)` after the loop, which two turns end. -/
def fold_not (sum : Nat) : Nat := 65535 - fold_turn (fold_turn sum)

def crypto_calc_ip_checksum (pkt : Buf) (ip_off hdr_len : Nat) : Nat :=
  fold_not (word_sum (read pkt ip_off hdr_len))

/-- The source and destination addresses, the protocol and the length. -/
def pseudo_sum (pkt : Buf) (ip_off proto len : Nat) : Nat :=
  be16 pkt (ip_off + 12) + be16 pkt (ip_off + 14) + be16 pkt (ip_off + 16) +
    be16 pkt (ip_off + 18) + proto + len % 65536

def crypto_calc_tcp_checksum (pkt : Buf) (ip_off ip_hdr_len tcp_off tcp_seg_len : Nat) : Nat :=
  if ip_hdr_len < 20 ∨ tcp_seg_len < 20 then 0
  else
    -- the word at offset 16 counts as 0
    fold_not (pseudo_sum pkt ip_off 6 tcp_seg_len +
      word_sum (read (write pkt (tcp_off + 16) [0, 0]) tcp_off tcp_seg_len))

def crypto_calc_udp_checksum (pkt : Buf) (ip_off ip_hdr_len udp_off udp_seg_len : Nat) : Nat :=
  if ip_hdr_len < 20 ∨ udp_seg_len < 8 then 0
  else
    let udp_len := be16 pkt (udp_off + 4)
    let udp_len := if udp_len < 8 then 8 else udp_len
    let udp_len := if udp_len > udp_seg_len % 65536 then udp_seg_len % 65536 else udp_len
    fold_not (pseudo_sum pkt ip_off 17 udp_len + word_sum (read pkt udp_off udp_len))

/-- The total length and the checksum of an IPv4 header, written as `l3_patch_ipv4`,
`frag_patch_ipv4` and `l4_fix_ipv4_totlen_and_cksum` all write them. -/
def patch_ipv4 (pkt : Buf) (ip_off ip_hdr_len ip_total : Nat) : Buf :=
  let pkt := write pkt (ip_off + 2) (be16Bytes ip_total)
  let pkt := write pkt (ip_off + 10) [0, 0]
  write pkt (ip_off + 10) (be16Bytes (crypto_calc_ip_checksum pkt ip_off ip_hdr_len))

/-! ## Keys and nonces -/

theorem take_pad_key (key : Bytes) (n : Nat) (h : key.length = n) : (pad_key key).take n = key := by
  unfold pad_key
  exact List.take_left' h

theorem length_derive_key {o : Openssl} (ho : o.Lawful) (aes_bits : Nat) (master : Bytes)
    (epoch : Nat) : (derive_key o aes_bits master epoch).length = get_key_size aes_bits := by
  unfold derive_key get_key_size
  rw [List.length_take, ho.length_hmac]
  split <;> rfl

/-- AES under any slot of a fresh context runs with the derived key. -/
theorem take_get_key_init_ctx {o : Openssl} (ho : o.Lawful) (aes_bits : Nat) (master : Bytes)
    (slot : KeySlot) :
    (packet_crypto_get_key (init_ctx o aes_bits master) slot).take (get_key_size aes_bits) =
      derive_key o aes_bits master 0 := by
  have h := take_pad_key _ _ (length_derive_key ho aes_bits master 0)
  cases slot <;> exact h

theorem length_crypto_generate_nonce (tls : Tls) (counter proto_flag : Nat)
    (h : 4 ≤ tls.nonce_size) :
    (crypto_generate_nonce tls counter proto_flag).length = tls.nonce_size := by
  unfold crypto_generate_nonce
  simp only [List.length_take, List.length_append, List.length_cons, List.length_nil, length_read]
  omega

/-- Behind its first four bytes a nonce is the salt of the thread. -/
theorem getD_crypto_generate_nonce (tls : Tls) (counter proto_flag : Nat) {i : Nat}
    (hi : 4 + i < tls.nonce_size) :
    (crypto_generate_nonce tls counter proto_flag).getD (4 + i) 0 = tls.nonce_salt i := by
  have hsalt := getD_read tls.nonce_salt 0 (tls.nonce_size - 4) i (by omega)
  rw [Nat.zero_add] at hsalt
  unfold crypto_generate_nonce
  dsimp only
  rw [List.getD_eq_getElem?_getD, List.getElem?_take_of_lt hi, ← List.getD_eq_getElem?_getD,
    List.getD_append_right _ _ _ _ (by simp)]
  simpa using hsalt

/-- The first four bytes of a nonce are the counter, whatever the thread and its salt. -/
theorem take_crypto_generate_nonce (tls : Tls) (counter : Nat) (h : 4 ≤ tls.nonce_size) :
    (crypto_generate_nonce tls counter PROTO_FLAG_IPV4).take 4 =
      [UInt8.ofNat (counter / 2 ^ 24 % 128), UInt8.ofNat (counter / 2 ^ 16),
        UInt8.ofNat (counter / 2 ^ 8), UInt8.ofNat counter] := by
  unfold crypto_generate_nonce PROTO_FLAG_IPV4
  rw [List.take_take, Nat.min_eq_left h, Nat.zero_mul, Nat.zero_add]
  rfl

theorem ofNat_eq_iff (m n : Nat) : UInt8.ofNat m = UInt8.ofNat n ↔ m % 256 = n % 256 := by
  rw [← UInt8.toNat_inj, UInt8.toNat_ofNat', UInt8.toNat_ofNat']

/-- Different counter values give different nonces, on whatever threads they are drawn. -/
theorem counter_of_nonce_eq {tls tls' : Tls} {c c' : Nat} (h : 4 ≤ tls.nonce_size)
    (h' : 4 ≤ tls'.nonce_size) (hc : c < 2 ^ 31) (hc' : c' < 2 ^ 31)
    (he : crypto_generate_nonce tls c PROTO_FLAG_IPV4 =
      crypto_generate_nonce tls' c' PROTO_FLAG_IPV4) : c = c' := by
  have h4 := congrArg (List.take 4) he
  rw [take_crypto_generate_nonce tls c h, take_crypto_generate_nonce tls' c' h'] at h4
  simp only [List.cons.injEq, ofNat_eq_iff, and_true] at h4
  omega

/-- The highest bit of a nonce is the protocol flag, which is 0 for IPv4. -/
theorem nonce_first_lt (tls : Tls) (counter : Nat) (h : 4 ≤ tls.nonce_size) :
    ((crypto_generate_nonce tls counter PROTO_FLAG_IPV4).getD 0 0).toNat < 128 := by
  have h4 := congrArg (fun l => (l.getD 0 0).toNat) (take_crypto_generate_nonce tls counter h)
  have hd : ((crypto_generate_nonce tls counter PROTO_FLAG_IPV4).take 4).getD 0 0 =
      (crypto_generate_nonce tls counter PROTO_FLAG_IPV4).getD 0 0 := by
    simp [List.getD_eq_getElem?_getD]
  simp only [hd] at h4
  rw [h4]
  simp only [List.getD_cons_zero, UInt8.toNat_ofNat']
  omega

/-! ## What the AES steps do -/

/-- The key that AES runs under, on a context that is as `s` says in GCM mode. -/
def run_key (tls : Tls) (s : GcmSide) (key : Bytes) : Bytes :=
  match tls.crypto_mode with
  | .gcm => (s.set_up (key.take (get_key_size tls.aes_bits)) tls.nonce_size).evp_key
  | .ctr => key.take (get_key_size tls.aes_bits)

def enc_key (tls : Tls) (key : Bytes) : Bytes := run_key tls (enc_side tls key) key

def dec_key (tls : Tls) (key : Bytes) : Bytes := run_key tls (dec_side tls key) key

theorem run_key_ctr {tls : Tls} (hm : tls.crypto_mode = .ctr) (s : GcmSide) (key : Bytes) :
    run_key tls s key = key.take (get_key_size tls.aes_bits) := by
  unfold run_key
  rw [hm]

theorem run_key_gcm {tls : Tls} (hm : tls.crypto_mode = .gcm) (s : GcmSide) (key : Bytes) :
    run_key tls s key =
      (s.set_up (key.take (get_key_size tls.aes_bits)) tls.nonce_size).evp_key := by
  unfold run_key
  rw [hm]

/-- The bytes that AES puts in the place of `data`, in either direction. -/
def aesOf (o : Openssl) (mode : CryptoMode) (key nonce data : Bytes) : Bytes :=
  match mode with
  | .gcm => o.gcm key nonce data
  | .ctr => o.ctr key (crypto_nonce_to_iv nonce) data

theorem length_aesOf {o : Openssl} (ho : o.Lawful) (mode : CryptoMode) (key nonce data : Bytes) :
    (aesOf o mode key nonce data).length = data.length := by
  cases mode with
  | gcm => exact ho.length_gcm _ _ _
  | ctr => exact ho.length_ctr _ _ _

theorem aesOf_aesOf {o : Openssl} (ho : o.Lawful) (mode : CryptoMode) (key nonce data : Bytes) :
    aesOf o mode key nonce (aesOf o mode key nonce data) = data := by
  cases mode with
  | gcm => exact ho.gcm_gcm _ _ _
  | ctr => exact ho.ctr_ctr _ _ _

/-- The ciphertext and the tag that an encrypt function makes of `data`. -/
def sealOf (o : Openssl) (tls : Tls) (key nonce data : Bytes) : Bytes × Bytes :=
  let cipher := aesOf o tls.crypto_mode (enc_key tls key) nonce data
  (cipher,
    match tls.crypto_mode with
    | .gcm =>
      if data = [] then read tls.stack_tag 0 AES128_GCM_TAG_SIZE
      else o.gcm_tag (enc_key tls key) nonce cipher
    | .ctr => [])

theorem length_sealOf_cipher {o : Openssl} (ho : o.Lawful) (tls : Tls) (key nonce data : Bytes) :
    (sealOf o tls key nonce data).1.length = data.length :=
  length_aesOf ho _ _ _ _

/-- Every ciphertext is the one of some plaintext. -/
theorem sealOf_sealOf_cipher {o : Openssl} (ho : o.Lawful) (tls : Tls) (key nonce cipher : Bytes) :
    (sealOf o tls key nonce (sealOf o tls key nonce cipher).1).1 = cipher :=
  aesOf_aesOf ho _ _ _ _

theorem length_sealOf_tag {o : Openssl} (ho : o.Lawful) (tls : Tls) (key nonce data : Bytes) :
    (sealOf o tls key nonce data).2.length = tag_overhead tls := by
  unfold sealOf tag_overhead
  cases tls.crypto_mode with
  | gcm =>
    by_cases hd : data = []
    · simp [hd, AES128_GCM_TAG_SIZE]
    · simp [hd, ho.length_gcm_tag, AES128_GCM_TAG_SIZE]
  | ctr => rfl

/-- When OpenSSL works, the AES step of an encrypt function puts the sealed bytes in place. -/
theorem aes_encrypt_eq {o : Openssl} (ho : o.Lawful) (tls : Tls) (key nonce : Bytes) (pkt : Buf)
    (off len : Nat) :
    aes_encrypt o tls key nonce pkt off len =
      if len = 0 ∨ tls.evp_ok then
        some (write pkt off (sealOf o tls key nonce (read pkt off len)).1,
          (sealOf o tls key nonce (read pkt off len)).2)
      else none := by
  unfold aes_encrypt sealOf crypto_aes_gcm_encrypt crypto_aes_ctr_with_key
  by_cases hl : len = 0
  · subst hl
    have hnil : ∀ mode, aesOf o mode (enc_key tls key) nonce [] = [] := fun mode =>
      List.length_eq_zero_iff.mp (length_aesOf ho mode _ _ [])
    cases tls.crypto_mode <;> simp [hnil]
  · have hr : read pkt off len ≠ [] := by
      intro hr
      exact hl (by simpa using congrArg List.length hr)
    cases hm : tls.crypto_mode <;> cases he : tls.evp_ok <;>
      simp [hl, hr, aesOf, enc_key, run_key, hm]

theorem aes_encrypt_some {o : Openssl} (ho : o.Lawful) {tls : Tls} {key nonce : Bytes} {pkt : Buf}
    {off len : Nat} {r : Buf × Bytes} (h : aes_encrypt o tls key nonce pkt off len = some r) :
    r = (write pkt off (sealOf o tls key nonce (read pkt off len)).1,
      (sealOf o tls key nonce (read pkt off len)).2) := by
  rw [aes_encrypt_eq ho] at h
  split at h
  · exact (Option.some.inj h).symm
  · simp at h

/-- Two threads that run the same AES. -/
structure SameAes (tls tls' : Tls) : Prop where
  mode : tls'.crypto_mode = tls.crypto_mode
  key_size : get_key_size tls'.aes_bits = get_key_size tls.aes_bits

/-- A thread with a context that decrypts with the settings of the encrypting one. -/
structure SameSettings (tls tls' : Tls) (ctx' : PacketCryptoCtx) : Prop where
  aes : SameAes tls tls'
  nonce_size : tls'.nonce_size = tls.nonce_size
  fake_protocol : tls'.fake_protocol = tls.fake_protocol
  evp_ok : tls'.evp_ok = true
  initialized : ctx'.initialized = true

/-- A thread with a context that decrypts with the parameters of the encrypting one. -/
structure SameParameters (tls : Tls) (ctx : PacketCryptoCtx) (tls' : Tls) (ctx' : PacketCryptoCtx) :
    Prop extends SameSettings tls tls' ctx' where
  key : ctx'.key_current = ctx.key_current

theorem SameAes.tag_overhead {tls tls' : Tls} (h : SameAes tls tls') :
    tag_overhead tls' = tag_overhead tls := by
  unfold packet_crypto.tag_overhead
  rw [h.mode]

/-- The first turn of a receiver runs AES under the key that a sender seals under. -/
def SameKey (tls : Tls) (ctx : PacketCryptoCtx) (tls' : Tls) (ctx' : PacketCryptoCtx) : Prop :=
  dec_key tls' ctx'.key_current = enc_key tls ctx.key_current

/-- A thread whose two contexts are alike opens what it seals. -/
theorem SameKey.of_same_sides {tls : Tls} (h : tls.gcm_dec = tls.gcm_enc) (ctx : PacketCryptoCtx) :
    SameKey tls ctx tls ctx := by
  unfold SameKey dec_key enc_key dec_side enc_side
  rw [h]

/-- A call in GCM mode that finds its key in the cache finds it in the context. -/
def KeyInPlace (tls : Tls) (s : GcmSide) (key : Bytes) : Prop :=
  tls.crypto_mode = .gcm → s.InPlace (key.take (get_key_size tls.aes_bits)) tls.nonce_size

/-- The encryptions of a context find its key in place. -/
def EncInPlace (tls : Tls) (ctx : PacketCryptoCtx) : Prop :=
  KeyInPlace tls (enc_side tls ctx.key_current) ctx.key_current

/-- So do its decryptions, in the first turn. -/
def DecInPlace (tls : Tls) (ctx : PacketCryptoCtx) : Prop :=
  KeyInPlace tls (dec_side tls ctx.key_current) ctx.key_current

theorem KeyInPlace.run_key_eq {tls : Tls} {s : GcmSide} {key : Bytes} (h : KeyInPlace tls s key) :
    run_key tls s key = key.take (get_key_size tls.aes_bits) := by
  cases hm : tls.crypto_mode with
  | ctr => exact run_key_ctr hm s key
  | gcm => rw [run_key_gcm hm, (h hm).set_up]

/-- Two threads with one key whose calls find it in place run AES under the same key. -/
theorem SameAes.sameKey {tls tls' : Tls} {ctx ctx' : PacketCryptoCtx} (h : SameAes tls tls')
    (hk : ctx'.key_current = ctx.key_current)
    (he : EncInPlace tls ctx) (hd : DecInPlace tls' ctx') : SameKey tls ctx tls' ctx' := by
  unfold SameKey dec_key enc_key
  rw [he.run_key_eq, hd.run_key_eq, h.key_size, hk]

/-- Only in GCM mode can the same parameters lead to another key. -/
theorem SameParameters.gcm_of_not_sameKey {tls tls' : Tls} {ctx ctx' : PacketCryptoCtx}
    (h : SameParameters tls ctx tls' ctx') (hk : ¬ SameKey tls ctx tls' ctx') :
    tls.crypto_mode = .gcm := by
  cases hm : tls.crypto_mode with
  | gcm => rfl
  | ctr =>
    refine absurd (h.aes.sameKey h.key (fun hg => ?_) fun hg => ?_) hk
    · rw [hm] at hg
      simp at hg
    · rw [h.aes.mode, hm] at hg
      simp at hg

/-- The AES step of a decrypt function under a key that was sealed under gives back what was
sealed with the same nonce, whatever thread sealed it. -/
theorem aes_decrypt_sealOf {o : Openssl} (ho : o.Lawful) {tls tls' : Tls} (hs : SameAes tls tls')
    (he : tls'.evp_ok = true) {s : GcmSide} {key key' nonce data tag : Bytes}
    {verify : Bytes → Bool} {pkt : Buf} {off : Nat} (hk : run_key tls' s key' = enc_key tls key)
    (hr : read pkt off data.length = (sealOf o tls key nonce data).1)
    (ht : tag = (sealOf o tls key nonce data).2)
    (hv : tls.crypto_mode = .ctr → verify data = true) :
    aes_decrypt o tls' s key' nonce tag verify pkt off data.length = (true, write pkt off data) := by
  unfold aes_decrypt
  unfold sealOf at hr ht
  rw [hs.mode]
  cases hm : tls.crypto_mode with
  | gcm =>
    rw [run_key_gcm (hs.mode.trans hm)] at hk
    simp only [hm, ← hk] at hr ht ⊢
    unfold crypto_aes_gcm_decrypt
    by_cases hd : data = []
    · simp [hd]
    · have hl : data.length ≠ 0 := by simpa using hd
      simp [hl, he, hr, ht, hd, aesOf, ho.gcm_gcm]
  | ctr =>
    rw [run_key_ctr (hs.mode.trans hm)] at hk
    simp only [hm, ← hk] at hr ⊢
    unfold crypto_aes_ctr_with_key
    by_cases hd : data = []
    · simpa [hd] using hv hm
    · have hl : data.length ≠ 0 := by simpa using hd
      simp [hl, he, hr, aesOf, ho.ctr_ctr, read_write_self, hv hm]

/-- The current key is tried first, on the packet as it came. -/
theorem try_keys_current {o : Openssl} {tls : Tls} {ctx : PacketCryptoCtx} {s : GcmSide}
    {nonce tag : Bytes} {verify : Bytes → Bool} {off len : Nat} {backup : Bytes} {pkt pkt' : Buf}
    (h : aes_decrypt o tls s ctx.key_current nonce tag verify pkt off len = (true, pkt')) :
    try_keys o tls ctx nonce tag verify off len backup 0 s key_order pkt = (true, pkt') := by
  unfold key_order try_keys
  simp [packet_crypto_get_key, h]

/-- What the decrypt functions share opens a sealed packet. -/
theorem decrypt_in_place_sealOf {o : Openssl} (ho : o.Lawful) {tls tls' : Tls}
    (hs : SameAes tls tls') (he : tls'.evp_ok = true) {ctx : PacketCryptoCtx}
    {key nonce data : Bytes} (hk : dec_key tls' ctx.key_current = enc_key tls key)
    {verify : Bytes → Bool} {pkt : Buf} {enc_off : Nat}
    (hr : read pkt enc_off data.length = (sealOf o tls key nonce data).1)
    (ht : read pkt (enc_off + data.length) (tag_overhead tls) = (sealOf o tls key nonce data).2)
    (hv : tls.crypto_mode = .ctr → verify data = true) :
    decrypt_in_place o tls' ctx nonce verify pkt enc_off (data.length + tag_overhead tls) =
      (some data.length, write pkt enc_off data) := by
  unfold decrypt_in_place
  rw [hs.tag_overhead, if_neg (by omega), Nat.add_sub_cancel]
  dsimp only
  rw [try_keys_current (aes_decrypt_sealOf ho hs he hk hr ht hv)]

/-- `data` stands sealed in `out`: the nonce at `off`, after `gap` bytes of header the
ciphertext, and after that the tag. -/
structure Sealed (o : Openssl) (tls : Tls) (key nonce data : Bytes) (out : Buf)
    (off gap : Nat) : Prop where
  nonce_at : read out off tls.nonce_size = nonce
  cipher_at : read out (off + tls.nonce_size + gap) data.length = (sealOf o tls key nonce data).1
  tag_at : read out (off + tls.nonce_size + gap + data.length) (tag_overhead tls) =
    (sealOf o tls key nonce data).2

/-- What is sealed stays sealed in a buffer that agrees from its nonce to its tag. -/
theorem Sealed.congr {o : Openssl} {tls : Tls} {key nonce data : Bytes} {b c : Buf}
    {off gap : Nat} (h : Sealed o tls key nonce data b off gap)
    (hc : ∀ i, off ≤ i → i < off + tls.nonce_size + gap + data.length + tag_overhead tls →
      c i = b i) :
    Sealed o tls key nonce data c off gap where
  nonce_at := by rw [← h.nonce_at]; exact read_congr fun i h1 h2 => hc i h1 (by omega)
  cipher_at := by rw [← h.cipher_at]; exact read_congr fun i h1 h2 => hc i (by omega) (by omega)
  tag_at := by rw [← h.tag_at]; exact read_congr fun i h1 h2 => hc i (by omega) (by omega)

/-- The writes of an encrypt function, with a header of `gap` bytes, seal the data. -/
theorem sealed_of_writes {o : Openssl} (ho : o.Lawful) (tls : Tls) (key nonce data hdr : Bytes)
    (pkt : Buf) (off gap enc_off tag_off : Nat) (hn : nonce.length = tls.nonce_size)
    (hg : hdr.length = gap) (he : enc_off = off + tls.nonce_size + gap)
    (ht : tag_off = enc_off + data.length) :
    Sealed o tls key nonce data
      (write (write (write (write pkt enc_off (sealOf o tls key nonce data).1) tag_off
        (sealOf o tls key nonce data).2) off nonce) (off + tls.nonce_size) hdr) off gap := by
  subst he ht
  have hc := length_sealOf_cipher ho tls key nonce data
  have hl := length_sealOf_tag ho tls key nonce data
  refine ⟨?_, ?_, ?_⟩
  · rw [read_write_apart _ _ _ _ _ (by omega), read_write_self _ _ _ _ hn.symm]
  · rw [read_write_apart _ _ _ _ _ (by omega), read_write_apart _ _ _ _ _ (by omega),
      read_write_apart _ _ _ _ _ (by omega), read_write_self _ _ _ _ hc.symm]
  · rw [read_write_apart _ _ _ _ _ (by omega), read_write_apart _ _ _ _ _ (by omega),
      read_write_self _ _ _ _ hl.symm]

/-- A ciphertext and a tag put behind a header that is there already. -/
theorem sealed_in_place {o : Openssl} (ho : o.Lawful) (tls : Tls) (key nonce data : Bytes)
    (pkt : Buf) (off gap enc_off tag_off : Nat) (hn : read pkt off tls.nonce_size = nonce)
    (he : enc_off = off + tls.nonce_size + gap) (ht : tag_off = enc_off + data.length) :
    Sealed o tls key nonce data
      (write (write pkt enc_off (sealOf o tls key nonce data).1) tag_off
        (sealOf o tls key nonce data).2) off gap := by
  subst he ht
  have hc := length_sealOf_cipher ho tls key nonce data
  have hl := length_sealOf_tag ho tls key nonce data
  refine ⟨?_, ?_, ?_⟩
  · rw [read_write_apart _ _ _ _ _ (by omega), read_write_apart _ _ _ _ _ (by omega), hn]
  · rw [read_write_apart _ _ _ _ _ (by omega), read_write_self _ _ _ _ hc.symm]
  · rw [read_write_self _ _ _ _ hl.symm]

/-- What the decrypt functions share opens what is sealed. -/
theorem Sealed.open_in_place {o : Openssl} (ho : o.Lawful) {tls tls' : Tls}
    {ctx : PacketCryptoCtx} {key nonce data : Bytes} {out : Buf} {off gap : Nat}
    (h : Sealed o tls key nonce data out off gap) (hs : SameAes tls tls')
    (hk : dec_key tls' ctx.key_current = enc_key tls key) (he : tls'.evp_ok = true)
    {verify : Bytes → Bool}
    (hv : tls.crypto_mode = .ctr → verify data = true) :
    decrypt_in_place o tls' ctx nonce verify out (off + tls.nonce_size + gap)
        (data.length + tag_overhead tls) =
      (some data.length, write out (off + tls.nonce_size + gap) data) :=
  decrypt_in_place_sealOf ho hs he hk h.cipher_at h.tag_at hv

/-! ## The transport checksums -/

section

variable {b c : Buf} {n ip_off off : Nat}

theorem pseudo_sum_congr (proto len : Nat) (h : ∀ i, ip_off + 12 ≤ i → i < n → b i = c i)
    (hn : ip_off + 20 ≤ n) : pseudo_sum b ip_off proto len = pseudo_sum c ip_off proto len := by
  have hw : ∀ k, 12 ≤ k → k + 2 ≤ 20 → be16 b (ip_off + k) = be16 c (ip_off + k) := fun k h1 h2 =>
    be16_congr (h _ (by omega) (by omega)) (h _ (by omega) (by omega))
  unfold pseudo_sum
  rw [hw 12 (by omega) (by omega), hw 14 (by omega) (by omega), hw 16 (by omega) (by omega),
    hw 18 (by omega) (by omega)]

/-- A checksum depends on the frame from the addresses to the end of the segment. -/
theorem crypto_calc_tcp_checksum_congr (ip_hdr_len : Nat) {len : Nat}
    (h : ∀ i, ip_off + 12 ≤ i → i < n → b i = c i) (hip : ip_off + 20 ≤ n)
    (hoff : ip_off + 12 ≤ off) (hn : off + len ≤ n) :
    crypto_calc_tcp_checksum b ip_off ip_hdr_len off len =
      crypto_calc_tcp_checksum c ip_off ip_hdr_len off len := by
  have hread : read (write b (off + 16) [0, 0]) off len = read (write c (off + 16) [0, 0]) off len :=
    read_congr fun i h1 h2 => write_congr_at fun _ => h i (by omega) (by omega)
  unfold crypto_calc_tcp_checksum
  rw [pseudo_sum_congr 6 len h hip, hread]

theorem crypto_calc_udp_checksum_congr (ip_hdr_len : Nat) {len : Nat}
    (h : ∀ i, ip_off + 12 ≤ i → i < n → b i = c i) (hip : ip_off + 20 ≤ n)
    (hoff : ip_off + 12 ≤ off) (hn : off + len ≤ n) :
    crypto_calc_udp_checksum b ip_off ip_hdr_len off len =
      crypto_calc_udp_checksum c ip_off ip_hdr_len off len := by
  unfold crypto_calc_udp_checksum
  by_cases hc : ip_hdr_len < 20 ∨ len < 8
  · rw [if_pos hc, if_pos hc]
  rw [if_neg hc, if_neg hc, be16_congr (h (off + 4) (by omega) (by omega))
    (h (off + 4 + 1) (by omega) (by omega))]
  dsimp only
  generalize (if be16 c (off + 4) < 8 then 8 else be16 c (off + 4)) = l
  have hle : (if l > len % 65536 then len % 65536 else l) ≤ len := by
    have := Nat.mod_le len 65536
    split <;> omega
  rw [pseudo_sum_congr 17 _ h hip, read_congr fun i h1 h2 => h i (by omega) (by omega)]

end

/-! ## The IPv4 header rewrite -/

/-- Two turns end the loop for every sum of 32 bits. -/
theorem fold_turn_fold_turn_lt (sum : Nat) (h : sum < 2 ^ 32) :
    fold_turn (fold_turn sum) < 65536 := by
  unfold fold_turn
  omega

theorem patch_ipv4_out (pkt : Buf) (ip_off ip_hdr_len ip_total i : Nat)
    (h1 : i < ip_off + 2 ∨ ip_off + 4 ≤ i) (h2 : i < ip_off + 10 ∨ ip_off + 12 ≤ i) :
    patch_ipv4 pkt ip_off ip_hdr_len ip_total i = pkt i := by
  unfold patch_ipv4
  rw [write_out _ _ _ _ (by simpa using h2), write_out _ _ _ _ (by simpa using h2),
    write_out _ _ _ _ (by simpa using h1)]

/-- The rewrite reads the header but for the four bytes it writes. -/
theorem patch_ipv4_congr_at {b c : Buf} {ip_off ip_hdr_len : Nat} (ip_total : Nat) {i : Nat}
    (h : ∀ j, ip_off ≤ j → j < ip_off + ip_hdr_len → (j < ip_off + 2 ∨ ip_off + 4 ≤ j) →
      (j < ip_off + 10 ∨ ip_off + 12 ≤ j) → b j = c j)
    (hi : (i < ip_off + 2 ∨ ip_off + 4 ≤ i) → (i < ip_off + 10 ∨ ip_off + 12 ≤ i) → b i = c i) :
    patch_ipv4 b ip_off ip_hdr_len ip_total i = patch_ipv4 c ip_off ip_hdr_len ip_total i := by
  have hw : ∀ j, ((j < ip_off + 2 ∨ ip_off + 4 ≤ j) → (j < ip_off + 10 ∨ ip_off + 12 ≤ j) →
      b j = c j) → write (write b (ip_off + 2) (be16Bytes ip_total)) (ip_off + 10) [0, 0] j =
      write (write c (ip_off + 2) (be16Bytes ip_total)) (ip_off + 10) [0, 0] j := by
    intro j hj
    refine write_congr_at fun h2 => write_congr_at fun h1 => hj ?_ ?_
    · simpa using h1
    · simpa using h2
  have hc : read (write (write b (ip_off + 2) (be16Bytes ip_total)) (ip_off + 10) [0, 0]) ip_off
      ip_hdr_len = read (write (write c (ip_off + 2) (be16Bytes ip_total)) (ip_off + 10) [0, 0])
      ip_off ip_hdr_len := read_congr fun j h1 h2 => hw j (h j h1 h2)
  unfold patch_ipv4 crypto_calc_ip_checksum
  simp only [hc]
  exact write_congr_at fun _ => hw i hi

/-- In frames of `n` bytes that agree elsewhere it gives the same. -/
theorem patch_ipv4_congr {b c : Buf} {n : Nat} (ip_off ip_hdr_len ip_total : Nat)
    (hn : ip_off + ip_hdr_len ≤ n)
    (h : ∀ i, i < n → (i < ip_off + 2 ∨ ip_off + 4 ≤ i) → (i < ip_off + 10 ∨ ip_off + 12 ≤ i) →
      b i = c i) (i : Nat) (hi : i < n) :
    patch_ipv4 b ip_off ip_hdr_len ip_total i = patch_ipv4 c ip_off ip_hdr_len ip_total i :=
  patch_ipv4_congr_at ip_total (fun j _ h2 => h j (by omega)) (h i hi)

/-- Only the low 16 bits of the total length matter. -/
theorem patch_ipv4_total_congr (pkt : Buf) (ip_off ip_hdr_len : Nat) {x y : Nat}
    (h : x % 65536 = y % 65536) :
    patch_ipv4 pkt ip_off ip_hdr_len x = patch_ipv4 pkt ip_off ip_hdr_len y := by
  unfold patch_ipv4
  rw [be16Bytes_congr h]

/-- The total length that a rewrite leaves in the header. -/
theorem be16_totlen_patch_ipv4 (pkt : Buf) (ip_off ip_hdr_len ip_total : Nat) :
    be16 (patch_ipv4 pkt ip_off ip_hdr_len ip_total) (ip_off + 2) = ip_total % 65536 := by
  unfold patch_ipv4
  rw [be16_write_apart _ _ _ _ (by simp), be16_write_apart _ _ _ _ (by simp),
    be16_write_be16Bytes]

/-- Outside the checksum a rewrite only writes the total length. -/
theorem patch_ipv4_totlen (pkt : Buf) (ip_off ip_hdr_len ip_total i : Nat)
    (h : i < ip_off + 10 ∨ ip_off + 12 ≤ i) :
    patch_ipv4 pkt ip_off ip_hdr_len ip_total i = write pkt (ip_off + 2) (be16Bytes ip_total) i := by
  unfold patch_ipv4
  rw [write_out _ _ _ _ (by simpa using h), write_out _ _ _ _ (by simpa using h)]

end ne_ip.packet_crypto
