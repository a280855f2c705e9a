-- A stream cipher that keeps OpenSSL's promises, and with the real values of
-- AES-128-GCM for two keys the inputs that concrete runs are made of.
import NeIp.DbRuntime
import NeIp.Forwarder

open byte_buf ne_ip.packet_crypto ne_ip.config ne_ip.crypto_dispatch ne_ip.db_runtime
open ne_ip.forwarder

namespace ne_ip.sample

/-- `data` with the keystream from its byte `i` on. -/
def xorStream (ks : Nat → UInt8) : Nat → Bytes → Bytes
  | _, [] => []
  | i, b :: bs => (b ^^^ ks i) :: xorStream ks (i + 1) bs

theorem length_xorStream (ks : Nat → UInt8) (i : Nat) (bs : Bytes) :
    (xorStream ks i bs).length = bs.length := by
  induction bs generalizing i with
  | nil => rfl
  | cons b bs ih => simp only [xorStream, List.length_cons, ih]

theorem xorStream_xorStream (ks : Nat → UInt8) (i : Nat) (bs : Bytes) :
    xorStream ks i (xorStream ks i bs) = bs := by
  induction bs generalizing i with
  | nil => rfl
  | cons b bs ih => simp only [xorStream, ih, UInt8.xor_assoc, UInt8.xor_self, UInt8.xor_zero]

/-- The primitives from two keystreams, a tag and an HMAC. -/
def streamOpenssl (ctr gcm : (key nonce : Bytes) → Nat → UInt8)
    (tag : (key nonce cipher : Bytes) → Vector UInt8 16)
    (hmac : (key msg : Bytes) → Vector UInt8 32) : Openssl where
  ctr key iv := xorStream (ctr key iv) 0
  gcm key nonce := xorStream (gcm key nonce) 0
  gcm_tag key nonce cipher := (tag key nonce cipher).toList
  hmac_sha256 key msg := (hmac key msg).toList

/-- Stream ciphers keep what OpenSSL promises. -/
theorem streamOpenssl_lawful (ctr gcm : (key nonce : Bytes) → Nat → UInt8)
    (tag : (key nonce cipher : Bytes) → Vector UInt8 16)
    (hmac : (key msg : Bytes) → Vector UInt8 32) : (streamOpenssl ctr gcm tag hmac).Lawful where
  length_ctr _ _ _ := length_xorStream _ _ _
  ctr_ctr _ _ _ := xorStream_xorStream _ _ _
  length_gcm _ _ _ := length_xorStream _ _ _
  gcm_gcm _ _ _ := xorStream_xorStream _ _ _
  length_gcm_tag _ _ _ := Vector.length_toList
  length_hmac _ _ := Vector.length_toList

/-! ## The values for two keys -/

/-- A configured key of 128 bits. -/
def masterKey : Vector UInt8 AES_KEY_LEN :=
  #v[0x2b, 0x7e, 0x15, 0x16, 0x28, 0xae, 0xd2, 0xa6, 0xab, 0xf7, 0x15, 0x88, 0x09, 0xcf, 0x4f, 0x3c,
    0, 0, 0, 0, 0, 0, 0, 0, 0, 0, 0, 0, 0, 0, 0, 0]

/-- The HMAC-SHA256 of epoch 0 under `masterKey`. -/
def masterDigest : Vector UInt8 32 :=
  #v[0x2c, 0x50, 0x99, 0x88, 0xdf, 0xfd, 0xd2, 0xff, 0x87, 0x6c, 0x9e, 0xb6, 0x14, 0x8d, 0xe9, 0xd6,
    0x4b, 0xb9, 0x01, 0xf4, 0xf9, 0x61, 0x23, 0x68, 0x20, 0xe5, 0x11, 0x8d, 0x49, 0x5e, 0xcd, 0xbc]

/-- The HMAC-SHA256 of epoch 0 under a key of zeros. -/
def zeroDigest : Vector UInt8 32 :=
  #v[0xf3, 0x75, 0x18, 0x0a, 0xba, 0x92, 0x88, 0x84, 0x01, 0xf1, 0x91, 0x9b, 0xe4, 0xa8, 0x71, 0x5a,
    0x62, 0x76, 0x3b, 0x65, 0xc1, 0xc1, 0x0e, 0x1d, 0x08, 0x58, 0xe8, 0x1d, 0x4d, 0x6f, 0x9f, 0xd2]

/-- The nonces of the counters 0 and 1 with a salt of zeros. -/
def nonce0 : Bytes := [0, 0, 0, 0, 0, 0, 0, 0, 0, 0, 0, 0]
def nonce1 : Bytes := [0, 0, 0, 1, 0, 0, 0, 0, 0, 0, 0, 0]

/-- The first bytes of three GCM keystreams. -/
def gcmStream (key nonce : Bytes) (i : Nat) : UInt8 :=
  if key = masterDigest.toList.take 16 ∧ nonce = nonce0 then
    [0x4b, 0x97, 0x08, 0x82, 0x33, 0x03, 0x42, 0xfa, 0x71, 0xce, 0x16, 0xb1, 0x7c, 0xd0, 0x39, 0x41,
      0x5f, 0xe6, 0x4f, 0x43, 0x3d, 0x0e, 0x9c, 0x7b].getD i 0
  else if key = masterDigest.toList.take 16 ∧ nonce = nonce1 then
    [0x82, 0xb0, 0x4d, 0xc8, 0xba, 0x83, 0x9a, 0xab, 0x65, 0x5f, 0x69, 0xb4, 0x71, 0x95, 0x40, 0xa3,
      0x82, 0x98, 0x59, 0xd7, 0xa2, 0x15, 0x30, 0xdd].getD i 0
  else if key = zeroDigest.toList.take 16 ∧ nonce = nonce0 then
    [0x57, 0x4b, 0xc7, 0xa6, 0x55, 0x2c, 0x0c, 0x9f, 0x5d, 0xa7, 0xcc, 0x1e, 0x74, 0xe9, 0x42, 0xc8,
      0x5d, 0x1c, 0x09, 0xc0, 0x5a, 0xfc, 0x83, 0x3a].getD i 0
  else 0

/-- `tcpPing` behind its ports under `masterKey`, and what a decrypt with a key of zeros
makes of it. -/
def tcpCipher4 : Bytes :=
  [0x4b, 0x97, 0x08, 0x83, 0x33, 0x03, 0x42, 0xfa, 0x21, 0xd6, 0xe9, 0x4e, 0x7c, 0xd0, 0x39, 0x41,
    0x2f, 0x8f, 0x21, 0x24]
def tcpGarbled4 : Bytes :=
  [0x1c, 0xdc, 0xcf, 0x25, 0x66, 0x2f, 0x4e, 0x65, 0x7c, 0x71, 0x25, 0x50, 0x08, 0x39, 0x7b, 0x89,
    0x72, 0x93, 0x28, 0xe4]

/-- The transport segments of `tcpPing` and `udpPing` under `masterKey`. -/
def tcpCipher3 : Bytes :=
  [0xd7, 0xd7, 0x08, 0xd2, 0x33, 0x03, 0x42, 0xfb, 0x71, 0xce, 0x16, 0xb1, 0x2c, 0xc8, 0xc6, 0xbe,
    0x5f, 0xe6, 0x4f, 0x43, 0x4d, 0x67, 0xf2, 0x1c]
def udpCipher3 : Bytes :=
  [0xd7, 0xd7, 0x08, 0xb7, 0x33, 0x0f, 0x42, 0xfa, 0x01, 0xa7, 0x78, 0xd6]

/-- The two halves of `udpPing` under `masterKey`, the second one under `nonce1`. -/
def udpHalf0 : Bytes := [0xd7, 0xd7, 0x08, 0xb7, 0x33, 0x0f, 0x42, 0xfa, 0x01, 0xa7]
def udpHalf1 : Bytes := [0xec, 0xd7]

/-- The GCM tags of these bytes, under `nonce0` but for the last one. -/
def gcmTag (key nonce cipher : Bytes) : Vector UInt8 16 :=
  if key = masterDigest.toList.take 16 ∧ nonce = nonce1 ∧ cipher = udpHalf1 then
    #v[0xf8, 0x8f, 0xee, 0x9a, 0x95, 0x3d, 0x81, 0x11, 0xce, 0xf5, 0x17, 0xfa, 0x76, 0xf2, 0x37, 0xe9]
  else if nonce ≠ nonce0 then Vector.replicate 16 0
  else if key = masterDigest.toList.take 16 then
    if cipher = tcpCipher4 then
      #v[0x2e, 0x0f, 0x87, 0x30, 0x85, 0x46, 0xbe, 0x3c, 0xba, 0x9e, 0x19, 0x78, 0x0e, 0x85, 0x33, 0x2c]
    else if cipher = tcpCipher3 then
      #v[0xa0, 0x7a, 0x2c, 0x20, 0xb6, 0xc7, 0xef, 0xec, 0x13, 0x2d, 0xfd, 0x98, 0x6b, 0x79, 0x82, 0x78]
    else if cipher = udpHalf0 then
      #v[0x1c, 0x1e, 0x51, 0x17, 0x95, 0x18, 0x09, 0x1b, 0x83, 0x7f, 0x9a, 0x34, 0xec, 0x59, 0x97, 0xaf]
    else if cipher = udpCipher3 then
      #v[0x63, 0xe5, 0x9f, 0x01, 0x35, 0x45, 0x23, 0x5a, 0x2c, 0xd2, 0xeb, 0x9d, 0xb7, 0xbd, 0xf4, 0x0d]
    else Vector.replicate 16 0
  else if key = zeroDigest.toList.take 16 then
    if cipher = tcpCipher4 then
      #v[0xdb, 0xfd, 0xeb, 0xba, 0x3e, 0x34, 0x5f, 0x96, 0x3a, 0x38, 0x2f, 0x4f, 0x01, 0x3a, 0x9c, 0x54]
    else if cipher = tcpGarbled4 then
      #v[0xe3, 0xec, 0x5a, 0x10, 0x94, 0xab, 0xae, 0xe6, 0xa6, 0x5f, 0xd7, 0x17, 0xcf, 0x5c, 0x5e, 0x0f]
    else Vector.replicate 16 0
  else Vector.replicate 16 0

/-- OpenSSL as far as the concrete runs use it. -/
def sampleOpenssl : Openssl :=
  streamOpenssl (fun _ _ _ => 0) gcmStream gcmTag
    (fun key _ =>
      if key = masterKey.toList.take 16 then masterDigest
      else if key = List.replicate 16 0 then zeroDigest
      else Vector.replicate 32 0)

theorem sampleOpenssl_lawful : sampleOpenssl.Lawful := streamOpenssl_lawful _ _ _ _

/-- A policy of `masterKey`. -/
def samplePolicy (id : Nat) (action : PolicyAction) : CryptoPolicy where
  id := id
  action := action
  crypto_mode := .gcm
  aes_bits := 128
  nonce_size := 12
  key := masterKey

theorem one_interface_le : 1 ≤ MAX_INTERFACES := by decide

theorem one_policy_le : 1 ≤ MAX_CRYPTO_POLICIES := by decide

/-- A configuration with some policies, as `build_merged_config` completes it. -/
def sampleCfg (policies : List CryptoPolicy) (h : policies.length ≤ MAX_CRYPTO_POLICIES) :
    AppConfig where
  crypto_enabled := true
  crypto_key := masterKey
  encrypt_layer := 3
  fake_ethertype_ipv4 := 0x88b5
  fake_protocol := 99
  crypto_mode := .gcm
  nonce_size := 12
  aes_bits := 128
  policies := policies
  policies_le := h

/-- An init with it, at any time, goes through. -/
theorem sampleCfg_init (policies : List CryptoPolicy) (h : policies.length ≤ MAX_CRYPTO_POLICIES)
    (now : Nat) (rt : Runtime) :
    init_crypto sampleOpenssl {} now (sampleCfg policies h) rt =
      (true, (init_crypto sampleOpenssl {} now (sampleCfg policies h) rt).2) := by
  refine Prod.ext ?_ rfl
  unfold init_crypto
  simp only [sampleCfg, Bool.not_true, Bool.false_eq_true, if_false, packet_crypto_init, if_true,
    reduceCtorEq]
  split <;> rfl

/-- The runtime after the first `forwarder_init` with it. -/
def sampleRuntime (policies : List CryptoPolicy) (h : policies.length ≤ MAX_CRYPTO_POLICIES) :
    Runtime := (init_crypto sampleOpenssl {} 1 (sampleCfg policies h) Runtime.boot).2

/-- The tables that packets are decrypted with are those of the policies. -/
theorem sampleRuntime_tablesOf (policies : List CryptoPolicy)
    (h : policies.length ≤ MAX_CRYPTO_POLICIES) :
    TablesOf sampleOpenssl policies (sampleRuntime policies h).active := by
  obtain ⟨-, hact, -, -⟩ := init_crypto_some (sampleCfg_init policies h 1 Runtime.boot) rfl
  unfold sampleRuntime
  rw [hact]
  exact rebuild_crypto_runtime_tablesOf {} (sampleCfg policies h) (by
    intro pi cp hpi
    simp [Runtime.boot] at hpi)

theorem sampleRuntime_dispatch (policies : List CryptoPolicy)
    (h : policies.length ≤ MAX_CRYPTO_POLICIES) (now : Nat) :
    TablesOf sampleOpenssl policies (dispatch_ctx (sampleRuntime policies h) now).active := by
  obtain ⟨hpol, -, -, -⟩ := init_crypto_some (sampleCfg_init policies h 1 Runtime.boot) rfl
  have ht := sampleRuntime_tablesOf policies h
  exact ⟨hpol, ht.ctx_eq, ht.index_eq⟩

/-- A database in which profile 1 has the interfaces `lan0` and `wan0` and the policy 7. -/
def sampleDb : Db := fun id =>
  if id = 1 then
    some {
      lans := some [[0x6c, 0x61, 0x6e, 0x30]]
      wans := some [([0x77, 0x61, 0x6e, 0x30], 0, 100)]
      policies := some [samplePolicy 7 .encrypt_l4]
      policies_le := by
        intro ps h
        rw [← Option.some.inj h]
        decide }
  else none

/-- What `build_merged_config` makes of it. -/
def sampleMerged : AppConfig := (build_merged_config sampleDb [1]).getD {}

theorem sampleMerged_build : build_merged_config sampleDb [1] = some sampleMerged := rfl

/-- A TCP segment from 10.0.0.1 port 40000 to 10.0.1.2 port 80. -/
def tcpPing : Bytes :=
  [0x02, 0x00, 0x00, 0x00, 0x00, 0x02, 0x02, 0x00, 0x00, 0x00, 0x00, 0x01, 0x08, 0x00,
    0x45, 0x00, 0x00, 0x2c, 0x00, 0x01, 0x40, 0x00, 0x40, 0x06, 0x25, 0xc9, 0x0a, 0x00, 0x00, 0x01,
    0x0a, 0x00, 0x01, 0x02,
    0x9c, 0x40, 0x00, 0x50, 0x00, 0x00, 0x00, 0x01, 0x00, 0x00, 0x00, 0x00, 0x50, 0x18, 0xff, 0xff,
    0x00, 0x00, 0x00, 0x00, 0x70, 0x69, 0x6e, 0x67]

/-- A UDP datagram from 10.0.0.1 port 40000 to 10.0.1.2 port 53. -/
def udpPing : Bytes :=
  [0x02, 0x00, 0x00, 0x00, 0x00, 0x02, 0x02, 0x00, 0x00, 0x00, 0x00, 0x01, 0x08, 0x00,
    0x45, 0x00, 0x00, 0x20, 0x00, 0x01, 0x40, 0x00, 0x40, 0x11, 0x25, 0xca, 0x0a, 0x00, 0x00, 0x01,
    0x0a, 0x00, 0x01, 0x02,
    0x9c, 0x40, 0x00, 0x35, 0x00, 0x0c, 0x00, 0x00, 0x70, 0x69, 0x6e, 0x67]

/-- A bare TCP acknowledgement, padded to the 60 bytes of the shortest Ethernet frame. -/
def paddedAck : Bytes :=
  [0x02, 0x00, 0x00, 0x00, 0x00, 0x02, 0x02, 0x00, 0x00, 0x00, 0x00, 0x01, 0x08, 0x00,
    0x45, 0x00, 0x00, 0x28, 0x00, 0x01, 0x40, 0x00, 0x40, 0x06, 0x25, 0xcd, 0x0a, 0x00, 0x00, 0x01,
    0x0a, 0x00, 0x01, 0x02,
    0x9c, 0x40, 0x00, 0x50, 0x00, 0x00, 0x00, 0x01, 0x00, 0x00, 0x00, 0x01, 0x50, 0x10, 0xff, 0xff,
    0xfe, 0x3f, 0x00, 0x00,
    0x00, 0x00, 0x00, 0x00, 0x00, 0x00]

end ne_ip.sample
