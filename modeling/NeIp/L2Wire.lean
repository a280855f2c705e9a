-- The layer 2 wire (crypto_layer2.c, fragment.c): a whole packet and a fragment
-- share one header, and the first byte behind the nonce tells them apart.
import NeIp.Fragment
import NeIp.Sample

open byte_buf ne_ip.packet_crypto ne_ip.tunnel ne_ip.config ne_ip.crypto_layer2 ne_ip.fragment
open ne_ip.sample

namespace ne_ip.l2_wire

/-- An untagged IPv4 frame of TCP or UDP. -/
structure L2Plain (packet : Buf) (pkt_len : Nat) : Prop where
  len : 34 ≤ pkt_len
  eth : pkt_is_ipv4_eth packet = true
  version : (packet 14).toNat / 16 = 4
  ttl : packet 22 ≠ 0
  proto : packet 23 = 6 ∨ packet 23 = 17

/-- What stands behind the nonce of an encapsulated frame: the first byte that AES makes of
the IPv4 packet. -/
def first_cipher_byte (o : Openssl) (tls : Tls) (key nonce : Bytes) (packet : Buf)
    (pkt_len : Nat) : UInt8 :=
  (sealOf o tls key nonce (read packet ETH_HEADER_SIZE (pkt_len - ETH_HEADER_SIZE))).1.getD 0 0

/-- A receiver with the same parameters takes `out` for a whole packet and gets the frame back
byte for byte. -/
def RestoredBy (o : Openssl) (fake : Nat) (tls : Tls) (ctx : PacketCryptoCtx) (cfg : AppConfig)
    (out : Buf) (n : Nat) (packet : Buf) (pkt_len : Nat) : Prop :=
  frag_is_fragment_l2 fake cfg out n = none ∧
    (crypto_layer2_decrypt o fake tls ctx out n).1 = some pkt_len ∧
    ∀ i, i < pkt_len → (crypto_layer2_decrypt o fake tls ctx out n).2 i = packet i

/-- The L2 policies of a configuration have nonces of `ns` bytes. -/
def NonceSizeL2 (cfg : AppConfig) (ns : Nat) : Prop :=
  ∀ cp ∈ cfg.policies, cp.action = .encrypt_l2 → cp.nonce_size = ns

/-! ## The plaintext -/

theorem L2Plain.ethertype {packet : Buf} {pkt_len : Nat} (h : L2Plain packet pkt_len) :
    packet 12 = 0x08 ∧ packet 13 = 0x00 := by
  have heth := h.eth
  unfold pkt_is_ipv4_eth be16 at heth
  have h1 := (packet 12).toNat_lt
  have h2 := (packet 13).toNat_lt
  simp only [beq_iff_eq, Nat.reduceAdd] at heth
  rw [← UInt8.toNat_inj, ← UInt8.toNat_inj]
  have h3 : (0x08 : UInt8).toNat = 8 := rfl
  have h4 : (0x00 : UInt8).toNat = 0 := rfl
  omega

/-- A plaintext that starts with its version does not start with an ethertype. -/
theorem L2Plain.not_ethertype {packet : Buf} {pkt_len : Nat} (h : L2Plain packet pkt_len) :
    packet 14 ≠ 0x08 := by
  intro h8
  have hv := h.version
  rw [h8] at hv
  exact absurd hv (by decide)

/-- The check that a CTR plaintext must pass. -/
theorem L2Plain.verify {packet : Buf} {pkt_len : Nat} (h : L2Plain packet pkt_len) :
    verify_ipv4_after_decrypt (read packet ETH_HEADER_SIZE (pkt_len - ETH_HEADER_SIZE)) = true := by
  have hE : ETH_HEADER_SIZE = 14 := rfl
  have hlen := h.len
  have httl : (read packet ETH_HEADER_SIZE (pkt_len - ETH_HEADER_SIZE)).getD 8 0 = packet 22 :=
    getD_read _ _ _ _ (by omega)
  have hproto : (read packet ETH_HEADER_SIZE (pkt_len - ETH_HEADER_SIZE)).getD 9 0 = packet 23 :=
    getD_read _ _ _ _ (by omega)
  unfold verify_ipv4_after_decrypt
  rw [length_read, if_neg (by omega), httl, if_neg h.ttl, hproto]
  rcases h.proto with hp | hp
  · rw [hp]
    rfl
  · rw [hp]
    rfl

/-! ## The two answers of the receiver -/

/-- The first ciphertext byte in the frame. -/
theorem magic_byte {o : Openssl} {fake : Nat} {tls : Tls} {ctx : PacketCryptoCtx} {counter : Nat}
    {packet : Buf} {pkt_len : Nat} {out : Buf} (hl : ETH_HEADER_SIZE < pkt_len)
    (hf : L2Frame o fake tls ctx counter packet pkt_len out) :
    out (ETH_HEADER_SIZE + tls.nonce_size) =
      first_cipher_byte o tls ctx.key_current (next_nonce tls counter) packet pkt_len := by
  have hc := hf.sealed.cipher_at
  rw [length_read] at hc
  have hb := getD_read out (ETH_HEADER_SIZE + tls.nonce_size + 0) (pkt_len - ETH_HEADER_SIZE) 0
    (by omega)
  rw [hc] at hb
  exact hb.symm

theorem not_a_fragment_without_the_magic {fake : Nat} {cfg : AppConfig} {ns : Nat}
    (hcfg : NonceSizeL2 cfg ns) {out : Buf} (n : Nat)
    (hm : out (ETH_HEADER_SIZE + ns) ≠ L2_FRAG_MAGIC) :
    frag_is_fragment_l2 fake cfg out n = none := by
  unfold frag_is_fragment_l2
  split
  · rfl
  unfold fragment_of
  rw [List.find?_eq_none.mpr]
  intro cp hcp
  simp only [Bool.and_eq_true, beq_iff_eq]
  rintro ⟨⟨⟨hact, -⟩, -⟩, hmag⟩
  rw [hcfg cp hcp hact] at hmag
  exact hm hmag

/-- A frame with the magic comes back as it is, at the length it came in. -/
theorem decrypt_leaves_a_frame_with_the_magic (o : Openssl) {fake : Nat} {tls : Tls}
    {ctx : PacketCryptoCtx} (hi : ctx.initialized = true) {out : Buf} {n : Nat}
    (hn : ETH_HEADER_SIZE + tls.nonce_size + 1 ≤ n)
    (hm : out (ETH_HEADER_SIZE + tls.nonce_size) = L2_FRAG_MAGIC) :
    crypto_layer2_decrypt o fake tls ctx out n = (some n, out) := by
  unfold crypto_layer2_decrypt l2_enc_start_offset
  dsimp only
  rw [if_neg (by simp [hi]; omega)]
  by_cases hmark : l2_has_fake_marker fake out = true
  · rw [if_neg (by simp [hmark]), if_pos ⟨hn, hm⟩]
  · rw [if_pos (by simpa using hmark)]

/-- Without the magic the frame is opened and put back together. -/
theorem decrypt_restores_a_frame_without_the_magic {o : Openssl} (ho : o.Lawful) {fake : Nat}
    {tls tls' : Tls} {ctx ctx' : PacketCryptoCtx} {counter : Nat} {packet : Buf} {pkt_len : Nat}
    {out : Buf} (hp : L2Plain packet pkt_len) (hfake : fake ≠ 0)
    (hf : L2Frame o fake tls ctx counter packet pkt_len out)
    (haddrs : ∀ i, i < 12 → out i = packet i) (hs : SameAes tls tls')
    (hns : tls'.nonce_size = tls.nonce_size) (he : tls'.evp_ok = true)
    (hk : SameKey tls ctx tls' ctx') (hi : ctx'.initialized = true)
    (hm : out (ETH_HEADER_SIZE + tls.nonce_size) ≠ L2_FRAG_MAGIC) :
    (crypto_layer2_decrypt o fake tls' ctx' out (pkt_len + tls.nonce_size + tag_overhead tls)).1 =
      some pkt_len ∧
    ∀ i, i < pkt_len → (crypto_layer2_decrypt o fake tls' ctx' out
      (pkt_len + tls.nonce_size + tag_overhead tls)).2 i = packet i := by
  have hE : ETH_HEADER_SIZE = 14 := rfl
  have hlen := hp.len
  have hmark : l2_has_fake_marker fake out = true := by
    unfold l2_has_fake_marker
    rw [hf.marker]
    simp [hfake]
  have hdata : (read packet ETH_HEADER_SIZE (pkt_len - ETH_HEADER_SIZE)).length =
    pkt_len - ETH_HEADER_SIZE := length_read _ _ _
  have hopen := aes_decrypt_sealOf ho hs he hk hf.sealed.cipher_at hf.sealed.tag_at fun _ => hp.verify
  rw [Nat.add_zero, hdata] at hopen
  unfold crypto_layer2_decrypt l2_enc_start_offset packet_crypto_get_key
  dsimp only
  rw [hns, hs.tag_overhead, if_neg (by simp [hi]; omega), if_neg (by simp [hmark]),
    if_neg (fun h => hm h.2), if_neg (by omega),
    show pkt_len + tls.nonce_size + tag_overhead tls - (ETH_HEADER_SIZE + tls.nonce_size) -
      tag_overhead tls = pkt_len - ETH_HEADER_SIZE by omega, ← hE, hf.sealed.nonce_at]
  rw [hopen]
  dsimp only
  -- the first plaintext byte is the version, so the shorter copy is not taken
  have hfirst : write out (ETH_HEADER_SIZE + tls.nonce_size)
      (read packet ETH_HEADER_SIZE (pkt_len - ETH_HEADER_SIZE)) (ETH_HEADER_SIZE + tls.nonce_size) =
      packet 14 := by
    rw [write_read_in _ _ _ _ _ _ (le_refl _) (by omega), Nat.sub_self, hE]
  rw [hfirst, if_neg (fun h => hp.not_ethertype h.1),
    read_write_self _ _ _ _ hdata.symm]
  refine ⟨by rw [show ETH_HEADER_SIZE + (pkt_len - ETH_HEADER_SIZE) = pkt_len by omega], ?_⟩
  intro i hi'
  dsimp only
  by_cases h14 : ETH_HEADER_SIZE ≤ i
  · rw [write_read_in _ _ _ _ _ _ h14 (by omega)]
    congr 1
    omega
  rw [write_out _ _ _ _ (by omega)]
  by_cases h12 : i < 12
  · rw [write_out _ _ _ _ (by omega), write_out _ _ _ _ (by omega), haddrs i h12]
  obtain ⟨e12, e13⟩ := hp.ethertype
  have hi2 : i = 12 ∨ i = 12 + 1 := by omega
  rcases hi2 with rfl | rfl
  · rw [write_head, e12]
  · rw [write_second, e13]

/-! ## The round trip -/

theorem crypto_layer2_encrypt_addrs (o : Openssl) (ho : o.Lawful) (fake : Nat) (tls : Tls)
    (ctx : PacketCryptoCtx) (counter : Nat) (packet : Buf) (pkt_len i : Nat) (hi : i < 12) :
    (crypto_layer2_encrypt o fake tls ctx counter packet pkt_len).pkt i = packet i := by
  have hE : ETH_HEADER_SIZE = 14 := rfl
  have hoff : l2_enc_start_offset tls.nonce_size = 14 + tls.nonce_size := rfl
  unfold crypto_layer2_encrypt
  dsimp only
  split
  · rfl
  split
  · rfl
  split
  · rfl
  rename_i marker_byte _
  have hcounter : write_counter (write packet (l2_enc_start_offset tls.nonce_size)
      (read packet ETH_HEADER_SIZE (pkt_len - ETH_HEADER_SIZE))) (next_nonce tls counter)
      marker_byte tls.policy_id i = packet i := by
    unfold write_counter
    rw [write_out _ _ _ _ (by omega), write_out _ _ _ _ (by omega), write_out _ _ _ _ (by omega)]
  split
  · exact hcounter
  · rename_i pkt tag he
    obtain ⟨rfl, rfl⟩ := Prod.mk.inj (aes_encrypt_some ho he)
    dsimp only
    rw [write_out _ _ _ _ (by omega), write_out _ _ _ _ (by omega), hcounter]

/-- An encapsulated frame is restored exactly when AES does not make the magic of its first
byte. -/
theorem an_encapsulated_frame_is_restored_iff_its_ciphertext_does_not_start_with_the_magic
    {o : Openssl} (ho : o.Lawful) {fake : Nat} {tls tls' : Tls} (hs : SameAes tls tls')
    (h4 : 4 ≤ tls.nonce_size) (hns : tls'.nonce_size = tls.nonce_size) (he : tls'.evp_ok = true)
    {ctx ctx' : PacketCryptoCtx} (hk : SameKey tls ctx tls' ctx')
    (hi : ctx'.initialized = true) {cfg : AppConfig} (hcfg : NonceSizeL2 cfg tls.nonce_size)
    {counter : Nat} {packet : Buf} {pkt_len n : Nat} (hp : L2Plain packet pkt_len)
    (henc : (crypto_layer2_encrypt o fake tls ctx counter packet pkt_len).ret = some n)
    (hn : n ≠ pkt_len) :
    RestoredBy o fake tls' ctx' cfg (crypto_layer2_encrypt o fake tls ctx counter packet pkt_len).pkt
        n packet pkt_len ↔
      first_cipher_byte o tls ctx.key_current (next_nonce tls counter) packet pkt_len ≠
        L2_FRAG_MAGIC := by
  have hE : ETH_HEADER_SIZE = 14 := rfl
  have hlen := hp.len
  rcases crypto_layer2_encrypt_cases ho fake tls ctx counter packet pkt_len h4 with h | h | h
  · rw [h] at henc
    simp at henc
  · rw [h.1] at henc
    exact absurd (Option.some.inj henc).symm hn
  obtain ⟨-, hfake, hret, hf⟩ := h
  rw [hret] at henc
  obtain rfl := Option.some.inj henc
  have hmagic := magic_byte (by omega) hf
  have haddrs := crypto_layer2_encrypt_addrs o ho fake tls ctx counter packet pkt_len
  generalize (crypto_layer2_encrypt o fake tls ctx counter packet pkt_len).pkt = out at *
  rw [← hmagic]
  constructor
  · rintro ⟨-, hdec, -⟩ hm
    rw [decrypt_leaves_a_frame_with_the_magic o hi (by omega) (by rw [hns, hm])] at hdec
    exact hn (Option.some.inj hdec)
  · intro hm
    exact ⟨not_a_fragment_without_the_magic hcfg _ hm,
      decrypt_restores_a_frame_without_the_magic ho hp hfake hf haddrs hs hns he hk hi hm⟩

/-- AES-128-CTR with the real keystream of counter 88 under `masterKey`. -/
def ctr88Openssl : Openssl :=
  streamOpenssl
    (fun key iv i =>
      if key = masterDigest.toList.take 16 ∧
          iv = [0, 0, 0, 88, 0, 0, 0, 0, 0, 0, 0, 0, 0, 0, 0, 0] then
        [0x1e, 0x78, 0x21, 0x44, 0x79, 0xf2, 0x96, 0xd7, 0x83, 0xc0, 0xee, 0x8e, 0xe1, 0x6b, 0x9d, 0x3b,
      0x4b, 0x0c, 0x1f, 0x31, 0xe4, 0x28, 0x04, 0x2a, 0x2d, 0x36, 0x29, 0xa2, 0x35, 0x0d, 0xd8, 0xe8].getD i 0
      else 0)
    (fun _ _ _ => 0) (fun _ _ _ => Vector.replicate 16 0)
    (fun key _ =>
      if key = masterKey.toList.take 16 then masterDigest else Vector.replicate 32 0)

theorem ctr88Openssl_lawful : ctr88Openssl.Lawful := streamOpenssl_lawful _ _ _ _

/-- One layer 2 policy. -/
def l2Cfg : AppConfig := sampleCfg [samplePolicy 7 .encrypt_l2] (by decide)

theorem l2Cfg_nonce_size : NonceSizeL2 l2Cfg 12 := by
  unfold NonceSizeL2
  decide

theorem udpPing_plain : L2Plain (ofBytes udpPing) 46 where
  len := by decide
  eth := by decide
  version := by decide
  ttl := by decide
  proto := by decide

/-- The first packet of a thread without a salt. -/
theorem the_first_datagram_is_restored :
    (crypto_layer2_encrypt sampleOpenssl 0x88b5 {} (init_ctx sampleOpenssl 128 masterKey.toList) 0
      (ofBytes udpPing) 46).ret = some 58 ∧
    RestoredBy sampleOpenssl 0x88b5 {} (init_ctx sampleOpenssl 128 masterKey.toList) l2Cfg
      (crypto_layer2_encrypt sampleOpenssl 0x88b5 {} (init_ctx sampleOpenssl 128 masterKey.toList) 0
        (ofBytes udpPing) 46).pkt 58 (ofBytes udpPing) 46 := by
  have hret : (crypto_layer2_encrypt sampleOpenssl 0x88b5 {}
      (init_ctx sampleOpenssl 128 masterKey.toList) 0 (ofBytes udpPing) 46).ret = some 58 := by
    decide +kernel
  refine ⟨hret, ?_⟩
  exact (an_encapsulated_frame_is_restored_iff_its_ciphertext_does_not_start_with_the_magic
    sampleOpenssl_lawful ⟨rfl, rfl⟩ (by decide) rfl rfl (SameKey.of_same_sides rfl _) rfl
    l2Cfg_nonce_size udpPing_plain hret
    (by decide)).mpr (by decide +kernel)

/-- Its 89th packet starts with the magic behind the nonce, and the receiver gets the wire frame
back in place of the datagram. -/
theorem the_datagram_of_counter_88_is_not_restored :
    ctr88Openssl.Lawful ∧ L2Plain (ofBytes udpPing) 46 ∧ NonceSizeL2 l2Cfg 12 ∧
    ∃ r, r = crypto_layer2_encrypt ctr88Openssl 0x88b5 {}
        (init_ctx ctr88Openssl 128 masterKey.toList) 88 (ofBytes udpPing) 46 ∧
      r.ret = some 58 ∧
      (crypto_layer2_decrypt ctr88Openssl 0x88b5 {} (init_ctx ctr88Openssl 128 masterKey.toList)
        r.pkt 58).1 = some 58 ∧
      ¬ RestoredBy ctr88Openssl 0x88b5 {} (init_ctx ctr88Openssl 128 masterKey.toList) l2Cfg r.pkt
        58 (ofBytes udpPing) 46 := by
  refine ⟨ctr88Openssl_lawful, udpPing_plain, l2Cfg_nonce_size, _, rfl, by decide +kernel,
    by decide +kernel, ?_⟩
  rintro ⟨-, hdec, -⟩
  revert hdec
  decide +kernel

end ne_ip.l2_wire
