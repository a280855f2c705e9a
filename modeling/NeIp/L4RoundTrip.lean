-- What a layer 4 receiver gives back of an encapsulated packet. Both ends take the
-- length of the datagram from the frame, whatever its header says.
import NeIp.L3RoundTrip

open byte_buf ne_ip.packet_crypto ne_ip.tunnel ne_ip.crypto_layer4 ne_ip.checksums ne_ip.sample
open ne_ip.key_loop ne_ip.stale_key ne_ip.l3_round_trip

namespace ne_ip.l4_round_trip

/-- The total length of the packet at `l3_off`. -/
def totlen_at (packet : Buf) (l3_off : Nat) : Nat := be16 packet (l3_off + 2)

/-- The frame of an encapsulated packet. -/
theorem frame_of_encrypt {o : Openssl} (ho : o.Lawful) {tls : Tls} {ctx : PacketCryptoCtx}
    (h4 : 4 ≤ tls.nonce_size) {counter : Nat} {packet : Buf} {pkt_len l3_off n : Nat}
    (hoff : crypto_eth_ipv4_offset packet pkt_len = some l3_off)
    (hhdr : l3_off + ip_hdr_len_at packet l3_off ≤ pkt_len)
    (henc : (crypto_layer4_encrypt o tls ctx counter packet pkt_len).ret = some n)
    (hn : n ≠ pkt_len) :
    n = pkt_len + (packet_crypto_get_tunnel_hdr_size tls + tag_overhead tls) ∧
    L4Plain packet pkt_len l3_off ∧ L4Frame o tls ctx counter packet pkt_len l3_off
      (crypto_layer4_encrypt o tls ctx counter packet pkt_len).pkt := by
  have hfit : ∀ off, crypto_eth_ipv4_offset packet pkt_len = some off →
      off + ip_hdr_len_at packet off ≤ pkt_len := by
    intro off h
    rw [hoff] at h
    rw [← Option.some.inj h]
    exact hhdr
  rcases crypto_layer4_encrypt_cases ho tls ctx counter packet pkt_len h4 hfit with h | h | h
  · rw [h] at henc
    simp at henc
  · rw [h.1] at henc
    exact absurd (Option.some.inj henc).symm hn
  obtain ⟨off, hp, -, hret, hf⟩ := h
  obtain rfl := Option.some.inj (hoff.symm.trans hp.offset)
  rw [hret] at henc
  exact ⟨(Option.some.inj henc).symm, hp, hf⟩

/-- An encapsulated packet, decrypted with the same settings under the same key: its header is the
old one with the length of the frame. -/
theorem decrypt_encrypt {o : Openssl} (ho : o.Lawful) {tls tls' : Tls} {ctx ctx' : PacketCryptoCtx}
    (hs : SameSettings tls tls' ctx') (hk : SameKey tls ctx tls' ctx') (h4 : 4 ≤ tls.nonce_size)
    {counter : Nat} {packet : Buf} {pkt_len l3_off n : Nat}
    (hoff : crypto_eth_ipv4_offset packet pkt_len = some l3_off)
    (hhdr : l3_off + ip_hdr_len_at packet l3_off ≤ pkt_len)
    (henc : (crypto_layer4_encrypt o tls ctx counter packet pkt_len).ret = some n)
    (hn : n ≠ pkt_len) :
    20 ≤ ip_hdr_len_at packet l3_off ∧
    ∃ pkt', crypto_layer4_decrypt o tls' ctx'
        (crypto_layer4_encrypt o tls ctx counter packet pkt_len).pkt n = (some pkt_len, pkt') ∧
      ∀ i, i < pkt_len → pkt' i =
        patch_ipv4 packet l3_off (ip_hdr_len_at packet l3_off) (pkt_len - l3_off) i := by
  obtain ⟨rfl, hp, hf⟩ := frame_of_encrypt ho h4 hoff hhdr henc hn
  exact ⟨hp.ihl, crypto_layer4_decrypt_frame ho tls' ctx' hf hp hs.aes hs.nonce_size h4 hs.evp_ok
    hk hs.initialized⟩

/-- What a receiver has to give back: the datagram, header and data. -/
def Restores (packet pkt' : Buf) (l3_off : Nat) : Prop :=
  ∀ i, l3_off ≤ i → i < l3_off + totlen_at packet l3_off → pkt' i = packet i

/-- A rewrite with some length gives a datagram back exactly when it is the datagram's own, and
its checksum is the one that is computed. -/
theorem rewritten_iff {packet pkt' : Buf} {l3_off n total : Nat}
    (h20 : 20 ≤ ip_hdr_len_at packet l3_off)
    (hok : HeaderAccepted packet l3_off (ip_hdr_len_at packet l3_off))
    (hmin : ip_hdr_len_at packet l3_off ≤ totlen_at packet l3_off)
    (hfit : l3_off + totlen_at packet l3_off ≤ n)
    (hpkt : ∀ i, i < n → pkt' i = patch_ipv4 packet l3_off (ip_hdr_len_at packet l3_off) total i) :
    Restores packet pkt' l3_off ↔
      total % 65536 = totlen_at packet l3_off ∧ be16 packet (l3_off + 10) ≠ 0xFFFF := by
  have hcanon := hok.canonical_iff rfl h20
  constructor
  · intro hr
    have hback : ∀ i, l3_off ≤ i → i < l3_off + 20 →
        patch_ipv4 packet l3_off (ip_hdr_len_at packet l3_off) total i = packet i := fun i h1 h2 =>
      (hpkt i (by omega)).symm.trans (hr i h1 (by omega))
    have htotal : total % 65536 = be16 packet (l3_off + 2) := by
      rw [← be16_totlen_patch_ipv4 packet l3_off (ip_hdr_len_at packet l3_off) total]
      exact be16_congr (hback _ (by omega) (by omega)) (hback _ (by omega) (by omega))
    have hcksum : be16 packet (l3_off + 10) =
        fold_not (header_sum packet l3_off (ip_hdr_len_at packet l3_off)) := by
      rw [← be16_cksum_patch_ipv4 htotal]
      exact (be16_congr (hback _ (by omega) (by omega)) (hback _ (by omega) (by omega))).symm
    exact ⟨htotal, hcanon.mp hcksum⟩
  · rintro ⟨htotal, hne⟩ i h1 h2
    rw [hpkt i (by omega), patch_ipv4_self htotal (hcanon.mpr hne)]

/-- A datagram comes back exactly when both ends run AES under one key, the frame ends with it,
and its checksum is the one that the code computes. -/
theorem a_datagram_comes_back_iff_no_padding_follows_it
    {o : Openssl} (ho : o.Lawful) {tls tls' : Tls} {ctx ctx' : PacketCryptoCtx}
    (hs : SameParameters tls ctx tls' ctx') (h4 : 4 ≤ tls.nonce_size) {counter : Nat}
    {packet : Buf} {pkt_len l3_off n : Nat}
    (hoff : crypto_eth_ipv4_offset packet pkt_len = some l3_off)
    (henc : (crypto_layer4_encrypt o tls ctx counter packet pkt_len).ret = some n)
    (hn : n ≠ pkt_len) (hok : HeaderAccepted packet l3_off (ip_hdr_len_at packet l3_off))
    (hmin : ip_hdr_len_at packet l3_off ≤ totlen_at packet l3_off)
    (hfit : l3_off + totlen_at packet l3_off ≤ pkt_len)
    (hwrong : ¬ SameKey tls ctx tls' ctx' → Refuses .layer4 o 0 tls' ctx'
      (crypto_layer4_encrypt o tls ctx counter packet pkt_len).pkt n) :
    (∃ pkt', crypto_layer4_decrypt o tls' ctx'
        (crypto_layer4_encrypt o tls ctx counter packet pkt_len).pkt n = (some pkt_len, pkt') ∧
      Restores packet pkt' l3_off) ↔
    SameKey tls ctx tls' ctx' ∧ (pkt_len - l3_off) % 65536 = totlen_at packet l3_off ∧
      be16 packet (l3_off + 10) ≠ 0xFFFF := by
  by_cases hk : SameKey tls ctx tls' ctx'
  swap
  · obtain ⟨rfl, hp, hf⟩ := frame_of_encrypt ho h4 hoff (by omega) henc hn
    have hnone := layer4_refuses ho hf hp hs.aes hs.nonce_size h4 hs.evp_ok hs.initialized
      (hs.gcm_of_not_sameKey hk) (hwrong hk)
    refine iff_of_false ?_ fun h => hk h.1
    rintro ⟨pkt', hdec, -⟩
    rw [hdec] at hnone
    simp at hnone
  rw [and_iff_right hk]
  obtain ⟨h20, pkt', hdec, hpkt⟩ := decrypt_encrypt ho hs.toSameSettings hk h4 hoff (by omega) henc hn
  rw [hdec, ← rewritten_iff h20 hok hmin hfit hpkt]
  constructor
  · rintro ⟨pkt'', heq, hr⟩
    rwa [(Prod.mk.inj heq).2]
  · intro hr
    exact ⟨pkt', rfl, hr⟩

theorem a_segment_without_padding_comes_back :
    (crypto_layer4_encrypt sampleOpenssl gcmTls gcmCtx 0 (ofBytes tcpPing) 58).ret = some 88 ∧
    ∃ pkt', crypto_layer4_decrypt sampleOpenssl gcmTls gcmCtx
        (crypto_layer4_encrypt sampleOpenssl gcmTls gcmCtx 0 (ofBytes tcpPing) 58).pkt 88 =
        (some 58, pkt') ∧ Restores (ofBytes tcpPing) pkt' 14 := by
  have hret : (crypto_layer4_encrypt sampleOpenssl gcmTls gcmCtx 0 (ofBytes tcpPing) 58).ret =
      some 88 := by decide +kernel
  exact ⟨hret, (a_datagram_comes_back_iff_no_padding_follows_it sampleOpenssl_lawful
    gcm_same_parameters (by decide) (by decide) hret (by decide) (by decide +kernel) (by decide)
    (by decide) fun hk => absurd gcm_same_key hk).mpr ⟨gcm_same_key, by decide, by decide⟩⟩

/-- The receiver gets a segment of 26 bytes, with the padding for six bytes of data. -/
theorem a_padded_acknowledgement_comes_back_longer :
    sampleOpenssl.Lawful ∧ SameParameters gcmTls gcmCtx gcmTls gcmCtx ∧
    SameKey gcmTls gcmCtx gcmTls gcmCtx ∧ crypto_eth_ipv4_offset (ofBytes paddedAck) 60 = some 14 ∧
    HeaderAccepted (ofBytes paddedAck) 14 20 ∧ ip_hdr_len_at (ofBytes paddedAck) 14 = 20 ∧
    ofBytes paddedAck 23 = 6 ∧ totlen_at (ofBytes paddedAck) 14 = 40 ∧
    (crypto_layer4_encrypt sampleOpenssl gcmTls gcmCtx 0 (ofBytes paddedAck) 60).ret = some 90 ∧
    (crypto_layer4_decrypt sampleOpenssl gcmTls gcmCtx
      (crypto_layer4_encrypt sampleOpenssl gcmTls gcmCtx 0 (ofBytes paddedAck) 60).pkt 90).1 =
      some 60 ∧
    totlen_at (crypto_layer4_decrypt sampleOpenssl gcmTls gcmCtx
      (crypto_layer4_encrypt sampleOpenssl gcmTls gcmCtx 0 (ofBytes paddedAck) 60).pkt 90).2 14 = 46 ∧
    ¬ ∃ pkt', crypto_layer4_decrypt sampleOpenssl gcmTls gcmCtx
        (crypto_layer4_encrypt sampleOpenssl gcmTls gcmCtx 0 (ofBytes paddedAck) 60).pkt 90 =
        (some 60, pkt') ∧ Restores (ofBytes paddedAck) pkt' 14 := by
  refine ⟨sampleOpenssl_lawful, gcm_same_parameters, gcm_same_key, by decide, by decide +kernel,
    by decide, by decide, by decide, by decide +kernel, by decide +kernel, by decide +kernel, ?_⟩
  rintro ⟨pkt', hdec, hr⟩
  have h17 := hr 17 (by decide) (by decide)
  rw [show pkt' = _ from (congrArg Prod.snd hdec).symm] at h17
  revert h17
  decide +kernel

end ne_ip.l4_round_trip
