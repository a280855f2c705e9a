-- What a layer 3 receiver gives back of an encapsulated packet. It writes a
-- transport checksum in every one, also where a fragment of a datagram has data.
import NeIp.Checksums
import NeIp.Sample
import NeIp.StaleKey

open byte_buf ne_ip.packet_crypto ne_ip.tunnel ne_ip.crypto_layer3 ne_ip.crypto_layer4
open ne_ip.checksums ne_ip.sample ne_ip.key_loop ne_ip.stale_key

namespace ne_ip.l3_round_trip

/-! ## The checksum that the receiver writes -/

/-- The length that a segment has to have for a checksum to be written. -/
def transport_hdr_min (proto : UInt8) : Nat := if proto = 6 then 20 else 8

/-- Where it is written in the frame. -/
def cksum_at (ihl : Nat) (proto : UInt8) : Nat := 14 + ihl + transport_cksum_off proto

/-- The checksum of the `seg_len` bytes behind the IPv4 header. -/
def transport_checksum (packet : Buf) (ihl : Nat) (proto : UInt8) (seg_len : Nat) : Nat :=
  let zeroed := write packet (cksum_at ihl proto) [0, 0]
  if proto = 6 then crypto_calc_tcp_checksum zeroed 14 ihl (14 + ihl) seg_len
  else crypto_calc_udp_checksum zeroed 14 ihl (14 + ihl) seg_len

theorem fix_transport_checksum_eq (packet : Buf) (ihl seg_len : Nat) {proto : UInt8}
    (hproto : proto = 6 ∨ proto = 17) :
    fix_transport_checksum packet ihl proto seg_len =
      if transport_hdr_min proto ≤ seg_len then
        write packet (cksum_at ihl proto) (be16Bytes (transport_checksum packet ihl proto seg_len))
      else packet := by
  have hwrite : ∀ off bs, bs.length = 2 → write (write packet off [0, 0]) off bs =
      write packet off bs := fun off bs hbs => write_write _ _ _ _ (by simp [hbs])
  unfold fix_transport_checksum transport_checksum transport_hdr_min cksum_at transport_cksum_off
  dsimp only
  rcases hproto with rfl | rfl
  · simp only [true_and, if_true, show ¬ ((6 : UInt8) = 17) by decide, false_and, if_false]
    split
    · exact hwrite _ _ rfl
    · rfl
  · simp only [true_and, show ¬ ((17 : UInt8) = 6) by decide, false_and, if_false]
    split
    · exact hwrite _ _ rfl
    · rfl

/-! ## The packet that the receiver gets -/

/-- The offset of a fragment in its datagram; a first fragment and a whole datagram have 0. -/
def frag_off (packet : Buf) : Nat := be16 packet 20 % 8192

def totlen (packet : Buf) : Nat := be16 packet 16

/-- The bytes behind the IPv4 header. -/
def seg_len (packet : Buf) (pkt_len : Nat) : Nat := pkt_len - (14 + ip_hdr_len_at packet 14)

/-- What a receiver has to give back: the payload, but for the checksum at the head of a
datagram, and three fields of the header. -/
structure Restores (packet pkt' : Buf) : Prop where
  payload : ∀ i, 14 + ip_hdr_len_at packet 14 ≤ i → i < 14 + totlen packet →
    (frag_off packet = 0 → i < cksum_at (ip_hdr_len_at packet 14) (packet 23) ∨
      cksum_at (ip_hdr_len_at packet 14) (packet 23) + 2 ≤ i) → pkt' i = packet i
  proto : pkt' 23 = packet 23
  totlen : be16 pkt' 16 = be16 packet 16
  cksum : be16 pkt' 24 = be16 packet 24

/-- The packet is too short for the checksum to be written, or what is written is what stands
there, as far as it belongs to the payload. -/
def ChecksumStands (packet : Buf) (pkt_len : Nat) : Prop :=
  seg_len packet pkt_len < transport_hdr_min (packet 23) ∨
  ∀ j, j < 2 → cksum_at (ip_hdr_len_at packet 14) (packet 23) + j < 14 + totlen packet →
    packet (cksum_at (ip_hdr_len_at packet 14) (packet 23) + j) =
      (be16Bytes (transport_checksum packet (ip_hdr_len_at packet 14) (packet 23)
        (seg_len packet pkt_len))).getD j 0

/-- The frame of an encapsulated packet. -/
theorem frame_of_encrypt {o : Openssl} (ho : o.Lawful) {tls : Tls} {ctx : PacketCryptoCtx}
    (h4 : 4 ≤ tls.nonce_size) {counter : Nat} {packet : Buf} {pkt_len n : Nat}
    (henc : (crypto_layer3_encrypt o tls ctx counter packet pkt_len).ret = some n)
    (hn : n ≠ pkt_len) :
    n = pkt_len + (packet_crypto_get_tunnel_hdr_size tls + tag_overhead tls) ∧
    pkt_is_ipv4 packet pkt_len = true ∧
    ipv4_hdr_len_at packet pkt_len ETH_HEADER_SIZE = some (ip_hdr_len_at packet 14) ∧
    20 ≤ ip_hdr_len_at packet 14 ∧ 14 + ip_hdr_len_at packet 14 ≤ pkt_len ∧
    L3Frame o tls ctx counter packet pkt_len (ip_hdr_len_at packet 14)
      (crypto_layer3_encrypt o tls ctx counter packet pkt_len).pkt := by
  rcases crypto_layer3_encrypt_cases ho tls ctx counter packet pkt_len h4 with h | h | h
  · rw [h] at henc
    simp at henc
  · rw [h.1] at henc
    exact absurd (Option.some.inj henc).symm hn
  obtain ⟨ihl, hv4, hihl, -, hret, hf⟩ := h
  rw [hret] at henc
  obtain ⟨rfl, h20, hle⟩ := ipv4_hdr_len_at_some hihl
  exact ⟨(Option.some.inj henc).symm, hv4, hihl, h20, hle, hf⟩

theorem proto_ne_magic {packet : Buf} (hproto : packet 23 = 6 ∨ packet 23 = 17) :
    packet IPV4_PROTO_OFF ≠ CRYPTO_L3_FRAG_MAGIC := by
  rcases hproto with h | h <;> rw [show packet IPV4_PROTO_OFF = _ from h] <;> decide

/-- GCM refuses an encapsulated packet under another key. -/
theorem stale_key_refuses {o : Openssl} (ho : o.Lawful) {tls tls' : Tls}
    {ctx ctx' : PacketCryptoCtx} (hs : SameParameters tls ctx tls' ctx')
    (hk : ¬ SameKey tls ctx tls' ctx') (h4 : 4 ≤ tls.nonce_size) {counter : Nat} {packet : Buf}
    {pkt_len n : Nat} (henc : (crypto_layer3_encrypt o tls ctx counter packet pkt_len).ret = some n)
    (hn : n ≠ pkt_len) (hproto : packet 23 = 6 ∨ packet 23 = 17) (hseg : 0 < seg_len packet pkt_len)
    (hw : Refuses .layer3 o 0 tls' ctx'
      (crypto_layer3_encrypt o tls ctx counter packet pkt_len).pkt n) :
    (crypto_layer3_decrypt o tls' ctx'
      (crypto_layer3_encrypt o tls ctx counter packet pkt_len).pkt n).1 = none := by
  obtain ⟨rfl, hv4, hihl, -, -, hf⟩ := frame_of_encrypt ho h4 henc hn
  have hdata : 14 + ip_hdr_len_at packet 14 < pkt_len := by
    unfold seg_len at hseg
    omega
  exact layer3_refuses ho hf hv4 hihl hs.toSameSettings (hs.gcm_of_not_sameKey hk)
    (proto_ne_magic hproto) hdata hw

/-- An encapsulated packet, decrypted with the same settings under the same key. -/
theorem decrypt_encrypt {o : Openssl} (ho : o.Lawful) {tls tls' : Tls} {ctx ctx' : PacketCryptoCtx}
    (hs : SameSettings tls tls' ctx') (hk : SameKey tls ctx tls' ctx') (h4 : 4 ≤ tls.nonce_size)
    (h16 : tls.nonce_size ≤ 16) {counter : Nat} {packet : Buf} {pkt_len n : Nat}
    (henc : (crypto_layer3_encrypt o tls ctx counter packet pkt_len).ret = some n)
    (hn : n ≠ pkt_len) (hproto : packet 23 = 6 ∨ packet 23 = 17)
    (hports : tls.crypto_mode = .ctr → verify_decrypted_payload (packet 23)
      (read packet (14 + ip_hdr_len_at packet 14) (seg_len packet pkt_len)) = true) :
    20 ≤ ip_hdr_len_at packet 14 ∧ 14 + ip_hdr_len_at packet 14 ≤ pkt_len ∧
    ∃ pkt', crypto_layer3_decrypt o tls' ctx'
        (crypto_layer3_encrypt o tls ctx counter packet pkt_len).pkt n = (some pkt_len, pkt') ∧
      ∀ i, i < pkt_len → pkt' i =
        fix_transport_checksum (patch_ipv4 packet 14 (ip_hdr_len_at packet 14) (totlen packet))
          (ip_hdr_len_at packet 14) (packet 23) (seg_len packet pkt_len) i := by
  obtain ⟨rfl, hv4, hihl, h20, hle, hf⟩ := frame_of_encrypt ho h4 henc hn
  exact ⟨h20, hle, crypto_layer3_decrypt_restores ho hf hv4 hihl hs hk h16 (proto_ne_magic hproto)
    hports⟩

/-- The two bytes of the transport checksum, and nothing else, are the receiver's own. -/
theorem fix_transport_checksum_at {packet : Buf} {ihl seg_len : Nat} {proto : UInt8}
    (hproto : proto = 6 ∨ proto = 17) (hlen : transport_hdr_min proto ≤ seg_len) {j : Nat}
    (hj : j < 2) :
    fix_transport_checksum packet ihl proto seg_len (cksum_at ihl proto + j) =
      (be16Bytes (transport_checksum packet ihl proto seg_len)).getD j 0 := by
  rw [fix_transport_checksum_eq _ _ _ hproto, if_pos hlen,
    write_in _ _ _ _ (by omega) (by rw [length_be16Bytes]; omega)]
  congr 1
  omega

/-- A packet whose headers are as the sender computes them comes back but for the checksum that
is written. -/
theorem restores_iff {packet pkt' : Buf} {pkt_len : Nat} (h20 : 20 ≤ ip_hdr_len_at packet 14)
    (hle : 14 + ip_hdr_len_at packet 14 ≤ pkt_len) (hfit : 14 + totlen packet ≤ pkt_len)
    (hproto : packet 23 = 6 ∨ packet 23 = 17)
    (hpkt : ∀ i, i < pkt_len → pkt' i = fix_transport_checksum packet (ip_hdr_len_at packet 14)
      (packet 23) (seg_len packet pkt_len) i) :
    Restores packet pkt' ↔ frag_off packet = 0 ∨ ChecksumStands packet pkt_len := by
  have hE : ETH_HEADER_SIZE = 14 := rfl
  have hoff : 6 ≤ transport_cksum_off (packet 23) := by
    unfold transport_cksum_off
    split <;> decide
  have hat : cksum_at (ip_hdr_len_at packet 14) (packet 23) =
    14 + ip_hdr_len_at packet 14 + transport_cksum_off (packet 23) := rfl
  have hkeep : ∀ i, i < pkt_len → (i < cksum_at (ip_hdr_len_at packet 14) (packet 23) ∨
      cksum_at (ip_hdr_len_at packet 14) (packet 23) + 2 ≤ i) → pkt' i = packet i := by
    intro i hi hout
    rw [hpkt i hi]
    exact fix_transport_checksum_out _ _ _ _ _ hout
  constructor
  · intro hr
    by_cases h0 : frag_off packet = 0
    · exact Or.inl h0
    refine Or.inr ?_
    by_cases hshort : seg_len packet pkt_len < transport_hdr_min (packet 23)
    · exact Or.inl hshort
    refine Or.inr fun j hj hin => ?_
    have hback := hr.payload _ (by omega) hin fun h => absurd h h0
    rw [hpkt _ (by omega), fix_transport_checksum_at hproto (by omega) hj] at hback
    exact hback.symm
  · intro hc
    refine ⟨fun i h1 h2 hfirst => ?_, hkeep 23 (by omega) (by omega),
      be16_congr (hkeep 16 (by omega) (by omega)) (hkeep 17 (by omega) (by omega)),
      be16_congr (hkeep 24 (by omega) (by omega)) (hkeep 25 (by omega) (by omega))⟩
    by_cases hout : i < cksum_at (ip_hdr_len_at packet 14) (packet 23) ∨
        cksum_at (ip_hdr_len_at packet 14) (packet 23) + 2 ≤ i
    · exact hkeep i (by omega) hout
    rcases hc with h0 | hshort | hstands
    · exact absurd (hfirst h0) hout
    · rw [hpkt i (by omega), fix_transport_checksum_eq _ _ _ hproto, if_neg (by omega)]
    · by_cases hshort : seg_len packet pkt_len < transport_hdr_min (packet 23)
      · rw [hpkt i (by omega), fix_transport_checksum_eq _ _ _ hproto, if_neg (by omega)]
      have hj := hstands (i - cksum_at (ip_hdr_len_at packet 14) (packet 23)) (by omega) (by omega)
      rw [← fix_transport_checksum_at hproto (by omega) (by omega), show
        cksum_at (ip_hdr_len_at packet 14) (packet 23) +
          (i - cksum_at (ip_hdr_len_at packet 14) (packet 23)) = i by omega] at hj
      rw [hpkt i (by omega), ← hj]

/-! ## The law -/

/-- A packet comes back exactly when both ends run AES under one key, its checksum is the one that
the code computes and no transport checksum is written over other data. -/
theorem a_packet_comes_back_iff_no_checksum_is_written_into_its_data
    {o : Openssl} (ho : o.Lawful) {tls tls' : Tls} {ctx ctx' : PacketCryptoCtx}
    (hs : SameParameters tls ctx tls' ctx') (h4 : 4 ≤ tls.nonce_size) (h16 : tls.nonce_size ≤ 16)
    {counter : Nat} {packet : Buf} {pkt_len n : Nat}
    (henc : (crypto_layer3_encrypt o tls ctx counter packet pkt_len).ret = some n)
    (hn : n ≠ pkt_len) (hproto : packet 23 = 6 ∨ packet 23 = 17)
    (hok : HeaderAccepted packet 14 (ip_hdr_len_at packet 14))
    (hlen : ip_hdr_len_at packet 14 + 4 ≤ totlen packet) (hfit : 14 + totlen packet ≤ pkt_len)
    (hports : ¬ (be16 packet (14 + ip_hdr_len_at packet 14) = 0 ∧
      be16 packet (14 + ip_hdr_len_at packet 14 + 2) = 0))
    (hwrong : ¬ SameKey tls ctx tls' ctx' → Refuses .layer3 o 0 tls' ctx'
      (crypto_layer3_encrypt o tls ctx counter packet pkt_len).pkt n) :
    (∃ pkt', crypto_layer3_decrypt o tls' ctx'
        (crypto_layer3_encrypt o tls ctx counter packet pkt_len).pkt n = (some pkt_len, pkt') ∧
      Restores packet pkt') ↔
    SameKey tls ctx tls' ctx' ∧ be16 packet 24 ≠ 0xFFFF ∧
      (frag_off packet = 0 ∨ ChecksumStands packet pkt_len) := by
  have hseg : 4 ≤ seg_len packet pkt_len := by
    unfold seg_len
    omega
  by_cases hk : SameKey tls ctx tls' ctx'
  swap
  · have hnone := stale_key_refuses ho hs hk h4 henc hn hproto (by omega) (hwrong hk)
    refine iff_of_false ?_ fun h => hk h.1
    rintro ⟨pkt', hdec, -⟩
    rw [hdec] at hnone
    simp at hnone
  rw [and_iff_right hk]
  obtain ⟨h20, hle, pkt', hdec, hpkt⟩ := decrypt_encrypt ho hs.toSameSettings hk h4 h16 henc hn hproto
    fun _ => verify_decrypted_payload_read _ _ _ _ hseg hports
  have hcanon := hok.canonical_iff rfl h20
  have htot : totlen packet % 65536 = be16 packet (14 + 2) := Nat.mod_eq_of_lt (be16_lt _ _)
  have hoff : 6 ≤ transport_cksum_off (packet 23) := by
    unfold transport_cksum_off
    split <;> decide
  rw [hdec]
  constructor
  · rintro ⟨pkt'', heq, hr⟩
    obtain rfl := (Prod.mk.inj heq).2
    have hcksum : be16 packet 24 = fold_not (header_sum packet 14 (ip_hdr_len_at packet 14)) := by
      have hE : ETH_HEADER_SIZE = 14 := rfl
      have hkeep : ∀ i, i < 34 → pkt' i =
          patch_ipv4 packet 14 (ip_hdr_len_at packet 14) (totlen packet) i := fun i hi =>
        (hpkt i (by omega)).trans (fix_transport_checksum_out _ _ _ _ _ (by omega))
      rw [← hr.cksum, ← be16_cksum_patch_ipv4 htot]
      exact be16_congr (hkeep 24 (by omega)) (hkeep 25 (by omega))
    have hc : HeaderCanonical packet 14 (ip_hdr_len_at packet 14) := hcksum
    rw [patch_ipv4_self htot hc] at hpkt
    exact ⟨hcanon.mp hc, (restores_iff h20 hle hfit hproto hpkt).mp hr⟩
  · rintro ⟨hne, hc⟩
    rw [patch_ipv4_self htot (hcanon.mpr hne)] at hpkt
    exact ⟨pkt', rfl, (restores_iff h20 hle hfit hproto hpkt).mpr hc⟩

/-- The thread of the concrete runs, and its context. -/
def gcmTls : Tls := { crypto_mode := .gcm }

def gcmCtx : PacketCryptoCtx := init_ctx sampleOpenssl 128 masterKey.toList

theorem gcm_same_parameters : SameParameters gcmTls gcmCtx gcmTls gcmCtx :=
  ⟨⟨⟨rfl, rfl⟩, rfl, rfl, rfl, rfl⟩, rfl⟩

theorem gcm_same_key : SameKey gcmTls gcmCtx gcmTls gcmCtx := SameKey.of_same_sides rfl gcmCtx

theorem a_whole_datagram_comes_back :
    (crypto_layer3_encrypt sampleOpenssl gcmTls gcmCtx 0 (ofBytes udpPing) 46).ret = some 76 ∧
    ∃ pkt', crypto_layer3_decrypt sampleOpenssl gcmTls gcmCtx
        (crypto_layer3_encrypt sampleOpenssl gcmTls gcmCtx 0 (ofBytes udpPing) 46).pkt 76 =
        (some 46, pkt') ∧ Restores (ofBytes udpPing) pkt' := by
  have hret : (crypto_layer3_encrypt sampleOpenssl gcmTls gcmCtx 0 (ofBytes udpPing) 46).ret =
      some 76 := by decide +kernel
  exact ⟨hret, (a_packet_comes_back_iff_no_checksum_is_written_into_its_data sampleOpenssl_lawful
    gcm_same_parameters (by decide) (by decide) hret (by decide) (by decide) (by decide +kernel)
    (by decide) (by decide) (by decide) fun hk => absurd gcm_same_key hk).mpr
    ⟨gcm_same_key, by decide, Or.inl (by decide)⟩⟩

/-- The last fragment of a UDP datagram, with 14 bytes of data from offset 1480 on. -/
def lateFragment : Bytes :=
  [0x02, 0x00, 0x00, 0x00, 0x00, 0x02, 0x02, 0x00, 0x00, 0x00, 0x00, 0x01, 0x08, 0x00,
    0x45, 0x00, 0x00, 0x22, 0x00, 0x01, 0x00, 0xb9, 0x40, 0x11, 0x65, 0x0f, 0x0a, 0x00, 0x00, 0x01,
    0x0a, 0x00, 0x01, 0x02,
    0x74, 0x68, 0x65, 0x20, 0x72, 0x65, 0x73, 0x74, 0x20, 0x6f, 0x66, 0x20, 0x69, 0x74]

/-- Its bytes 6 and 7 are data, and the receiver writes a checksum over them. -/
theorem a_later_fragment_does_not_come_back :
    sampleOpenssl.Lawful ∧ SameParameters gcmTls gcmCtx gcmTls gcmCtx ∧
    SameKey gcmTls gcmCtx gcmTls gcmCtx ∧
    HeaderAccepted (ofBytes lateFragment) 14 20 ∧ ip_hdr_len_at (ofBytes lateFragment) 14 = 20 ∧
    ofBytes lateFragment 23 = 17 ∧ 14 + totlen (ofBytes lateFragment) = 48 ∧
    frag_off (ofBytes lateFragment) = 185 ∧ be16 (ofBytes lateFragment) 34 ≠ 0 ∧
    (crypto_layer3_encrypt sampleOpenssl gcmTls gcmCtx 0 (ofBytes lateFragment) 48).ret = some 78 ∧
    ¬ ∃ pkt', crypto_layer3_decrypt sampleOpenssl gcmTls gcmCtx
        (crypto_layer3_encrypt sampleOpenssl gcmTls gcmCtx 0 (ofBytes lateFragment) 48).pkt 78 =
        (some 48, pkt') ∧ Restores (ofBytes lateFragment) pkt' := by
  refine ⟨sampleOpenssl_lawful, gcm_same_parameters, gcm_same_key, by decide +kernel, by decide,
    by decide, by decide, by decide, by decide, by decide +kernel, ?_⟩
  rintro ⟨pkt', hdec, hr⟩
  have h40 := hr.payload 40 (by decide) (by decide) (by decide)
  rw [show pkt' = _ from (congrArg Prod.snd hdec).symm] at h40
  revert h40
  decide +kernel

end ne_ip.l3_round_trip
