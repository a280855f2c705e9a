-- The transport checksum of a datagram that layer 3 has decrypted. The code sums up to
-- the end of the frame, or as far as a UDP header says; a receiver sums the datagram.
import NeIp.L3RoundTrip

open byte_buf ones_complement ne_ip.packet_crypto ne_ip.tunnel ne_ip.crypto_layer3
open ne_ip.crypto_layer4 ne_ip.checksums ne_ip.key_loop ne_ip.stale_key ne_ip.l3_round_trip
open ne_ip.sample

namespace ne_ip.transport_checksum

/-! ## What a receiver sums, and what the code sums -/

/-- Where the segment starts in the frame. -/
def seg_off (packet : Buf) : Nat := 14 + ip_hdr_len_at packet 14

/-- The length of the segment as the IPv4 header tells it. -/
def dgram_len (packet : Buf) : Nat := totlen packet - ip_hdr_len_at packet 14

def cksum_field (packet : Buf) : Nat := be16 packet (cksum_at (ip_hdr_len_at packet 14) (packet 23))

/-- A standard receiver accepts the checksum. In UDP zero says that there is none. -/
def ChecksumValid (packet : Buf) : Prop :=
  Accepted 65535 (pseudo_sum packet 14 (packet 23).toNat (dgram_len packet) +
    word_sum (read packet (seg_off packet) (dgram_len packet))) ∧
  (packet 23 = 17 → cksum_field packet ≠ 0)

instance (packet : Buf) : Decidable (ChecksumValid packet) := inferInstanceAs (Decidable (_ ∧ _))

/-- The length that the code sums. -/
def summed_len (packet : Buf) (pkt_len : Nat) : Nat :=
  let len := seg_len packet pkt_len
  if packet 23 = 6 then len
  else
    let udp_len := be16 packet (seg_off packet + 4)
    let udp_len := if udp_len < 8 then 8 else udp_len
    if udp_len > len % 65536 then len % 65536 else udp_len

/-- The bytes of a segment from `m` to `n` as words of the segment: behind an odd number of bytes
the first one is a low byte. -/
def excess (packet : Buf) (m n : Nat) : Bytes :=
  (if m % 2 = 1 then [0] else []) ++ read packet (seg_off packet + m) (n - m)

/-- Two lengths give the same sum: the bytes between them and their number add up to a multiple
of 65535. -/
def SumsAgree (packet : Buf) (m n : Nat) : Prop :=
  (max m n - min m n) + word_sum (excess packet (min m n) (max m n)) ≡ 0 [MOD 65535]

instance (packet : Buf) (m n : Nat) : Decidable (SumsAgree packet m n) :=
  inferInstanceAs (Decidable (_ % _ = _ % _))

/-- The segment with its checksum taken for zero. -/
def zeroed (packet : Buf) : Buf :=
  write packet (cksum_at (ip_hdr_len_at packet 14) (packet 23)) [0, 0]

/-- The checksum is a word of the shortest header. -/
theorem cksum_off_facts (proto : UInt8) :
    6 ≤ transport_cksum_off proto ∧
    transport_cksum_off proto + 2 ≤ transport_hdr_min proto ∧
    transport_cksum_off proto % 2 = 0 := by
  unfold transport_cksum_off transport_hdr_min TCP_CKSUM_OFF UDP_CKSUM_OFF
  split <;> omega

section

variable {packet : Buf} {pkt_len : Nat}

theorem word_sum_excess {m n : Nat} (hm : transport_cksum_off (packet 23) + 2 ≤ m) (hmn : m ≤ n) :
    word_sum (read (zeroed packet) (seg_off packet) n) =
      word_sum (read (zeroed packet) (seg_off packet) m) + word_sum (excess packet m n) := by
  have hat : cksum_at (ip_hdr_len_at packet 14) (packet 23) =
    seg_off packet + transport_cksum_off (packet 23) := rfl
  have hrest : read (zeroed packet) (seg_off packet + m) (n - m) =
      read packet (seg_off packet + m) (n - m) :=
    read_write_apart _ _ _ _ _ (by simp only [List.length_cons, List.length_nil]; omega)
  have hsplit := read_add (zeroed packet) (seg_off packet) m (n - m)
  rw [Nat.add_sub_of_le hmn] at hsplit
  unfold excess
  rw [hsplit, ← hrest]
  split
  · exact word_sum_append_odd _ (by rw [length_read]; assumption)
  · exact word_sum_append _ (by rw [length_read]; omega)

/-- Lengths that agree are lengths for which the code gets the same sum. -/
theorem sumsAgree_iff {m n : Nat} (hm : transport_cksum_off (packet 23) + 2 ≤ m)
    (hn : transport_cksum_off (packet 23) + 2 ≤ n) :
    SumsAgree packet m n ↔
      m + word_sum (read (zeroed packet) (seg_off packet) m) ≡
        n + word_sum (read (zeroed packet) (seg_off packet) n) [MOD 65535] := by
  have hle : ∀ m n, transport_cksum_off (packet 23) + 2 ≤ m → m ≤ n →
      (n - m + word_sum (excess packet m n) ≡ 0 [MOD 65535] ↔
        m + word_sum (read (zeroed packet) (seg_off packet) m) ≡
          n + word_sum (read (zeroed packet) (seg_off packet) n) [MOD 65535]) := by
    intro m n hm hmn
    rw [word_sum_excess hm hmn]
    generalize word_sum (read (zeroed packet) (seg_off packet) m) = w
    generalize word_sum (excess packet m n) = e
    unfold Nat.ModEq
    omega
  unfold SumsAgree
  rcases Nat.le_total m n with h | h
  · rw [Nat.max_eq_right h, Nat.min_eq_left h]
    exact hle m n hm h
  · rw [Nat.max_eq_left h, Nat.min_eq_right h, hle n m hn h]
    exact ⟨Nat.ModEq.symm, Nat.ModEq.symm⟩

theorem summed_len_between (hproto : packet 23 = 6 ∨ packet 23 = 17)
    (hmin : transport_hdr_min (packet 23) ≤ seg_len packet pkt_len) (hmax : pkt_len < 65536) :
    transport_hdr_min (packet 23) ≤ summed_len packet pkt_len ∧
    summed_len packet pkt_len ≤ seg_len packet pkt_len := by
  have hlen : seg_len packet pkt_len ≤ pkt_len := Nat.sub_le _ _
  unfold summed_len transport_hdr_min at *
  dsimp only
  rcases hproto with h6 | h17
  · rw [if_pos h6] at hmin ⊢
    rw [if_pos h6]
    omega
  · have h6 : packet 23 ≠ 6 := by rw [h17]; decide
    rw [if_neg h6] at hmin ⊢
    rw [if_neg h6]
    split <;> split <;> omega

/-- The sum of a segment of a frame does not wrap around. -/
theorem pseudo_sum_add_lt (packet : Buf) (proto : UInt8) {n : Nat} (hn : n < 65536) (b : Buf)
    (off : Nat) : pseudo_sum packet 14 proto.toNat n + word_sum (read b off n) < 2 ^ 32 := by
  have hw := word_sum_le (read b off n)
  have hp := proto.toNat_lt
  have hb := be16_lt packet
  have h1 := hb (14 + 12)
  have h2 := hb (14 + 14)
  have h3 := hb (14 + 16)
  have h4 := hb (14 + 18)
  rw [length_read] at hw
  unfold pseudo_sum
  omega

/-- The checksum that the code computes is the one of the summed bytes. -/
theorem transport_checksum_eq (h20 : 20 ≤ ip_hdr_len_at packet 14)
    (hproto : packet 23 = 6 ∨ packet 23 = 17)
    (hmin : transport_hdr_min (packet 23) ≤ seg_len packet pkt_len) (hmax : pkt_len < 65536) :
    transport_hdr_min (packet 23) ≤ summed_len packet pkt_len ∧
    summed_len packet pkt_len ≤ seg_len packet pkt_len ∧
    transport_checksum packet (ip_hdr_len_at packet 14) (packet 23) (seg_len packet pkt_len) =
      complement 65535 (pseudo_sum packet 14 (packet 23).toNat (summed_len packet pkt_len) +
        word_sum (read (zeroed packet) (seg_off packet) (summed_len packet pkt_len))) := by
  have hlen : seg_len packet pkt_len ≤ pkt_len := Nat.sub_le _ _
  have hE : seg_off packet = 14 + ip_hdr_len_at packet 14 := rfl
  have hat : cksum_at (ip_hdr_len_at packet 14) (packet 23) =
    seg_off packet + transport_cksum_off (packet 23) := rfl
  have hbetween := summed_len_between hproto hmin hmax
  have hpseudo : ∀ proto len, pseudo_sum (zeroed packet) 14 proto len =
      pseudo_sum packet 14 proto len := fun proto len =>
    pseudo_sum_congr (n := 34) proto len (fun i _ h2 => write_out _ _ _ _ (by omega)) (by omega)
  have hsum := pseudo_sum_add_lt packet (packet 23)
    (show summed_len packet pkt_len < 65536 by omega) (zeroed packet) (seg_off packet)
  refine ⟨hbetween.1, hbetween.2, ?_⟩
  rw [← fold_not_eq hsum]
  unfold transport_checksum
  dsimp only
  rw [show write packet (cksum_at (ip_hdr_len_at packet 14) (packet 23)) [0, 0] = zeroed packet
    from rfl]
  unfold transport_hdr_min at hmin
  rcases hproto with h6 | h17
  · have hs : summed_len packet pkt_len = seg_len packet pkt_len := if_pos h6
    rw [if_pos h6] at hmin
    have htwice : write (zeroed packet) (14 + ip_hdr_len_at packet 14 + 16) [0, 0] =
        zeroed packet := by
      have hck : cksum_at (ip_hdr_len_at packet 14) (packet 23) =
        14 + ip_hdr_len_at packet 14 + 16 := by rw [h6]; rfl
      unfold zeroed
      rw [hck, write_write _ _ _ _ (Nat.le_refl _)]
    unfold crypto_calc_tcp_checksum
    rw [if_pos h6, if_neg (by omega), htwice, hpseudo, hs, h6]
    rfl
  · have h6 : packet 23 ≠ 6 := by rw [h17]; decide
    rw [if_neg h6] at hmin
    have hck : transport_cksum_off (packet 23) = 6 := by rw [h17]; rfl
    have hfield : be16 (zeroed packet) (14 + ip_hdr_len_at packet 14 + 4) =
        be16 packet (seg_off packet + 4) := be16_write_apart _ _ _ _ (by omega)
    have hs : summed_len packet pkt_len =
        (if (if be16 packet (seg_off packet + 4) < 8 then 8 else be16 packet (seg_off packet + 4)) >
          seg_len packet pkt_len % 65536 then seg_len packet pkt_len % 65536
        else (if be16 packet (seg_off packet + 4) < 8 then 8
          else be16 packet (seg_off packet + 4))) := if_neg h6
    unfold crypto_calc_udp_checksum
    rw [if_neg h6, if_neg (by omega), hfield]
    dsimp only
    rw [← hs, hpseudo, h17]
    rfl

/-! ## What the receiver finds -/

/-- The frame is the packet's, but for the header checksum and the checksum that the code
computes. -/
theorem checksum_written {pkt' : Buf} (h20 : 20 ≤ ip_hdr_len_at packet 14)
    (hproto : packet 23 = 6 ∨ packet 23 = 17)
    (hmin : transport_hdr_min (packet 23) ≤ seg_len packet pkt_len)
    (hpkt : ∀ i, i < pkt_len → pkt' i =
      fix_transport_checksum (patch_ipv4 packet 14 (ip_hdr_len_at packet 14) (totlen packet))
        (ip_hdr_len_at packet 14) (packet 23) (seg_len packet pkt_len) i) :
    (∀ i, i < pkt_len → (i < 24 ∨ 26 ≤ i) →
      (i < cksum_at (ip_hdr_len_at packet 14) (packet 23) ∨
        cksum_at (ip_hdr_len_at packet 14) (packet 23) + 2 ≤ i) → pkt' i = packet i) ∧
    cksum_at (ip_hdr_len_at packet 14) (packet 23) + 2 ≤ pkt_len ∧
    be16 pkt' (cksum_at (ip_hdr_len_at packet 14) (packet 23)) =
      transport_checksum packet (ip_hdr_len_at packet 14) (packet 23) (seg_len packet pkt_len) %
        65536 := by
  have hsg : seg_len packet pkt_len = pkt_len - (14 + ip_hdr_len_at packet 14) := rfl
  obtain ⟨hoff, hoff', -⟩ := cksum_off_facts (packet 23)
  have hat : cksum_at (ip_hdr_len_at packet 14) (packet 23) =
    14 + ip_hdr_len_at packet 14 + transport_cksum_off (packet 23) := rfl
  -- the packet before the transport checksum is written
  generalize hq : patch_ipv4 packet 14 (ip_hdr_len_at packet 14) (totlen packet) = q at hpkt
  have hq' : ∀ i, i < 24 ∨ 26 ≤ i → q i = packet i := by
    intro i hi
    rw [← hq, patch_ipv4_totlen _ _ _ _ _ hi, show totlen packet = be16 packet 16 from rfl,
      be16Bytes_eq_read packet 16 _ (Nat.mod_eq_of_lt (be16_lt _ _))]
    exact congrFun (write_read packet 16 2) i
  have hcq : transport_checksum q (ip_hdr_len_at packet 14) (packet 23) (seg_len packet pkt_len) =
      transport_checksum packet (ip_hdr_len_at packet 14) (packet 23) (seg_len packet pkt_len) := by
    have hw : ∀ i, 14 + 12 ≤ i → i < pkt_len →
        write q (cksum_at (ip_hdr_len_at packet 14) (packet 23)) [0, 0] i =
          write packet (cksum_at (ip_hdr_len_at packet 14) (packet 23)) [0, 0] i := fun i hi _ =>
      write_congr_at fun _ => hq' i (by omega)
    unfold transport_checksum
    dsimp only
    rw [crypto_calc_tcp_checksum_congr _ hw (by omega) (by omega) (by omega),
      crypto_calc_udp_checksum_congr _ hw (by omega) (by omega) (by omega)]
  rw [fix_transport_checksum_eq _ _ _ hproto, if_pos hmin, hcq] at hpkt
  refine ⟨fun i hi h1 h2 => ?_, by omega, ?_⟩
  · rw [hpkt i hi, write_out _ _ _ _ (by rw [length_be16Bytes]; omega), hq' i h1]
  · rw [be16_congr (hpkt _ (by omega)) (hpkt _ (by omega)), be16_write_be16Bytes]

/-- A datagram with the checksum of the summed bytes is valid when these add up to the same as
the datagram's own, and in UDP when they do not add up to zero. -/
theorem valid_iff {pkt' : Buf} (h20 : 20 ≤ ip_hdr_len_at packet 14)
    (hproto : packet 23 = 6 ∨ packet 23 = 17)
    (hmin : transport_hdr_min (packet 23) ≤ dgram_len packet)
    (hfit : 14 + totlen packet ≤ pkt_len) (hmax : pkt_len < 65536)
    (hpkt : ∀ i, i < pkt_len → pkt' i =
      fix_transport_checksum (patch_ipv4 packet 14 (ip_hdr_len_at packet 14) (totlen packet))
        (ip_hdr_len_at packet 14) (packet 23) (seg_len packet pkt_len) i) :
    ChecksumValid pkt' ↔ SumsAgree packet (dgram_len packet) (summed_len packet pkt_len) ∧
      (packet 23 = 17 → transport_checksum packet (ip_hdr_len_at packet 14) (packet 23)
        (seg_len packet pkt_len) ≠ 0) := by
  have hdg : dgram_len packet = totlen packet - ip_hdr_len_at packet 14 := rfl
  have hsg : seg_len packet pkt_len = pkt_len - (14 + ip_hdr_len_at packet 14) := rfl
  have hso : seg_off packet = 14 + ip_hdr_len_at packet 14 := rfl
  have hat : cksum_at (ip_hdr_len_at packet 14) (packet 23) =
    seg_off packet + transport_cksum_off (packet 23) := rfl
  obtain ⟨hoff, hoff', heven⟩ := cksum_off_facts (packet 23)
  have hseg : transport_hdr_min (packet 23) ≤ seg_len packet pkt_len := by omega
  obtain ⟨hmin', hle, hck⟩ := transport_checksum_eq h20 hproto hseg hmax
  obtain ⟨hkeep, -, hfield⟩ := checksum_written h20 hproto (by omega) hpkt
  generalize transport_checksum packet (ip_hdr_len_at packet 14) (packet 23)
    (seg_len packet pkt_len) = c at hck hfield ⊢
  rw [Nat.mod_eq_of_lt (by rw [hck]; unfold complement; omega)] at hfield
  have hihl : ip_hdr_len_at pkt' 14 = ip_hdr_len_at packet 14 := by
    unfold ip_hdr_len_at
    rw [hkeep 14 (by omega) (by omega) (by omega)]
  have hpr : pkt' 23 = packet 23 := hkeep 23 (by omega) (by omega) (by omega)
  have htot : totlen pkt' = totlen packet :=
    be16_congr (hkeep 16 (by omega) (by omega) (by omega)) (hkeep 17 (by omega) (by omega) (by omega))
  have hpseudo : ∀ proto len, pseudo_sum pkt' 14 proto len = pseudo_sum packet 14 proto len :=
    fun proto len => pseudo_sum_congr (n := 34) proto len
      (fun i h1 h2 => hkeep i (by omega) (by omega) (by omega)) (by omega)
  have hread : read (write pkt' (seg_off packet + transport_cksum_off (packet 23)) [0, 0])
      (seg_off packet) (dgram_len packet) =
      read (zeroed packet) (seg_off packet) (dgram_len packet) := by
    refine read_congr fun i h1 h2 => write_congr_at fun hout => ?_
    exact hkeep i (by omega) (by omega) (by rw [hat]; simpa using hout)
  have hzero : word_sum (read pkt' (seg_off packet) (dgram_len packet)) =
      word_sum (read (write pkt' (seg_off packet + transport_cksum_off (packet 23)) [0, 0])
        (seg_off packet) (dgram_len packet)) +
      be16 pkt' (seg_off packet + transport_cksum_off (packet 23)) :=
    word_sum_zeroed pkt' heven (by omega)
  rw [hread, ← hat, hfield] at hzero
  have hlen : ∀ len, len < 65536 → pseudo_sum packet 14 (packet 23).toNat len =
      pseudo_sum packet 14 (packet 23).toNat 0 + len := by
    intro len hlt
    unfold pseudo_sum
    omega
  have hsummed : summed_len packet pkt_len < 65536 := by omega
  unfold ChecksumValid cksum_field
  rw [show seg_off pkt' = seg_off packet by unfold seg_off; rw [hihl],
    show dgram_len pkt' = dgram_len packet by unfold dgram_len; rw [hihl, htot],
    hpr, hihl, hfield, hpseudo, hzero, sumsAgree_iff (by omega) (by omega)]
  refine and_congr_left' ?_
  rw [← Nat.add_assoc, hck, hlen (dgram_len packet) (by omega), hlen _ hsummed,
    accepted_add_complement (by omega) (by omega), Nat.add_assoc, Nat.add_assoc]
  exact Nat.ModEq.add_iff_left rfl

end

/-! ## The law -/

/-- A datagram that is decrypted has a checksum that receivers accept exactly when what the code
sums adds up to the same as the datagram, and for UDP when the checksum is not zero. -/
theorem a_decrypted_datagram_has_a_valid_checksum_iff
    {o : Openssl} (ho : o.Lawful) {tls tls' : Tls} {ctx ctx' : PacketCryptoCtx}
    (hs : SameParameters tls ctx tls' ctx') (h4 : 4 ≤ tls.nonce_size) (h16 : tls.nonce_size ≤ 16)
    {counter : Nat} {packet : Buf} {pkt_len n : Nat}
    (henc : (crypto_layer3_encrypt o tls ctx counter packet pkt_len).ret = some n)
    (hn : n ≠ pkt_len) (hmax : pkt_len < 65536) (hproto : packet 23 = 6 ∨ packet 23 = 17)
    (hmin : transport_hdr_min (packet 23) ≤ dgram_len packet)
    (hfit : 14 + totlen packet ≤ pkt_len)
    (hports : tls.crypto_mode = .ctr → ¬ (be16 packet (seg_off packet) = 0 ∧
      be16 packet (seg_off packet + 2) = 0))
    (hwrong : ¬ SameKey tls ctx tls' ctx' → Refuses .layer3 o 0 tls' ctx'
      (crypto_layer3_encrypt o tls ctx counter packet pkt_len).pkt n)
    (hframe : (crypto_layer3_decrypt o tls' ctx'
      (crypto_layer3_encrypt o tls ctx counter packet pkt_len).pkt n).1 ≠ none) :
    (∃ pkt', crypto_layer3_decrypt o tls' ctx'
        (crypto_layer3_encrypt o tls ctx counter packet pkt_len).pkt n = (some pkt_len, pkt') ∧
      ChecksumValid pkt') ↔
    SumsAgree packet (dgram_len packet) (summed_len packet pkt_len) ∧
      (packet 23 = 17 → transport_checksum packet (ip_hdr_len_at packet 14) (packet 23)
        (seg_len packet pkt_len) ≠ 0) := by
  have hseg : 4 ≤ seg_len packet pkt_len := by
    unfold dgram_len transport_hdr_min at hmin
    unfold seg_len
    split at hmin <;> omega
  have hk : SameKey tls ctx tls' ctx' := by
    by_contra hk
    exact hframe (stale_key_refuses ho hs hk h4 henc hn hproto (by omega) (hwrong hk))
  obtain ⟨h20, -, pkt', hdec, hpkt⟩ := decrypt_encrypt ho hs.toSameSettings hk h4 h16 henc hn hproto
    fun hm => verify_decrypted_payload_read _ _ _ _ hseg (hports hm)
  rw [hdec, ← valid_iff h20 hproto hmin hfit hmax hpkt]
  constructor
  · rintro ⟨pkt'', heq, hvalid⟩
    rwa [(Prod.mk.inj heq).2]
  · intro hvalid
    exact ⟨pkt', rfl, hvalid⟩

theorem a_segment_without_padding_has_a_valid_checksum :
    (crypto_layer3_encrypt sampleOpenssl gcmTls gcmCtx 0 (ofBytes tcpPing) 58).ret = some 88 ∧
    ∃ pkt', crypto_layer3_decrypt sampleOpenssl gcmTls gcmCtx
        (crypto_layer3_encrypt sampleOpenssl gcmTls gcmCtx 0 (ofBytes tcpPing) 58).pkt 88 =
        (some 58, pkt') ∧ ChecksumValid pkt' := by
  have hret : (crypto_layer3_encrypt sampleOpenssl gcmTls gcmCtx 0 (ofBytes tcpPing) 58).ret =
      some 88 := by decide +kernel
  exact ⟨hret, (a_decrypted_datagram_has_a_valid_checksum_iff sampleOpenssl_lawful
    gcm_same_parameters (by decide) (by decide) hret (by decide) (by decide) (by decide) (by decide)
    (by decide) (by decide) (fun hk => absurd gcm_same_key hk) (by decide +kernel)).mpr
    ⟨by decide, by decide⟩⟩

/-- The code takes the padding for data of the segment, and the receiver does not. -/
theorem a_padded_acknowledgement_has_a_wrong_checksum :
    sampleOpenssl.Lawful ∧ SameParameters gcmTls gcmCtx gcmTls gcmCtx ∧
    HeaderAccepted (ofBytes paddedAck) 14 20 ∧ ip_hdr_len_at (ofBytes paddedAck) 14 = 20 ∧
    ofBytes paddedAck 23 = 6 ∧ be16 (ofBytes paddedAck) 20 % 16384 = 0 ∧
    14 + totlen (ofBytes paddedAck) = 54 ∧ ChecksumValid (ofBytes paddedAck) ∧
    (crypto_layer3_encrypt sampleOpenssl gcmTls gcmCtx 0 (ofBytes paddedAck) 60).ret = some 90 ∧
    (crypto_layer3_decrypt sampleOpenssl gcmTls gcmCtx
      (crypto_layer3_encrypt sampleOpenssl gcmTls gcmCtx 0 (ofBytes paddedAck) 60).pkt 90).1 =
      some 60 ∧
    ¬ ChecksumValid (crypto_layer3_decrypt sampleOpenssl gcmTls gcmCtx
      (crypto_layer3_encrypt sampleOpenssl gcmTls gcmCtx 0 (ofBytes paddedAck) 60).pkt 90).2 := by
  refine ⟨sampleOpenssl_lawful, gcm_same_parameters, ?_⟩
  decide +kernel

end ne_ip.transport_checksum
