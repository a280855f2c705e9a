-- What a failed decryption leaves of the packet. The loop over the keys works in place and
-- puts its backup back before a turn, never after the last one.
import NeIp.KeyLoop
import NeIp.L3RoundTrip

open byte_buf ne_ip.packet_crypto ne_ip.key_loop ne_ip.sample

namespace ne_ip.failed_decrypt

open crypto_layer3 (IPV4_PROTO_OFF)
open l3_round_trip (gcmTls gcmCtx)

/-! ## The packets that come back -/

/-- A loop that fails changes nothing, and what the function wrote before it is what stood
there. -/
structure Spares (f : Opener) (o : Openssl) (tls : Tls) (ctx : PacketCryptoCtx) (packet : Buf)
    (pkt_len : Nat) (s : Start) : Prop where
  marker : f = .layer3 → packet (s.enc_off - 1) = tls.fake_protocol
  loop : pkt_len - s.enc_off < tag_overhead tls ∨ tls.evp_ok = false ∨
    left_over o tls ctx (read packet s.nonce_off tls.nonce_size) (dec_side tls ctx.key_current)
      f.slots (read packet s.enc_off (pkt_len - s.enc_off - tag_overhead tls)) =
        read packet s.enc_off (pkt_len - s.enc_off - tag_overhead tls)

/-- A packet that no turn changes, or that is not taken to be encrypted. -/
def Spared (f : Opener) (o : Openssl) (fake : Nat) (tls : Tls) (ctx : PacketCryptoCtx)
    (packet : Buf) (pkt_len : Nat) : Prop :=
  ∀ s, f.start fake tls ctx packet pkt_len = some s → Spares f o tls ctx packet pkt_len s

section

variable {f : Opener} {o : Openssl} {fake : Nat} {tls : Tls} {ctx : PacketCryptoCtx} {packet : Buf}
  {pkt_len : Nat} {s : Start}

/-- A failing loop does not write before the ciphertext. -/
theorem attempt_before (ho : o.Lawful) {nonce : Bytes} {verify : Bytes → Bool}
    {slots : List KeySlot} {pkt : Buf} {enc_off total_after : Nat}
    (h : (attempt o tls ctx nonce verify slots pkt enc_off total_after).1 = false) {i : Nat}
    (hi : i < enc_off) :
    (attempt o tls ctx nonce verify slots pkt enc_off total_after).2 i = pkt i := by
  unfold attempt at h ⊢
  by_cases hs : total_after < tag_overhead tls
  · rw [if_pos hs]
  rw [if_neg hs] at h ⊢
  dsimp only at h ⊢
  cases he : tls.evp_ok with
  | false => rw [(try_keys_without_evp he _ _ _ _ _ _).1]
  | true => rw [try_keys_failed ho he h, write_out _ _ _ _ (Or.inl hi)]

/-- The fake protocol comes back when the byte that replaces it is the same. -/
theorem marked_eq_iff (h : f.start fake tls ctx packet pkt_len = some s) :
    f.marked packet s = packet ↔ (f = .layer3 → packet (s.enc_off - 1) = tls.fake_protocol) := by
  cases f with
  | layer3 =>
    obtain ⟨-, -, ihl, -, -, -, -, hmark⟩ := start3_some h
    show write packet IPV4_PROTO_OFF [packet (s.enc_off - 1)] = packet ↔ _
    rw [write_eq_self_iff packet IPV4_PROTO_OFF (n := 1) rfl, read_one, hmark]
    simp
  | _ => exact iff_of_true rfl nofun

/-- The marker is before the ciphertext. -/
theorem marked_of_before (h : f.start fake tls ctx packet pkt_len = some s) {b : Buf}
    (hb : ∀ i, i < s.enc_off → b i = f.marked packet s i) (heq : b = packet) :
    f.marked packet s = packet := by
  cases f with
  | layer3 =>
    obtain ⟨-, -, ihl, hihl, rfl, -⟩ := start3_some h
    have h20 := (crypto_layer3.ipv4_hdr_len_at_some hihl).2.1
    have h23 := hb IPV4_PROTO_OFF (by
      unfold crypto_layer3.IPV4_PROTO_OFF
      dsimp only
      omega)
    rw [heq] at h23
    funext i
    by_cases hi : i = IPV4_PROTO_OFF
    · rw [hi, h23]
    · exact write_out _ _ _ _ (by simp only [List.length_singleton]; omega)
  | _ => rfl

/-- The loop of a call that fails. -/
theorem tries_intact_iff (ho : o.Lawful) (h : f.start fake tls ctx packet pkt_len = some s)
    (hfail : (f.tries o tls ctx packet pkt_len s).1 = false) :
    (f.tries o tls ctx packet pkt_len s).2 = packet ↔ Spares f o tls ctx packet pkt_len s := by
  have hbefore : ∀ i, i < s.enc_off →
      (f.tries o tls ctx packet pkt_len s).2 i = f.marked packet s i := fun i hi =>
    attempt_before ho hfail hi
  have hiff := attempt_intact_iff ho hfail
  constructor
  · intro heq
    have hm := marked_of_before h hbefore heq
    refine ⟨(marked_eq_iff h).mp hm, ?_⟩
    rw [hm] at hiff
    unfold Opener.tries at heq
    rw [hm] at heq
    exact hiff.mp heq
  · rintro ⟨hmark, hloop⟩
    have hm := (marked_eq_iff h).mpr hmark
    rw [hm] at hiff
    unfold Opener.tries
    rw [hm]
    exact hiff.mpr hloop

end

/-- Whatever the packet, the keys, the mode and the nonce size: a decryption that fails leaves
the packet as it was exactly when no turn of its loop has changed it, and layer 3 has put no other
protocol into the header. -/
theorem a_failed_decryption_leaves_the_packet_alone_iff_it_is_spared {o : Openssl} (ho : o.Lawful)
    (f : Opener) (fake : Nat) (tls : Tls) (ctx : PacketCryptoCtx) (packet : Buf) (pkt_len : Nat)
    (h : (f.decrypt o fake tls ctx packet pkt_len).1 = none) :
    (f.decrypt o fake tls ctx packet pkt_len).2 = packet ↔
      Spared f o fake tls ctx packet pkt_len := by
  cases hs : f.start fake tls ctx packet pkt_len with
  | none =>
    refine iff_of_true (Opener.unstarted hs) fun s h' => ?_
    rw [hs] at h'
    simp at h'
  | some s =>
    have hfol := Opener.follows (o := o) hs
    have hfail := hfol.none_iff.mp h
    rw [hfol.pkt hfail, tries_intact_iff ho hs hfail]
    constructor
    · intro hsp s' h'
      rw [hs] at h'
      exact Option.some.inj h' ▸ hsp
    · exact fun hall => hall s hs

/-- A layer 4 frame with the headers of `tcpPing` and five bytes behind its tunnel header, less
than a tag. -/
def cutOff : Buf := ofBytes (tcpPing.take 38 ++ nonce0 ++ [0, 0xA5] ++ [1, 2, 3, 4, 5])

theorem a_packet_without_room_for_its_tag_is_left_alone :
    (Opener.layer4.decrypt sampleOpenssl 0 gcmTls gcmCtx cutOff 57).1 = none ∧
    (Opener.layer4.decrypt sampleOpenssl 0 gcmTls gcmCtx cutOff 57).2 = cutOff := by
  refine ⟨by decide +kernel, (a_failed_decryption_leaves_the_packet_alone_iff_it_is_spared
    sampleOpenssl_lawful .layer4 0 gcmTls gcmCtx cutOff 57 (by decide +kernel)).mpr fun s hs => ?_⟩
  have hstart : Opener.layer4.start 0 gcmTls gcmCtx cutOff 57 = some ⟨38, 52⟩ := by decide +kernel
  obtain rfl := Option.some.inj (hstart.symm.trans hs)
  exact ⟨nofun, Or.inl (by decide)⟩

/-- `tcpPing` as layer 4 sends it, with the last bit of its tag flipped. -/
def flipped : Buf :=
  write (crypto_layer4.crypto_layer4_encrypt sampleOpenssl gcmTls gcmCtx 0 (ofBytes tcpPing) 58).pkt 87
    [0x2d]

/-- It is refused, and what stands in it is the plaintext. -/
theorem a_refused_packet_is_left_decrypted :
    (Opener.layer4.decrypt sampleOpenssl 0 gcmTls gcmCtx flipped 88).1 = none ∧
    read (Opener.layer4.decrypt sampleOpenssl 0 gcmTls gcmCtx flipped 88).2 52 20 = tcpPing.drop 38 ∧
    (Opener.layer4.decrypt sampleOpenssl 0 gcmTls gcmCtx flipped 88).2 ≠ flipped := by
  have hread : read (Opener.layer4.decrypt sampleOpenssl 0 gcmTls gcmCtx flipped 88).2 52 20 =
      tcpPing.drop 38 := by decide +kernel
  refine ⟨by decide +kernel, hread, fun heq => ?_⟩
  rw [heq] at hread
  exact absurd hread (by decide +kernel)

end ne_ip.failed_decrypt
