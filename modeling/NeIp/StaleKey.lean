-- A receiver whose AES runs under another key than the sender's, as one does whose context
-- was keyed under another size while its key stayed in the cache. In GCM mode it refuses what
-- comes, whole packets and fragments.
import NeIp.KeyLoop

open byte_buf ne_ip.packet_crypto ne_ip.tunnel ne_ip.crypto_layer2 ne_ip.crypto_layer3
open ne_ip.crypto_layer4 ne_ip.key_loop

namespace ne_ip.stale_key

/-! ## The loop -/

section

variable {o : Openssl} {fake : Nat} {tls : Tls} {ctx : PacketCryptoCtx} {packet : Buf} {n : Nat}

/-- A context whose AES runs under another key than a tag was made under. It has one key, as
`packet_crypto_init` leaves it, and GCM refuses the tag, on the ciphertext and, when there is no
backup, on what a failed turn leaves of it. -/
structure WrongKey (o : Openssl) (tls : Tls) (ctx : PacketCryptoCtx) (nonce cipher tag : Bytes) :
    Prop where
  one_key : ∀ slot, packet_crypto_get_key ctx slot = ctx.key_current
  refused : o.gcm_tag (dec_key tls ctx.key_current) nonce cipher ≠ tag
  refused_again : BACKUP_SIZE < cipher.length → o.gcm_tag (dec_key tls ctx.key_current) nonce
    (o.gcm (dec_key tls ctx.key_current) nonce cipher) ≠ tag

/-- Under such a key the loop fails. -/
theorem WrongKey.attempt_failed (ho : o.Lawful) (hm : tls.crypto_mode = .gcm)
    (he : tls.evp_ok = true) {verify : Bytes → Bool} {nonce : Bytes}
    {pkt : Buf} {enc_off len : Nat} (hl : 0 < len)
    (h : WrongKey o tls ctx nonce (read pkt enc_off len) (read pkt (enc_off + len) 16)) :
    (attempt o tls ctx nonce verify key_order pkt enc_off (len + 16)).1 = false := by
  have htag : tag_overhead tls = 16 := if_pos hm
  have hk : ∀ slot, key_of tls ctx slot = ctx.key_current.take (get_key_size tls.aes_bits) :=
    fun slot => congrArg (List.take (get_key_size tls.aes_bits)) (h.one_key slot)
  have hr : ((dec_side tls ctx.key_current).set_up
      (ctx.key_current.take (get_key_size tls.aes_bits)) tls.nonce_size).evp_key =
      dec_key tls ctx.key_current := (run_key_gcm hm _ _).symm
  unfold attempt
  rw [htag, if_neg (by omega), Nat.add_sub_cancel]
  dsimp only
  rw [try_keys_gcm ho hm he hk hr _ hl, if_neg h.refused,
    if_neg fun hc => h.refused_again (by rw [length_read]; exact hc.1) hc.2]

/-- OpenSSL refuses a packet at this receiver: the tag at its end is none of its ciphertext under
the key that the context runs under. -/
def Refuses (f : Opener) (o : Openssl) (fake : Nat) (tls : Tls) (ctx : PacketCryptoCtx)
    (packet : Buf) (pkt_len : Nat) : Prop :=
  ∀ s, f.start fake tls ctx packet pkt_len = some s →
    WrongKey o tls ctx (read packet s.nonce_off tls.nonce_size)
      (read packet s.enc_off (pkt_len - s.enc_off - 16)) (read packet (pkt_len - 16) 16)

/-- A function that tries all keys then fails, unless there is no ciphertext. -/
theorem Refuses.decrypt_eq_none {f : Opener} (h : Refuses f o fake tls ctx packet n)
    (hslots : f.slots = key_order) (ho : o.Lawful) (hm : tls.crypto_mode = .gcm)
    (he : tls.evp_ok = true) {s : Start} (hstart : f.start fake tls ctx packet n = some s)
    (hlen : s.enc_off + 16 < n) : (f.decrypt o fake tls ctx packet n).1 = none := by
  have hw := h s hstart
  refine (Opener.follows hstart).none_iff.mpr ?_
  unfold Opener.tries
  obtain ⟨len, hl⟩ : ∃ len, n - s.enc_off = len + 16 := ⟨n - s.enc_off - 16, by omega⟩
  rw [hl, Nat.add_sub_cancel, show n - 16 = s.enc_off + len by omega] at hw
  rw [hslots, hl]
  refine WrongKey.attempt_failed ho hm he (by omega) ?_
  rw [Opener.read_marked hstart (Nat.le_refl _), Opener.read_marked hstart (Nat.le_add_right _ _)]
  exact hw

end

/-! ## The packets -/

section

variable {o : Openssl} {fake : Nat} {tls tls' : Tls} {ctx ctx' : PacketCryptoCtx} {counter : Nat}
  {packet out : Buf} {enc_plain : Bytes} {pkt_id : Nat} {frag_index : UInt8} {n ihl : Nat}

theorem layer3_refuses (ho : o.Lawful) {pkt_len : Nat}
    (hf : L3Frame o tls ctx counter packet pkt_len ihl out)
    (h4 : pkt_is_ipv4 packet pkt_len = true)
    (hihl : ipv4_hdr_len_at packet pkt_len ETH_HEADER_SIZE = some ihl)
    (hs : SameSettings tls tls' ctx') (hm : tls.crypto_mode = .gcm)
    (hp : packet IPV4_PROTO_OFF ≠ CRYPTO_L3_FRAG_MAGIC) (hd : ETH_HEADER_SIZE + ihl < pkt_len)
    (hw : Refuses .layer3 o 0 tls' ctx' out
      (pkt_len + (packet_crypto_get_tunnel_hdr_size tls + tag_overhead tls))) :
    (crypto_layer3_decrypt o tls' ctx' out
      (pkt_len + (packet_crypto_get_tunnel_hdr_size tls + tag_overhead tls))).1 = none := by
  have htag : tag_overhead tls = 16 := if_pos hm
  have hh : packet_crypto_get_tunnel_hdr_size tls = tls.nonce_size + 2 := rfl
  have hh' : packet_crypto_get_tunnel_hdr_size tls' = tls.nonce_size + 2 := by
    rw [← hs.nonce_size]
    rfl
  obtain ⟨hip, hihl', hnf⟩ := hf.parse h4 hihl (Nat.le_add_right pkt_len
    (packet_crypto_get_tunnel_hdr_size tls + tag_overhead tls)) hp
  rw [← hs.nonce_size] at hnf
  have hlen : ETH_HEADER_SIZE + ihl + packet_crypto_get_tunnel_hdr_size tls' + 0 ≤
      pkt_len + (packet_crypto_get_tunnel_hdr_size tls + tag_overhead tls) := by omega
  have hstart : Opener.layer3.start 0 tls' ctx' out _ = some _ :=
    start3_eq hs.initialized hip hihl' hlen hnf (by rw [hf.marker, hs.fake_protocol])
  exact hw.decrypt_eq_none rfl ho (hs.aes.mode.trans hm) hs.evp_ok hstart (by dsimp only; omega)

theorem layer4_refuses (ho : o.Lawful) {pkt_len l3_off : Nat}
    (hf : L4Frame o tls ctx counter packet pkt_len l3_off out) (hp : L4Plain packet pkt_len l3_off)
    (hs : SameAes tls tls') (hns : tls'.nonce_size = tls.nonce_size) (h4 : 4 ≤ tls.nonce_size)
    (he : tls'.evp_ok = true) (hi : ctx'.initialized = true) (hm : tls.crypto_mode = .gcm)
    (hw : Refuses .layer4 o 0 tls' ctx' out
      (pkt_len + (packet_crypto_get_tunnel_hdr_size tls + tag_overhead tls))) :
    (crypto_layer4_decrypt o tls' ctx' out
      (pkt_len + (packet_crypto_get_tunnel_hdr_size tls + tag_overhead tls))).1 = none := by
  have htag : tag_overhead tls = 16 := if_pos hm
  have hh : packet_crypto_get_tunnel_hdr_size tls = tls.nonce_size + 2 := rfl
  have hh' : packet_crypto_get_tunnel_hdr_size tls' = tls.nonce_size + 2 := by rw [← hns]; rfl
  have hpo : plain_off_at packet l3_off =
    l3_off + ip_hdr_len_at packet l3_off + L4_WIRE_PORT_LEN := rfl
  have hL : L4_WIRE_PORT_LEN = 4 := rfl
  have h20 := hp.ihl
  have hfits := hp.fits
  obtain ⟨hoff, hihl, hpr⟩ := hf.parse (n := pkt_len + (packet_crypto_get_tunnel_hdr_size tls +
    tag_overhead tls)) hp (by omega)
  have hhdr : l4_is_tunnel_header out (plain_off_at packet l3_off) tls'.nonce_size = true := by
    unfold l4_is_tunnel_header
    rw [hns, hf.tunnelled.type_byte, decide_eq_true (hf.tunnelled.first_lt h4)]
    rfl
  have hstart : Opener.layer4.start 0 tls' ctx' out _ = some _ :=
    start4_eq hi hoff (by omega) (by rw [hpr]; exact hp.proto) (by omega)
      (by rw [hihl]; omega) (by rw [hihl, ← hpo]; exact hhdr)
  exact hw.decrypt_eq_none rfl ho (hs.mode.trans hm) he hstart (by dsimp only; omega)

theorem layer2_fragment_refuses (ho : o.Lawful)
    (hf : L2Fragment o fake tls ctx counter packet enc_plain pkt_id frag_index out n)
    (hs : SameAes tls tls') (hns : tls'.nonce_size = tls.nonce_size) (he : tls'.evp_ok = true)
    (hi : ctx'.initialized = true) (hm : tls.crypto_mode = .gcm) (hd : 0 < enc_plain.length)
    (hw : Refuses .layer2_fragment o fake tls' ctx' out n) :
    (crypto_layer2_decrypt_fragment o fake tls' ctx' out n).1 = none := by
  have htag : tag_overhead tls = 16 := if_pos hm
  have hlen := hf.len
  have hstart : Opener.layer2_fragment.start fake tls' ctx' out n =
      some ⟨ETH_HEADER_SIZE, ETH_HEADER_SIZE + tls.nonce_size + 5⟩ := by
    have hoff : l2_frag_enc_start_offset tls.nonce_size = ETH_HEADER_SIZE + tls.nonce_size + 5 := rfl
    unfold Opener.start
    dsimp only
    rw [hns, if_pos ⟨hi, by omega, hf.marked, hf.magic⟩, hoff]
    rfl
  have hnone := hw.decrypt_eq_none rfl ho (hs.mode.trans hm) he hstart (by dsimp only; omega)
  exact Option.map_eq_none_iff.mp hnone

theorem layer3_fragment_refuses (ho : o.Lawful)
    (hf : L3Fragment o tls ctx counter packet ihl enc_plain pkt_id frag_index out n)
    (h4 : be16 packet 12 = 0x0800) (hihl : (packet 14).toNat % 16 * 4 = ihl) (h20 : 20 ≤ ihl)
    (hs : SameSettings tls tls' ctx') (hm : tls.crypto_mode = .gcm) (hd : 0 < enc_plain.length)
    (hw : Refuses .layer3_fragment o fake tls' ctx' out n) :
    (crypto_layer3_decrypt_fragment o tls' ctx' out n).1 = none := by
  have htag : tag_overhead tls = 16 := if_pos hm
  have hF : FRAG_TAG_SIZE = 4 := rfl
  have hh' : packet_crypto_get_tunnel_hdr_size tls' = tls.nonce_size + 2 := by
    rw [← hs.nonce_size]
    rfl
  have hlen := hf.tagged.len
  obtain ⟨hip, hihl', hfrag⟩ := hf.parse h4 hihl h20
  rw [← hs.nonce_size] at hfrag
  have hstart : Opener.layer3_fragment.start fake tls' ctx' out n = some _ :=
    start3_eq hs.initialized hip hihl' (by omega) hfrag (by rw [hf.marker, hs.fake_protocol])
  have hnone := hw.decrypt_eq_none rfl ho (hs.aes.mode.trans hm) hs.evp_ok hstart
    (by dsimp only; omega)
  exact Option.map_eq_none_iff.mp hnone

theorem layer4_fragment_refuses (ho : o.Lawful)
    (hf : L4Fragment o tls ctx counter packet ihl enc_plain pkt_id frag_index out n)
    (h4 : be16 packet 12 = 0x0800) (hproto : packet (14 + 9) = 6 ∨ packet (14 + 9) = 17)
    (hihl : (packet 14).toNat % 16 * 4 = ihl) (h20 : 20 ≤ ihl) (hs : SameAes tls tls')
    (hns : tls'.nonce_size = tls.nonce_size) (he : tls'.evp_ok = true)
    (hi : ctx'.initialized = true) (hm : tls.crypto_mode = .gcm) (hd : 0 < enc_plain.length)
    (hw : Refuses .layer4_fragment o fake tls' ctx' out n) :
    (crypto_layer4_decrypt_fragment o tls' ctx' out n).1 = none := by
  have htag : tag_overhead tls = 16 := if_pos hm
  have hF : FRAG_TAG_SIZE = 4 := rfl
  have hL : L4_WIRE_PORT_LEN = 4 := rfl
  have hh' : packet_crypto_get_tunnel_hdr_size tls' = tls.nonce_size + 2 := by rw [← hns]; rfl
  have hlen := hf.tagged.len
  obtain ⟨hoff, hihl', hpr⟩ := hf.parse h4 hihl h20
  have hmagic : Opener.l4_is_frag_tunnel out (14 + ihl + L4_WIRE_PORT_LEN) tls'.nonce_size = true := by
    unfold Opener.l4_is_frag_tunnel
    rw [hns, hf.tagged.tunnelled.type_byte]
    rfl
  have hstart : Opener.layer4_fragment.start fake tls' ctx' out n = some _ :=
    start4_eq hi hoff (by omega) (by rw [hpr]; exact hproto) (by omega) (by rw [hihl']; omega)
      (by rw [hihl']; exact hmagic)
  have hnone := hw.decrypt_eq_none rfl ho (hs.mode.trans hm) he hstart (by dsimp only; omega)
  exact Option.map_eq_none_iff.mp hnone

end

end ne_ip.stale_key
