-- The lengths of the frames that leave under a policy that encrypts (fragment.h, fragment.c and
-- the encoders): what the split decision of a layer adds up is no less than what its encoder adds,
-- and half a packet leaves room for all that a fragment has besides.
import NeIp.CleartextLeak
import NeIp.SplitRoundTrip

open byte_buf ne_ip.packet_crypto ne_ip.tunnel ne_ip.config ne_ip.crypto_layer2
open ne_ip.crypto_layer3 ne_ip.crypto_layer4 ne_ip.fragment ne_ip.reassembly ne_ip.worker
open ne_ip.forwarder ne_ip.flow ne_ip.sample ne_ip.cleartext_leak ne_ip.split_round_trip

namespace ne_ip.link_mtu

/-- The longest frame of the link: its MTU behind an Ethernet header. -/
def LINK_FRAME_MAX : Nat := ETH_HEADER_SIZE + FRAG_MTU

section

variable {o : Openssl} {fake : Nat} {tls : Tls} {ctx : PacketCryptoCtx} {counter : Nat}

/-! ## A packet that is sent whole -/

theorem encrypt_tunnel_at_len {packet : Buf} {tunnel_off payload_len n : Nat} {type : UInt8}
    (h : (encrypt_tunnel_at o tls ctx counter packet tunnel_off payload_len type).ret = some n) :
    n = tunnel_off + packet_crypto_get_tunnel_hdr_size tls + payload_len + tag_overhead tls := by
  unfold encrypt_tunnel_at at h
  dsimp only at h
  split at h
  · simp at h
  · exact (Option.some.inj h).symm

theorem crypto_layer2_encrypt_len {packet : Buf} {pkt_len n : Nat}
    (h : (crypto_layer2_encrypt o fake tls ctx counter packet pkt_len).ret = some n) :
    n ≤ pkt_len + (packet_crypto_get_tunnel_hdr_size tls + tag_overhead tls) := by
  have hh : packet_crypto_get_tunnel_hdr_size tls = tls.nonce_size + 2 := rfl
  unfold crypto_layer2_encrypt at h
  split at h
  · simp at h
  split at h
  · have hn := Option.some.inj h
    omega
  split at h
  · have hn := Option.some.inj h
    omega
  dsimp only at h
  split at h
  · simp at h
  · have hn := Option.some.inj h
    omega

theorem crypto_layer3_encrypt_len {packet : Buf} {pkt_len n : Nat}
    (h : (crypto_layer3_encrypt o tls ctx counter packet pkt_len).ret = some n) :
    n ≤ pkt_len + (packet_crypto_get_tunnel_hdr_size tls + tag_overhead tls) := by
  unfold crypto_layer3_encrypt at h
  split at h
  · simp at h
  split at h
  · have hn := Option.some.inj h
    omega
  split at h
  · simp at h
  rename_i ihl hihl
  obtain ⟨-, -, hle⟩ := ipv4_hdr_len_at_some hihl
  dsimp only at h
  split at h
  · have hn := Option.some.inj h
    omega
  split at h
  · rename_i hnone
    rw [hnone] at h
    simp at h
  · rename_i len hlen
    have hn := Option.some.inj h
    have hret := encrypt_tunnel_at_len hlen
    omega

theorem crypto_layer4_encrypt_len {packet : Buf} {pkt_len n : Nat}
    (h : (crypto_layer4_encrypt o tls ctx counter packet pkt_len).ret = some n) :
    n ≤ pkt_len + (packet_crypto_get_tunnel_hdr_size tls + tag_overhead tls) := by
  unfold crypto_layer4_encrypt at h
  split at h
  · simp at h
  split at h
  · have hn := Option.some.inj h
    omega
  dsimp only at h
  split at h
  · simp at h
  split at h
  · have hn := Option.some.inj h
    omega
  split at h
  · simp at h
  split at h
  · have hn := Option.some.inj h
    omega
  split at h
  · have hn := Option.some.inj h
    omega
  split at h
  · rename_i hnone
    rw [hnone] at h
    simp at h
  · have hn := Option.some.inj h
    omega

/-- An encoder adds its nonce, two bytes at most, and the tag of GCM. -/
theorem encrypt_at_len {l : Layer} {packet : Buf} {pkt_len n : Nat}
    (h : (encrypt_at o fake l tls ctx counter packet pkt_len).ret = some n) :
    n ≤ pkt_len + (packet_crypto_get_tunnel_hdr_size tls + tag_overhead tls) := by
  cases l with
  | l2 => exact crypto_layer2_encrypt_len h
  | l3 => exact crypto_layer3_encrypt_len h
  | l4 => exact crypto_layer4_encrypt_len h

/-- The split decision reckons with as much, and a fragment tag. -/
theorem len_of_not_need_split {l : Layer} {pkt_len : Nat} (h : l.need_split tls pkt_len = false) :
    pkt_len + (packet_crypto_get_tunnel_hdr_size tls + tag_overhead tls) ≤ FRAG_MTU := by
  have hh : packet_crypto_get_tunnel_hdr_size tls = tls.nonce_size + 2 := rfl
  have hF : FRAG_TAG_SIZE = 4 := rfl
  cases l with
  | l2 =>
    have hlt := of_decide_eq_false h
    unfold crypto_layer2_frag_meta_len at hlt
    omega
  | l3 =>
    have hlt := of_decide_eq_false h
    unfold crypto_layer3_frag_meta_len at hlt
    omega
  | l4 =>
    have hlt := of_decide_eq_false h
    omega

/-! ## The two fragments -/

/-- What `encrypt_fragment_single` needs besides room and a plaintext. -/
def CanEncrypt (fake : Nat) (l : Layer) (tls : Tls) (ctx : PacketCryptoCtx) : Prop :=
  ctx.initialized = true ∧ tls.evp_ok = true ∧ (l = .l2 → fake ≠ 0)

instance (l : Layer) : Decidable (CanEncrypt fake l tls ctx) :=
  inferInstanceAs (Decidable (_ ∧ _))

/-- What a fragment has before its ciphertext. -/
def frag_head_len (l : Layer) (tls : Tls) (ip_hdr_len : Nat) : Nat :=
  match l with
  | .l2 => ETH_HEADER_SIZE + tls.nonce_size + 1 + FRAG_TAG_SIZE
  | .l3 => ETH_HEADER_SIZE + ip_hdr_len + packet_crypto_get_tunnel_hdr_size tls + FRAG_TAG_SIZE
  | .l4 => ETH_HEADER_SIZE + ip_hdr_len + L4_WIRE_PORT_LEN +
      packet_crypto_get_tunnel_hdr_size tls + FRAG_TAG_SIZE

/-- The lengths of the IPv4 header and of the transport header that stay together with the first
half. Layer 2 also splits packets without one that it knows. There has to be data behind them. -/
def split_headers (l : Layer) (pkt : Buf) (pkt_len : Nat) : Option (Nat × Nat) :=
  (frag_require_ipv4 pkt pkt_len).bind fun ihl =>
    (if l = .l2 ∧ pkt (14 + 9) ≠ 6 ∧ pkt (14 + 9) ≠ 17 then some 0
      else get_transport_hdr_size pkt (14 + ihl) (pkt (14 + 9)) (pkt_len - 14 - ihl)).bind fun th =>
    if pkt_len - 14 - ihl - th = 0 then none else some (ihl, th)

/-- The lengths of the two fragments of a packet with these headers. -/
def frag_lens (l : Layer) (tls : Tls) (pkt_len ihl th : Nat) : Nat × Nat :=
  let kept := if l = .l2 then ihl + th else th
  let app_len := pkt_len - 14 - ihl - th
  (frag_head_len l tls ihl + (kept + app_len / 2) + tag_overhead tls,
    frag_head_len l tls ihl + (app_len - app_len / 2) + tag_overhead tls)

theorem aes_encrypt_isSome {key nonce : Bytes} {pkt : Buf} {off len : Nat} (hlen : 0 < len) :
    (aes_encrypt o tls key nonce pkt off len).isSome = tls.evp_ok := by
  unfold aes_encrypt crypto_aes_gcm_encrypt crypto_aes_ctr_with_key
  cases tls.crypto_mode with
  | gcm => cases he : tls.evp_ok <;> simp [hlen.ne']
  | ctr => cases he : tls.evp_ok <;> simp [hlen.ne']

theorem evp_ok_of_none {key nonce : Bytes} {pkt : Buf} {off len : Nat} (hlen : 0 < len)
    (h : aes_encrypt o tls key nonce pkt off len = none) : tls.evp_ok = false := by
  rw [← aes_encrypt_isSome hlen, h]
  rfl

theorem evp_ok_of_some {key nonce : Bytes} {pkt : Buf} {off len : Nat} {r : Buf × Bytes}
    (hlen : 0 < len) (h : aes_encrypt o tls key nonce pkt off len = some r) :
    tls.evp_ok = true := by
  rw [← aes_encrypt_isSome hlen, h]
  rfl

/-- A fragment with a plaintext that there is room for. -/
def Gives (ok : Prop) [Decidable ok] (head tag : Nat)
    (encrypt : (counter : Nat) → (enc_plain : Bytes) → (pkt_id : Nat) → (frag_index : UInt8) →
      (out_buf : Buf) → EncResult) : Prop :=
  ∀ counter enc_plain pkt_id frag_index out_buf, 0 < enc_plain.length →
    head + enc_plain.length + tag ≤ FRAG_OUT_SIZE →
    (encrypt counter enc_plain pkt_id frag_index out_buf).ret =
      if ok then some (head + enc_plain.length + tag) else none

theorem encrypt_fragment_at_ret {out_buf : Buf} {tunnel_off ip_hdr_len : Nat} {type : UInt8}
    {enc_plain : Bytes} (hpos : 0 < enc_plain.length) (pkt_id : Nat) (frag_index : UInt8) :
    (encrypt_fragment_at o tls ctx counter out_buf tunnel_off ip_hdr_len type enc_plain pkt_id
      frag_index).ret =
      if tls.evp_ok = true then
        some (tunnel_off + packet_crypto_get_tunnel_hdr_size tls + FRAG_TAG_SIZE +
          enc_plain.length + tag_overhead tls)
      else none := by
  unfold encrypt_fragment_at
  dsimp only
  split
  · rename_i hnone
    rw [if_neg (by rw [evp_ok_of_none hpos hnone]; decide)]
  · rename_i hsome
    rw [if_pos (evp_ok_of_some hpos hsome)]

theorem crypto_layer2_encrypt_fragment_single_gives {eth_hdr : Bytes} (ihl : Nat)
    (h4 : pkt_is_ipv4_eth (ofBytes eth_hdr) = true) :
    Gives (CanEncrypt fake .l2 tls ctx) (frag_head_len .l2 tls ihl) (tag_overhead tls)
      fun counter enc_plain pkt_id frag_index out_buf =>
        crypto_layer2_encrypt_fragment_single o fake tls ctx counter eth_hdr enc_plain pkt_id
          frag_index out_buf FRAG_OUT_SIZE := by
  intro counter enc_plain pkt_id frag_index out_buf hpos hroom
  have hhead : l2_frag_enc_start_offset tls.nonce_size = frag_head_len .l2 tls ihl := rfl
  unfold crypto_layer2_encrypt_fragment_single
  dsimp only
  rw [hhead, h4]
  by_cases hinit : ctx.initialized = true
  · rw [if_neg (by simp only [hinit, Bool.not_true, Bool.false_eq_true, false_or]; omega)]
    by_cases hfake : fake = 0
    · have hmark : l2_fake_marker_byte fake (ofBytes eth_hdr) = none := if_pos (.inr hfake)
      rw [hmark, if_neg fun hok => hok.2.2 rfl hfake]
    · have hmark : l2_fake_marker_byte fake (ofBytes eth_hdr) =
          some (UInt8.ofNat (fake / 256)) := if_neg (by simp [h4, hfake])
      rw [hmark]
      dsimp only
      split
      · rename_i hnone
        have hevp := evp_ok_of_none hpos hnone
        rw [if_neg fun hok => Bool.false_ne_true (hevp.symm.trans hok.2.1)]
      · rename_i hsome
        rw [if_pos ⟨hinit, evp_ok_of_some hpos hsome, fun _ => hfake⟩]
  · rw [if_pos (.inl (by simpa using hinit)), if_neg fun hok => hinit hok.1]

theorem crypto_layer3_encrypt_fragment_single_gives (fake : Nat) {eth_hdr ip_hdr : Bytes}
    {ihl : Nat} (hihl : ip_hdr.length = ihl) (h20 : 20 ≤ ihl) :
    Gives (CanEncrypt fake .l3 tls ctx) (frag_head_len .l3 tls ihl) (tag_overhead tls)
      fun counter enc_plain pkt_id frag_index out_buf =>
        crypto_layer3_encrypt_fragment_single o tls ctx counter eth_hdr ip_hdr enc_plain pkt_id
          frag_index out_buf FRAG_OUT_SIZE := by
  intro counter enc_plain pkt_id frag_index out_buf hpos hroom
  unfold crypto_layer3_encrypt_fragment_single
  unfold frag_head_len at hroom ⊢
  dsimp only at hroom ⊢
  rw [hihl]
  by_cases hinit : ctx.initialized = true
  · rw [if_neg (by simp only [hinit, Bool.not_true, Bool.false_eq_true, false_or]; omega),
      encrypt_fragment_at_ret hpos]
    simp only [CanEncrypt, hinit, true_and, reduceCtorEq, false_implies, and_true]
  · rw [if_pos (.inl (by simpa using hinit)), if_neg fun hok => hinit hok.1]

theorem crypto_layer4_encrypt_fragment_single_gives (fake : Nat)
    {eth_hdr ip_hdr wire_ports : Bytes} {ihl : Nat} (hihl : ip_hdr.length = ihl) :
    Gives (CanEncrypt fake .l4 tls ctx) (frag_head_len .l4 tls ihl) (tag_overhead tls)
      fun counter enc_plain pkt_id frag_index out_buf =>
        crypto_layer4_encrypt_fragment_single o tls ctx counter eth_hdr ip_hdr wire_ports
          enc_plain pkt_id frag_index out_buf FRAG_OUT_SIZE := by
  intro counter enc_plain pkt_id frag_index out_buf hpos hroom
  have hE : ETH_HEADER_SIZE = 14 := rfl
  unfold crypto_layer4_encrypt_fragment_single
  unfold frag_head_len at hroom ⊢
  dsimp only at hroom ⊢
  rw [hihl]
  by_cases hinit : ctx.initialized = true
  · rw [if_neg (by simp only [hinit, Bool.not_true, Bool.false_eq_true, false_or]; omega),
      encrypt_fragment_at_ret hpos]
    simp only [CanEncrypt, hinit, true_and, reduceCtorEq, false_implies, and_true, hE]
  · rw [if_pos (.inl (by simpa using hinit)), if_neg fun hok => hinit hok.1]

/-- With room for both halves the split is held up by nothing else. -/
theorem split_and_encrypt_lens {ok : Prop} [Decidable ok] {head tag : Nat}
    {encrypt : (counter : Nat) → (enc_plain : Bytes) → (pkt_id : Nat) → (frag_index : UInt8) →
      (out_buf : Buf) → EncResult}
    (h : Gives ok head tag encrypt) (pkt_id_counter : Nat) (pkt : Buf) {hdr : Bytes}
    (app_off : Nat) {app_len : Nat} (frag1 frag2 : Buf) (hhdr : 0 < hdr.length)
    (happ : 0 < app_len) (hroom : head + hdr.length + app_len + tag ≤ FRAG_OUT_SIZE) :
    ((split_and_encrypt encrypt counter pkt_id_counter pkt hdr app_off app_len frag1
      frag2).frags.map fun f => (f.1.2, f.2.2)) =
      if ok then
        some (head + (hdr.length + app_len / 2) + tag, head + (app_len - app_len / 2) + tag)
      else none := by
  have hP : FRAG0_PLAIN_SIZE = FRAG_OUT_SIZE := rfl
  have hfirst := h counter (hdr ++ read pkt app_off (app_len / 2))
    (frag_next_pkt_id pkt_id_counter).1 0 frag1
    (by rw [List.length_append]; omega) (by rw [List.length_append, length_read]; omega)
  rw [List.length_append, length_read] at hfirst
  unfold split_and_encrypt
  dsimp only
  rw [if_neg (by omega), hfirst]
  by_cases hok : ok
  · rw [if_pos hok, if_pos hok]
    dsimp only
    rw [h _ _ _ _ _ (by rw [length_read]; omega) (by rw [length_read]; omega), if_pos hok,
      length_read]
    rfl
  · rw [if_neg hok, if_neg hok]
    rfl

/-! ### The headers that are kept together -/

theorem split_headers_some {l : Layer} {pkt : Buf} {pkt_len ihl th : Nat}
    (h : split_headers l pkt pkt_len = some (ihl, th)) :
    frag_require_ipv4 pkt pkt_len = some ihl ∧
    (if l = .l2 ∧ pkt (14 + 9) ≠ 6 ∧ pkt (14 + 9) ≠ 17 then some 0
      else get_transport_hdr_size pkt (14 + ihl) (pkt (14 + 9)) (pkt_len - 14 - ihl)) = some th ∧
    14 + ihl + th < pkt_len ∧ ihl ≤ 60 ∧ th ≤ 60 := by
  obtain ⟨ihl', hihl, h⟩ := Option.bind_eq_some_iff.mp h
  obtain ⟨th', hth, h⟩ := Option.bind_eq_some_iff.mp h
  split at h
  · simp at h
  rename_i hdata
  obtain ⟨rfl, rfl⟩ := Prod.mk.inj (Option.some.inj h)
  obtain ⟨-, hbyte, -, -⟩ := frag_require_ipv4_some hihl
  refine ⟨hihl, hth, by omega, by omega, ?_⟩
  split at hth
  · obtain rfl := Option.some.inj hth
    omega
  · exact get_transport_hdr_size_le hth

variable {pkt frag1 frag2 : Buf} {pkt_len pkt_id_counter : Nat}

/-- A fragment of such a packet fits its buffer. -/
theorem room_for_fragments {l : Layer} {ihl th kept : Nat} (hlen : pkt_len ≤ LINK_FRAME_MAX)
    (hns : tls.nonce_size ≤ 16) (hihl : ihl ≤ 60) (hkept : kept ≤ ihl + th)
    (hfit : 14 + ihl + th < pkt_len) :
    frag_head_len l tls ihl + kept + (pkt_len - 14 - ihl - th) + tag_overhead tls ≤
      FRAG_OUT_SIZE := by
  have ht := tag_overhead_le tls
  have hM : LINK_FRAME_MAX = 1514 := rfl
  have hO : FRAG_OUT_SIZE = 2048 := rfl
  have hE : ETH_HEADER_SIZE = 14 := rfl
  have hF : FRAG_TAG_SIZE = 4 := rfl
  have hL : L4_WIRE_PORT_LEN = 4 := rfl
  have hh : packet_crypto_get_tunnel_hdr_size tls = tls.nonce_size + 2 := rfl
  cases l <;> simp only [frag_head_len] <;> omega

theorem frag_split_and_encrypt_lens (hlen : pkt_len ≤ LINK_FRAME_MAX) (hns : tls.nonce_size ≤ 16) :
    ((frag_split_and_encrypt o tls ctx counter pkt_id_counter pkt pkt_len frag1 frag2).frags.map
      fun f => (f.1.2, f.2.2)) =
      if CanEncrypt fake .l3 tls ctx then
        (split_headers .l3 pkt pkt_len).map fun hdrs => frag_lens .l3 tls pkt_len hdrs.1 hdrs.2
      else none := by
  unfold frag_split_and_encrypt split_headers
  cases hihl : frag_require_ipv4 pkt pkt_len with
  | none => simp
  | some ihl =>
    obtain ⟨-, hbyte, h20, hle⟩ := frag_require_ipv4_some hihl
    have hl : ¬(Layer.l3 = .l2 ∧ pkt (14 + 9) ≠ 6 ∧ pkt (14 + 9) ≠ 17) := fun h => by simp at h
    dsimp only
    rw [Option.bind_some]
    simp only [if_neg hl]
    cases hth : get_transport_hdr_size pkt (14 + ihl) (pkt (14 + 9)) (pkt_len - 14 - ihl) with
    | none => simp
    | some th =>
      obtain ⟨hproto, h8, hrem⟩ := get_transport_hdr_size_some hth
      dsimp only
      rw [Option.bind_some, if_neg (by omega), if_neg (by tauto)]
      by_cases happ : pkt_len - 14 - ihl - th = 0
      · rw [if_pos happ, if_pos happ]
        simp
      · rw [if_neg happ, if_neg happ]
        have hroom : frag_head_len .l3 tls ihl + th + (pkt_len - 14 - ihl - th) +
            tag_overhead tls ≤ FRAG_OUT_SIZE :=
          room_for_fragments hlen hns (by omega) (Nat.le_add_left _ _) (by omega)
        rw [split_and_encrypt_lens (crypto_layer3_encrypt_fragment_single_gives fake
          (length_read _ _ _) h20) _ _ _ _ _ (by rw [length_read]; omega) (by omega)
          (by rw [length_read]; exact hroom), length_read]
        rfl

theorem frag_split_and_encrypt_l4_lens (hlen : pkt_len ≤ LINK_FRAME_MAX)
    (hns : tls.nonce_size ≤ 16) (hfits : 14 + ip_hdr_len_at pkt 14 ≤ pkt_len) :
    ((frag_split_and_encrypt_l4 o tls ctx counter pkt_id_counter pkt pkt_len frag1
      frag2).frags.map fun f => (f.1.2, f.2.2)) =
      if CanEncrypt fake .l4 tls ctx then
        (split_headers .l4 pkt pkt_len).map fun hdrs => frag_lens .l4 tls pkt_len hdrs.1 hdrs.2
      else none := by
  have hl : ¬(Layer.l4 = .l2 ∧ pkt (14 + 9) ≠ 6 ∧ pkt (14 + 9) ≠ 17) := fun h => by simp at h
  unfold ip_hdr_len_at at hfits
  unfold frag_split_and_encrypt_l4 split_headers
  simp only [if_neg hl, u32_sub_of_le hfits]
  generalize hbyte : (pkt 14).toNat % 16 * 4 = ihl at hfits ⊢
  by_cases hhead : be16 pkt 12 = 0x0800 ∧ 20 ≤ ihl
  · rw [frag_require_ipv4_eq hhead.1 hbyte hhead.2 hfits, Option.bind_some,
      show pkt_len - (14 + ihl) = pkt_len - 14 - ihl by omega]
    cases hth : get_transport_hdr_size pkt (14 + ihl) (pkt (14 + 9)) (pkt_len - 14 - ihl) with
    | none => split <;> simp
    | some th =>
      obtain ⟨hproto, h8, hrem⟩ := get_transport_hdr_size_some hth
      have hhead' : ¬(pkt_len < 14 + 20 + 8 ∨ be16 pkt 12 ≠ 0x0800 ∨
          (pkt (14 + 9) ≠ 6 ∧ pkt (14 + 9) ≠ 17) ∨ ihl < 20) := by
        rintro (hshort | hno4 | ⟨h6, h17⟩ | h20)
        · omega
        · exact hno4 hhead.1
        · exact hproto.elim h6 h17
        · omega
      dsimp only
      rw [Option.bind_some, if_neg hhead', u32_sub_of_le (by omega),
        show pkt_len - (14 + ihl + th) = pkt_len - 14 - ihl - th by omega]
      by_cases happ : pkt_len - 14 - ihl - th = 0
      · rw [if_pos happ, if_pos happ]
        simp
      · rw [if_neg happ, if_neg happ]
        have hroom : frag_head_len .l4 tls ihl + th + (pkt_len - 14 - ihl - th) +
            tag_overhead tls ≤ FRAG_OUT_SIZE :=
          room_for_fragments hlen hns (by omega) (Nat.le_add_left _ _) (by omega)
        rw [split_and_encrypt_lens (crypto_layer4_encrypt_fragment_single_gives fake
          (length_read _ _ _)) _ _ _ _ _ (by rw [length_read]; omega) (by omega)
          (by rw [length_read]; exact hroom), length_read]
        rfl
  · have hnone : frag_require_ipv4 pkt pkt_len = none := by
      unfold frag_require_ipv4
      dsimp only
      rw [hbyte, if_pos (by omega)]
    have hhead' : be16 pkt 12 ≠ 0x0800 ∨ (pkt (14 + 9) ≠ 6 ∧ pkt (14 + 9) ≠ 17) ∨ ihl < 20 :=
      (not_and_or.mp hhead).imp_right fun h20 => .inr (Nat.lt_of_not_le h20)
    rw [hnone, if_pos (.inr hhead')]
    simp

/-- The split of layer 2 behind a transport header of this length, which may be none. -/
theorem split_l2_lens {ihl th : Nat} (hlen : pkt_len ≤ LINK_FRAME_MAX)
    (hns : tls.nonce_size ≤ 16) (hihl : frag_require_ipv4 pkt pkt_len = some ihl) :
    (if pkt_len - 14 - ihl - th = 0 then
        ({ frags := none, counter, pkt_id_counter } : SplitResult)
      else split_and_encrypt (fun counter enc_plain pkt_id frag_index out_buf =>
          crypto_layer2_encrypt_fragment_single o fake tls ctx counter (read pkt 0 14) enc_plain
            pkt_id frag_index out_buf FRAG_OUT_SIZE)
        counter pkt_id_counter pkt (read pkt 14 (ihl + th)) (14 + ihl + th)
        (pkt_len - 14 - ihl - th) frag1 frag2).frags.map (fun f => (f.1.2, f.2.2)) =
      if CanEncrypt fake .l2 tls ctx then
        (if pkt_len - 14 - ihl - th = 0 then none else some (ihl, th)).map fun hdrs =>
          frag_lens .l2 tls pkt_len hdrs.1 hdrs.2
      else none := by
  obtain ⟨h4, hbyte, h20, hle⟩ := frag_require_ipv4_some hihl
  have heth : pkt_is_ipv4_eth (ofBytes (read pkt 0 14)) = true := by
    unfold pkt_is_ipv4_eth
    rw [be16_ofBytes_read _ _ _ _ (by omega)]
    exact beq_iff_eq.mpr h4
  by_cases happ : pkt_len - 14 - ihl - th = 0
  · rw [if_pos happ, if_pos happ]
    simp
  · have hroom : frag_head_len .l2 tls ihl + (ihl + th) + (pkt_len - 14 - ihl - th) +
        tag_overhead tls ≤ FRAG_OUT_SIZE :=
      room_for_fragments hlen hns (by omega) le_rfl (by omega)
    rw [if_neg happ, if_neg happ,
      split_and_encrypt_lens (crypto_layer2_encrypt_fragment_single_gives ihl heth) _ _ _ _ _
        (by rw [length_read]; omega) (by omega) (by rw [length_read]; exact hroom), length_read]
    rfl

theorem frag_split_and_encrypt_l2_lens (hlen : pkt_len ≤ LINK_FRAME_MAX)
    (hns : tls.nonce_size ≤ 16) :
    ((frag_split_and_encrypt_l2 o fake tls ctx counter pkt_id_counter pkt pkt_len frag1
      frag2).frags.map fun f => (f.1.2, f.2.2)) =
      if CanEncrypt fake .l2 tls ctx then
        (split_headers .l2 pkt pkt_len).map fun hdrs => frag_lens .l2 tls pkt_len hdrs.1 hdrs.2
      else none := by
  unfold frag_split_and_encrypt_l2 split_headers
  cases hihl : frag_require_ipv4 pkt pkt_len with
  | none => simp
  | some ihl =>
    dsimp only
    rw [Option.bind_some]
    by_cases hproto : pkt (14 + 9) = 6 ∨ pkt (14 + 9) = 17
    · have hl : ¬(Layer.l2 = .l2 ∧ pkt (14 + 9) ≠ 6 ∧ pkt (14 + 9) ≠ 17) :=
        fun hand => hproto.elim hand.2.1 hand.2.2
      rw [if_pos hproto, if_neg hl]
      cases get_transport_hdr_size pkt (14 + ihl) (pkt (14 + 9)) (pkt_len - 14 - ihl) with
      | none => simp
      | some th => exact split_l2_lens hlen hns hihl
    · have hl : Layer.l2 = .l2 ∧ pkt (14 + 9) ≠ 6 ∧ pkt (14 + 9) ≠ 17 :=
        ⟨rfl, not_or.mp hproto⟩
      rw [if_neg hproto, if_pos hl]
      exact split_l2_lens hlen hns hihl

/-- The lengths of the fragments that a split makes, and that it makes none. -/
theorem split_lens {l : Layer} (hlen : pkt_len ≤ LINK_FRAME_MAX) (hns : tls.nonce_size ≤ 16)
    (hfits : l.need_split tls pkt_len = true ∨ 14 + ip_hdr_len_at pkt 14 ≤ pkt_len) :
    ((l.split o fake tls ctx counter pkt_id_counter pkt pkt_len frag1 frag2).frags.map
      fun f => (f.1.2, f.2.2)) =
      if CanEncrypt fake l tls ctx then
        (split_headers l pkt pkt_len).map fun hdrs => frag_lens l tls pkt_len hdrs.1 hdrs.2
      else none := by
  have hwhole : 14 + ip_hdr_len_at pkt 14 ≤ pkt_len := by
    rcases hfits with hsplit | hwhole
    · have hlong := len_of_need_split hns hsplit
      unfold ip_hdr_len_at
      omega
    · exact hwhole
  cases l with
  | l2 => exact frag_split_and_encrypt_l2_lens hlen hns
  | l3 => exact frag_split_and_encrypt_lens hlen hns
  | l4 => exact frag_split_and_encrypt_l4_lens hlen hns hwhole

/-- Half of the data and all of the headers are within the MTU. -/
theorem frag_lens_le {l : Layer} {ihl th : Nat} (hlen : pkt_len ≤ LINK_FRAME_MAX)
    (hns : tls.nonce_size ≤ 16) (h : split_headers l pkt pkt_len = some (ihl, th)) :
    (frag_lens l tls pkt_len ihl th).1 ≤ LINK_FRAME_MAX ∧
      (frag_lens l tls pkt_len ihl th).2 ≤ LINK_FRAME_MAX := by
  obtain ⟨-, -, hfit, hihl, hth⟩ := split_headers_some h
  have ht := tag_overhead_le tls
  have hM : LINK_FRAME_MAX = 1514 := rfl
  have hE : ETH_HEADER_SIZE = 14 := rfl
  have hF : FRAG_TAG_SIZE = 4 := rfl
  have hL : L4_WIRE_PORT_LEN = 4 := rfl
  have hh : packet_crypto_get_tunnel_hdr_size tls = tls.nonce_size + 2 := rfl
  cases l <;> simp only [frag_lens, frag_head_len, reduceCtorEq, if_true, if_false] <;> omega

/-- Every check of a split but those of the room in its buffers: it gives two fragments where
AES is ready and the packet has data behind headers that are there. -/
theorem split_isSome_iff {l : Layer} (hlen : pkt_len ≤ LINK_FRAME_MAX) (hns : tls.nonce_size ≤ 16)
    (hfits : l.need_split tls pkt_len = true ∨ 14 + ip_hdr_len_at pkt 14 ≤ pkt_len) :
    (l.split o fake tls ctx counter pkt_id_counter pkt pkt_len frag1 frag2).frags.isSome = true ↔
      CanEncrypt fake l tls ctx ∧ (split_headers l pkt pkt_len).isSome = true := by
  rw [← Option.isSome_map (f := fun f : (Buf × Nat) × (Buf × Nat) => (f.1.2, f.2.2)),
    split_lens hlen hns hfits]
  split
  · rename_i hok
    rw [Option.isSome_map]
    exact ⟨fun h => ⟨hok, h⟩, And.right⟩
  · rename_i hok
    exact ⟨fun h => absurd h (by simp), fun h => absurd h.1 hok⟩

theorem split_le {l : Layer} (hlen : pkt_len ≤ LINK_FRAME_MAX) (hns : tls.nonce_size ≤ 16)
    (hfits : l.need_split tls pkt_len = true ∨ 14 + ip_hdr_len_at pkt 14 ≤ pkt_len)
    {f1 f2 : Buf × Nat}
    (h : (l.split o fake tls ctx counter pkt_id_counter pkt pkt_len frag1 frag2).frags =
      some (f1, f2)) :
    f1.2 ≤ LINK_FRAME_MAX ∧ f2.2 ≤ LINK_FRAME_MAX := by
  have hlens := congrArg (Option.map fun f : (Buf × Nat) × (Buf × Nat) => (f.1.2, f.2.2)) h
  rw [split_lens hlen hns hfits, Option.map_some] at hlens
  split at hlens
  · obtain ⟨⟨ihl, th⟩, hhdrs, heq⟩ := Option.map_eq_some_iff.mp hlens
    have hle := frag_lens_le hlen hns hhdrs
    dsimp only at heq
    rw [heq] at hle
    exact hle
  · simp at hlens

end

/-! ## What the worker sends -/

theorem length_le_of_send {e : LanEnv} {r : Outbound} {pkt : Buf} {n : Nat}
    (hr : ∀ frame ∈ r.sent, frame.length ≤ LINK_FRAME_MAX) (hn : n ≤ LINK_FRAME_MAX) :
    ∀ frame ∈ (r.send e pkt n).sent, frame.length ≤ LINK_FRAME_MAX := by
  intro frame hframe
  rw [sent_send] at hframe
  rcases List.mem_append.mp hframe with hold | hnew
  · exact hr frame hold
  · split at hnew
    · rw [List.mem_singleton.mp hnew, length_read]
      exact hn
    · exact absurd hnew List.not_mem_nil

theorem length_le_send_plain {e : LanEnv} {wan_idx : Nat} {job : PacketJob}
    (hlen : job.pkt_len ≤ LINK_FRAME_MAX) :
    ∀ frame ∈ (send_plain e wan_idx job).sent, frame.length ≤ LINK_FRAME_MAX := by
  unfold send_plain
  split
  · exact fun frame hframe => absurd hframe List.not_mem_nil
  · exact length_le_of_send (fun frame hframe => absurd hframe List.not_mem_nil) hlen

theorem length_le_send_encrypted {e : LanEnv} {wan_idx : Nat} {l : Layer} {tls : Tls}
    {ctx : PacketCryptoCtx} {job : PacketJob} (hlen : job.pkt_len ≤ LINK_FRAME_MAX)
    (hns : tls.nonce_size ≤ 16) :
    ∀ frame ∈ (send_encrypted e wan_idx l tls ctx job).sent, frame.length ≤ LINK_FRAME_MAX := by
  have hstart : ∀ frame ∈ (Outbound.start e).sent, frame.length ≤ LINK_FRAME_MAX :=
    fun frame hframe => absurd hframe List.not_mem_nil
  unfold send_encrypted
  dsimp only
  split
  · exact hstart
  split
  · rename_i hsplit
    unfold send_split
    dsimp only
    split
    · exact hstart
    rename_i f1 f2 hfrags
    obtain ⟨h1, h2⟩ := split_le hlen hns (.inl hsplit) hfrags
    split
    · exact length_le_of_send (length_le_of_send hstart h1) h2
    · exact hstart
  · rename_i hwhole
    have hmtu := len_of_not_need_split (Bool.not_eq_true _ ▸ hwhole)
    unfold send_whole
    dsimp only
    split
    · exact hstart
    · rename_i hret
      have hgrown := encrypt_at_len hret
      exact length_le_of_send hstart (hgrown.trans (hmtu.trans (Nat.le_add_left _ _)))

/-- Of a packet within the MTU the worker sends nothing longer under a policy that encrypts, whole
or in two fragments; and a split gives its two fragments, each within the MTU, unless AES is not
ready or the packet is not one with data behind its headers, whatever the sizes of the buffers. -/
theorem encryption_never_exceeds_the_link_mtu {e : LanEnv} {job : PacketJob} {pi : Nat}
    {cp : CryptoPolicy} {l : Layer}
    (hchoice : choose e job.local_idx (parse_flow job.pkt job.pkt_len) = .encrypt pi cp)
    (hl : layer_of cp.action = some l) (hns : cp.nonce_size ∈ [4, 8, 12, 16])
    (hlen : job.pkt_len ≤ LINK_FRAME_MAX) :
    (∀ frame ∈ (worker_packet e job).sent, frame.length ≤ LINK_FRAME_MAX) ∧
    ∀ counter pkt_id_counter pkt frag1 frag2,
      l.need_split (crypto_apply_from_policy cp e.tls) job.pkt_len = true ∨
          14 + ip_hdr_len_at pkt 14 ≤ job.pkt_len →
      let s := l.split e.o e.rt.fake_ethertype_ipv4 (crypto_apply_from_policy cp e.tls)
        (e.rt.active.ctx pi) counter pkt_id_counter pkt job.pkt_len frag1 frag2
      (s.frags.isSome = true ↔
        CanEncrypt e.rt.fake_ethertype_ipv4 l (crypto_apply_from_policy cp e.tls)
          (e.rt.active.ctx pi) ∧ (split_headers l pkt job.pkt_len).isSome = true) ∧
      ∀ f1 f2, s.frags = some (f1, f2) → f1.2 ≤ LINK_FRAME_MAX ∧ f2.2 ≤ LINK_FRAME_MAX := by
  have hns' : (crypto_apply_from_policy cp e.tls).nonce_size ≤ 16 := by
    show cp.nonce_size ≤ 16
    simp only [List.mem_cons, List.not_mem_nil, or_false] at hns
    omega
  refine ⟨?_, fun counter pkt_id_counter pkt frag1 frag2 hfits =>
    ⟨split_isSome_iff hlen hns' hfits, fun f1 f2 hfrags => split_le hlen hns' hfits hfrags⟩⟩
  unfold worker_packet
  split
  · exact length_le_send_plain hlen
  · rw [hchoice]
    dsimp only
    rw [hl]
    exact length_le_send_encrypted hlen hns'

def longJob : PacketJob := udpJob (longDatagram 0x61)

theorem longJob_choice :
    choose l3Env longJob.local_idx (parse_flow longJob.pkt longJob.pkt_len) =
      .encrypt 0 (samplePolicy 7 .encrypt_l3) := by
  have hflow : parse_flow longJob.pkt longJob.pkt_len =
      some ⟨0x0a000001, 0x0a000102, 40000, 53, 17⟩ := by decide +kernel
  rw [hflow]
  rfl

/-- A datagram of 1500 bytes leaves in two fragments. -/
theorem a_long_datagram_leaves_within_the_mtu :
    (worker_packet l3Env longJob).sent.map List.length = [805, 797] ∧
    ∀ frame ∈ (worker_packet l3Env longJob).sent, frame.length ≤ LINK_FRAME_MAX :=
  ⟨by decide +kernel, (encryption_never_exceeds_the_link_mtu longJob_choice rfl (by decide)
    (by decide +kernel)).1⟩

end ne_ip.link_mtu
