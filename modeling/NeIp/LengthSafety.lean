-- The lengths of the receive path: a function that decrypts a frame, or asks
-- whether it is a fragment, reads the bytes of the frame only, hands no longer
-- length to a copy and returns a length that fits. Here for AES, for layers 3
-- and 4 and for the fragment checks.
import NeIp.DispatchAccess

open byte_buf access_log ne_ip.packet_crypto ne_ip.config ne_ip.crypto_dispatch

namespace ne_ip.length_safety

open crypto_layer4 (size_sub L4_WIRE_PORT_LEN)
open tunnel (FRAG_TAG_SIZE)
open frame_access (byte word within_byte within_word size_sub_of_le decrypt_in_place_length)

/-- A frame that the XDP program of a WAN interface has let through. -/
structure Received where
  pkt : Buf
  len : Nat
  min_len : 14 ≤ len
  ipv4_len : be16 pkt 12 = 0x0800 → 34 ≤ len

/-- A call on a frame of `n` bytes that touches nothing else, and returns -1 or the length of a
frame inside it. `len` is the length that it returns. -/
structure Safe {α : Type} (n : Nat) (m : Logged α) (len : α → Option Nat) : Prop where
  within : Within n m
  returned : ∀ r, len m.val = some r → 14 ≤ r ∧ r ≤ n

theorem Safe.ret {α : Type} {n : Nat} {a : α} {len : α → Option Nat}
    (h : ∀ r, len a = some r → 14 ≤ r ∧ r ≤ n) : Safe n (pure a : Logged α) len :=
  ⟨within_pure a, h⟩

theorem safe_bind_iff {α β : Type} {n : Nat} {m : Logged α} {f : α → Logged β}
    {len : β → Option Nat} : Safe n (m >>= f) len ↔ Within n m ∧ Safe n (f m.val) len := by
  constructor
  · rintro ⟨hw, hr⟩
    exact ⟨(within_bind.mp hw).1, (within_bind.mp hw).2, hr⟩
  · rintro ⟨hm, hw, hr⟩
    exact ⟨within_bind.mpr ⟨hm, hw⟩, hr⟩

theorem Safe.bind {α β : Type} {n : Nat} {m : Logged α} {f : α → Logged β} {len : β → Option Nat}
    (hm : Within n m) (hf : Safe n (f m.val) len) : Safe n (m >>= f) len :=
  safe_bind_iff.mpr ⟨hm, hf⟩

/-- A frame that is given back at its own length. -/
theorem Safe.unchanged {n : Nat} (hn : 14 ≤ n) (pkt : Buf) :
    Safe n (pure (some n, pkt) : Logged (Option Nat × Buf)) (·.1) :=
  Safe.ret fun r hr => by
    have := Option.some.inj hr
    omega

/-! ## AES, the tag and the backup -/

/-- What a check of the plaintext reads is in the ciphertext. -/
def ReadsInside (verify : Buf → Nat → Nat → Logged Bool) : Prop :=
  ∀ n pkt off len, off + len ≤ n → Within n (verify pkt off len)

theorem unverified_inside : ReadsInside frame_access.unverified := fun _ _ _ _ _ => within_pure true

theorem verify_ipv4_after_decrypt_inside : ReadsInside frame_access.verify_ipv4_after_decrypt := by
  intro n pkt off len h
  unfold frame_access.verify_ipv4_after_decrypt
  split
  · exact within_pure false
  · simp only [within_bind, within_byte]
    refine ⟨by omega, by omega, ?_⟩
    split
    · exact within_pure false
    · exact within_pure _

theorem verify_decrypted_payload_inside (orig_proto : UInt8) :
    ReadsInside (frame_access.verify_decrypted_payload orig_proto) := by
  intro n pkt off len h
  unfold frame_access.verify_decrypted_payload
  split
  · split
    · exact within_pure false
    · simp only [within_bind, within_word]
      exact ⟨by omega, by omega, within_pure _⟩
  · exact within_pure true

variable {o : Openssl} {tls : Tls} {ctx : PacketCryptoCtx} {n : Nat}

theorem aes_decrypt_within {s : GcmSide} {key nonce tag : Bytes} {verify : Buf → Nat → Nat → Logged Bool}
    (hv : ReadsInside verify) {pkt : Buf} {off len : Nat} (hns : tls.nonce_size ≤ n)
    (h : off + len ≤ n) :
    Within n (frame_access.aes_decrypt o tls s key nonce tag verify pkt off len) := by
  unfold frame_access.aes_decrypt
  rw [within_bind, within_load]
  refine ⟨Or.inr h, ?_⟩
  cases tls.crypto_mode with
  | gcm => exact within_pure _
  | ctr =>
    dsimp only
    rw [within_bind, within_copy]
    refine ⟨hns, ?_⟩
    cases crypto_aes_ctr_with_key o tls key (crypto_nonce_to_iv nonce) pkt off len with
    | none => exact within_pure _
    | some pkt' =>
      dsimp only
      rw [within_bind]
      exact ⟨hv n pkt' off len h, within_pure _⟩

theorem try_keys_within {nonce tag : Bytes} {verify : Buf → Nat → Nat → Logged Bool}
    (hv : ReadsInside verify) {off len : Nat} (hns : tls.nonce_size ≤ n) (h : off + len ≤ n)
    (backup : Bytes) (k : Nat) (s : GcmSide) (slots : List KeySlot) (pkt : Buf) :
    Within n (frame_access.try_keys o tls ctx nonce tag verify off len backup k s slots pkt) := by
  induction slots generalizing k s pkt with
  | nil => exact within_pure _
  | cons slot slots ih =>
    unfold frame_access.try_keys
    rw [within_bind, within_bind]
    refine ⟨?_, aes_decrypt_within hv hns h, ?_⟩
    · unfold frame_access.restore
      split
      · rw [within_bind, within_copy]
        exact ⟨by omega, within_pure _⟩
      · exact within_pure _
    · split
      · exact within_pure _
      · exact ih _ _ _

theorem decrypt_in_place_within {nonce : Bytes} {verify : Buf → Nat → Nat → Logged Bool}
    (hv : ReadsInside verify) {pkt : Buf} {enc_off total_after : Nat} (hns : tls.nonce_size ≤ n)
    (h : enc_off + total_after ≤ n) :
    Within n (frame_access.decrypt_in_place o tls ctx nonce verify pkt enc_off total_after) := by
  unfold frame_access.decrypt_in_place
  split
  · exact within_pure _
  rename_i hlen
  rw [size_sub_of_le (by omega)]
  simp only [within_bind, within_copy_from]
  refine ⟨⟨by omega, by omega⟩, ?_, try_keys_within hv hns (by omega) _ _ _ _ _, ?_⟩
  · unfold frame_access.save
    split
    · rw [within_bind, within_copy_from]
      exact ⟨⟨by omega, by omega⟩, within_pure _⟩
    · exact within_pure _
  · split
    · exact within_pure _
    · exact within_pure _

theorem patch_ipv4_within {pkt : Buf} {ip_off ip_hdr_len ip_total : Nat}
    (h : ip_off + ip_hdr_len ≤ n) :
    Within n (frame_access.patch_ipv4 pkt ip_off ip_hdr_len ip_total) := by
  unfold frame_access.patch_ipv4
  rw [within_bind, within_load]
  exact ⟨Or.inr h, within_pure _⟩

/-- What layer 4 and the fragments do behind their headers, in a frame that has these. -/
theorem open_tunnel_at_safe {packet : Buf} {l3_off ip_hdr_len tunnel_off enc_off : Nat}
    (hip : l3_off + ip_hdr_len ≤ tunnel_off) (htun : tunnel_off + tls.nonce_size ≤ enc_off)
    (h14 : 14 ≤ tunnel_off) (henc : enc_off ≤ n) :
    Safe n (frame_access.open_tunnel_at o tls ctx packet n l3_off ip_hdr_len tunnel_off enc_off)
      (·.1) := by
  unfold frame_access.open_tunnel_at
  rw [size_sub_of_le henc]
  refine Safe.bind (within_copy_from.mpr ⟨by omega, by omega⟩) (Safe.bind
    (decrypt_in_place_within unverified_inside (by omega) (by omega)) ?_)
  rw [frame_access.decrypt_unverified_val]
  split
  · exact Safe.ret (by simp)
  · rename_i enc_len packet' hd
    have hl := decrypt_in_place_length hd
    refine Safe.bind (within_copy_from.mpr ⟨by omega, by omega⟩) (Safe.bind
      (patch_ipv4_within (by omega)) (Safe.ret ?_))
    intro r hr
    have := Option.some.inj hr
    omega

/-! ## Layer 3 -/

theorem pkt_is_ipv4_within (packet : Buf) : Within n (frame_access.pkt_is_ipv4 packet n) := by
  unfold frame_access.pkt_is_ipv4
  split
  · exact within_pure false
  · rename_i h
    have hE : ETH_HEADER_SIZE + crypto_layer3.IPV4_HDR_SIZE = 34 := rfl
    rw [within_bind, within_word]
    exact ⟨by omega, within_pure _⟩

theorem ipv4_hdr_len_at_within (packet : Buf) (l3_off : Nat) :
    Within n (frame_access.ipv4_hdr_len_at packet n l3_off) := by
  unfold frame_access.ipv4_hdr_len_at
  split
  · exact within_pure none
  · rw [within_bind, within_byte]
    exact ⟨by omega, within_pure _⟩

theorem ipv4_hdr_len_at_some {packet : Buf} {l3_off ihl : Nat}
    (h : crypto_layer3.ipv4_hdr_len_at packet n l3_off = some ihl) : 20 ≤ ihl ∧ l3_off + ihl ≤ n := by
  unfold crypto_layer3.ipv4_hdr_len_at at h
  split at h
  · simp at h
  simp only at h
  split at h
  · simp at h
  · have := Option.some.inj h
    omega

theorem sum_transport_within {packet : Buf} {ip_hdr_len seg_len : Nat} (orig_proto : UInt8)
    (hihl : 20 ≤ ip_hdr_len) (h : ETH_HEADER_SIZE + ip_hdr_len + seg_len ≤ n) :
    Within n (frame_access.sum_transport packet ip_hdr_len orig_proto seg_len) := by
  have hE : ETH_HEADER_SIZE = 14 := rfl
  unfold frame_access.sum_transport
  simp only
  split
  · simp only [within_bind, within_load]
    omega
  split
  · simp only [within_bind, within_load, within_word]
    -- the length field is cut to the segment
    have hcut : ∀ x, (if x > seg_len % 65536 then seg_len % 65536 else x) ≤ seg_len := by
      intro x
      split <;> omega
    have := hcut (if (word packet (ETH_HEADER_SIZE + ip_hdr_len + 4)).val < 8 then 8
      else (word packet (ETH_HEADER_SIZE + ip_hdr_len + 4)).val)
    omega
  · exact within_pure ()

theorem l3_restore_safe {packet : Buf} {ip_hdr_len enc_len : Nat} (orig_proto : UInt8)
    (hihl : 20 ≤ ip_hdr_len)
    (h : n = ETH_HEADER_SIZE + ip_hdr_len + packet_crypto_get_tunnel_hdr_size tls + enc_len +
      tag_overhead tls) :
    Safe n (frame_access.l3_restore tls packet n ip_hdr_len enc_len orig_proto) (·.1) := by
  have hE : ETH_HEADER_SIZE = 14 := rfl
  have hT : crypto_layer3.IPV4_TOTLEN_OFF = 16 := rfl
  unfold frame_access.l3_restore
  dsimp only
  rw [size_sub_of_le (show packet_crypto_get_tunnel_hdr_size tls + tag_overhead tls ≤ n by omega)]
  refine Safe.bind (within_copy_from.mpr ⟨by omega, by omega⟩) (Safe.bind
    (within_word.mpr (by omega)) (Safe.bind (patch_ipv4_within (by omega)) ?_))
  have hret : ∀ pkt : Buf, ∀ r, (some (n - (packet_crypto_get_tunnel_hdr_size tls +
      tag_overhead tls)), pkt).1 = some r → 14 ≤ r ∧ r ≤ n := by
    intro pkt r hr
    have := Option.some.inj hr
    omega
  split
  · rename_i hlt
    rw [size_sub_of_le (by omega)]
    unfold frame_access.fix_transport_checksum
    exact Safe.bind (within_bind.mpr ⟨sum_transport_within orig_proto hihl (by omega),
      within_pure _⟩) (Safe.ret (hret _))
  · exact Safe.ret (hret _)

theorem crypto_layer3_decrypt_safe (hn : 14 ≤ n) (o : Openssl) (tls : Tls) (ctx : PacketCryptoCtx)
    (packet : Buf) : Safe n (frame_access.crypto_layer3_decrypt o tls ctx packet n) (·.1) := by
  have hh : packet_crypto_get_tunnel_hdr_size tls = tls.nonce_size + 2 := rfl
  have hE : ETH_HEADER_SIZE = 14 := rfl
  have hP : crypto_layer3.IPV4_PROTO_OFF = 23 := rfl
  unfold frame_access.crypto_layer3_decrypt
  split
  · exact Safe.ret (by simp)
  refine Safe.bind (pkt_is_ipv4_within packet) ?_
  split
  · exact Safe.unchanged hn packet
  refine Safe.bind (ipv4_hdr_len_at_within packet _) ?_
  rw [frame_access.ipv4_hdr_len_at_val]
  split
  · exact Safe.unchanged hn packet
  rename_i ip_hdr_len hihl
  obtain ⟨h20, hle⟩ := ipv4_hdr_len_at_some hihl
  dsimp only
  split
  · exact Safe.unchanged hn packet
  rename_i hlen
  refine Safe.bind (within_byte.mpr (by omega)) ?_
  split
  · exact Safe.unchanged hn packet
  refine Safe.bind (within_byte.mpr (by omega)) ?_
  split
  · exact Safe.unchanged hn packet
  refine Safe.bind ?_ ?_
  · unfold frame_access.crypto_read_l3_tunnel_header
    simp only [within_bind, within_copy_from, within_load, within_byte, within_pure, and_true]
    omega
  rw [size_sub_of_le (by omega)]
  refine Safe.bind (decrypt_in_place_within (verify_decrypted_payload_inside _) (by omega)
    (by omega)) ?_
  rw [frame_access.decrypt_in_place_val o tls ctx _ (frame_access.verify_decrypted_payload_val _)]
  split
  · exact Safe.ret (by simp)
  · rename_i enc_len packet' hd
    have hl := decrypt_in_place_length hd
    exact l3_restore_safe _ h20 (by omega)

/-- The length in what a `decrypt_fragment` function returns. -/
def fragment_len (r : Option (Nat × Nat × UInt8) × Buf) : Option Nat := r.1.map (·.1)

theorem read_frag_tag_within {buf : Buf} {off : Nat} (h : off + FRAG_TAG_SIZE ≤ n) :
    Within n (frame_access.read_frag_tag buf off) := by
  have hF : FRAG_TAG_SIZE = 4 := rfl
  unfold frame_access.read_frag_tag
  simp only [within_bind, within_word, within_byte, within_pure, and_true]
  omega

/-- The tag does not change the length. -/
theorem Safe.with_tag {m : Logged (Option Nat × Buf)} (h : Safe n m (·.1)) (tag : Nat × UInt8) :
    Safe n (do let r ← m; pure (r.1.map (·, tag), r.2)) fragment_len := by
  refine Safe.bind h.within (Safe.ret ?_)
  intro r hr
  unfold fragment_len at hr
  rw [Option.map_map] at hr
  obtain ⟨m', hm', rfl⟩ := Option.map_eq_some_iff.mp hr
  exact h.returned m' hm'

theorem crypto_layer3_decrypt_fragment_safe (o : Openssl) (tls : Tls) (ctx : PacketCryptoCtx)
    (packet : Buf) :
    Safe n (frame_access.crypto_layer3_decrypt_fragment o tls ctx packet n) fragment_len := by
  have hh : packet_crypto_get_tunnel_hdr_size tls = tls.nonce_size + 2 := rfl
  have hE : ETH_HEADER_SIZE = 14 := rfl
  have hP : crypto_layer3.IPV4_PROTO_OFF = 23 := rfl
  have hnone : ∀ pkt : Buf, Safe n (pure (none, pkt)) fragment_len := fun pkt =>
    Safe.ret (by simp [fragment_len])
  unfold frame_access.crypto_layer3_decrypt_fragment
  split
  · exact hnone packet
  refine Safe.bind (pkt_is_ipv4_within packet) ?_
  split
  · exact hnone packet
  refine Safe.bind (ipv4_hdr_len_at_within packet _) ?_
  rw [frame_access.ipv4_hdr_len_at_val]
  split
  · exact hnone packet
  rename_i ip_hdr_len hihl
  obtain ⟨h20, hle⟩ := ipv4_hdr_len_at_some hihl
  refine Safe.bind (within_byte.mpr (by omega)) ?_
  split
  · exact hnone packet
  split
  · exact hnone packet
  rename_i hlen
  refine Safe.bind (within_byte.mpr (by omega)) ?_
  split
  · exact hnone packet
  refine Safe.bind (read_frag_tag_within (by omega)) (Safe.with_tag ?_ _)
  exact open_tunnel_at_safe (by omega) (by omega) (by omega) (by omega)

/-! ## Layer 4 -/

theorem crypto_eth_ipv4_offset_within (pkt : Buf) :
    Within n (frame_access.crypto_eth_ipv4_offset pkt n) := by
  unfold frame_access.crypto_eth_ipv4_offset
  split
  · exact within_pure none
  rw [within_bind, within_word]
  refine ⟨by omega, ?_⟩
  split
  · exact within_pure _
  split
  · split
    · exact within_pure none
    rw [within_bind, within_word]
    refine ⟨by omega, ?_⟩
    split
    · exact within_pure _
    split
    · rename_i h
      rw [within_bind, within_word]
      exact ⟨by omega, within_pure _⟩
    · exact within_pure none
  · exact within_pure none

/-- The IPv4 header starts behind the Ethernet header, and a frame may end there. -/
theorem crypto_eth_ipv4_offset_le {pkt : Buf} {l3_off : Nat}
    (h : crypto_layer4.crypto_eth_ipv4_offset pkt n = some l3_off) : 14 ≤ l3_off ∧ l3_off ≤ n := by
  rcases crypto_layer4.crypto_eth_ipv4_offset_cases h with ⟨rfl, h, -⟩ | ⟨rfl, h, -⟩ | ⟨rfl, h, -⟩
  · omega
  · omega
  · omega

theorem l4_is_tunnel_header_within {packet : Buf} {tunnel_off nonce_size : Nat}
    (h : tunnel_off + nonce_size + 2 ≤ n) :
    Within n (frame_access.l4_is_tunnel_header packet tunnel_off nonce_size) := by
  unfold frame_access.l4_is_tunnel_header
  rw [within_bind, within_byte]
  refine ⟨by omega, ?_⟩
  split
  · exact within_pure false
  · rw [within_bind, within_byte]
    exact ⟨by omega, within_pure _⟩

theorem crypto_layer4_decrypt_safe (hn : 14 ≤ n) (o : Openssl) (tls : Tls) (ctx : PacketCryptoCtx)
    (packet : Buf) : Safe n (frame_access.crypto_layer4_decrypt o tls ctx packet n) (·.1) := by
  have hh : packet_crypto_get_tunnel_hdr_size tls = tls.nonce_size + 2 := rfl
  have hL : L4_WIRE_PORT_LEN = 4 := rfl
  unfold frame_access.crypto_layer4_decrypt
  split
  · exact Safe.ret (by simp)
  refine Safe.bind (crypto_eth_ipv4_offset_within packet) ?_
  rw [frame_access.crypto_eth_ipv4_offset_val]
  split
  · exact Safe.unchanged hn packet
  rename_i l3_off hoff
  obtain ⟨h14, -⟩ := crypto_eth_ipv4_offset_le hoff
  split
  · exact Safe.ret (by simp)
  refine Safe.bind (within_byte.mpr (by omega)) ?_
  split
  · exact Safe.unchanged hn packet
  refine Safe.bind (within_byte.mpr (by omega)) ?_
  dsimp only
  split
  · exact Safe.ret (by simp)
  split
  · exact Safe.unchanged hn packet
  refine Safe.bind (l4_is_tunnel_header_within (by omega)) ?_
  split
  · exact Safe.unchanged hn packet
  · exact open_tunnel_at_safe (by omega) (by omega) (by omega) (by omega)

theorem crypto_layer4_decrypt_fragment_safe (o : Openssl) (tls : Tls) (ctx : PacketCryptoCtx)
    (packet : Buf) :
    Safe n (frame_access.crypto_layer4_decrypt_fragment o tls ctx packet n) fragment_len := by
  have hh : packet_crypto_get_tunnel_hdr_size tls = tls.nonce_size + 2 := rfl
  have hL : L4_WIRE_PORT_LEN = 4 := rfl
  have hnone : ∀ pkt : Buf, Safe n (pure (none, pkt)) fragment_len := fun pkt =>
    Safe.ret (by simp [fragment_len])
  unfold frame_access.crypto_layer4_decrypt_fragment
  split
  · exact hnone packet
  refine Safe.bind (crypto_eth_ipv4_offset_within packet) ?_
  rw [frame_access.crypto_eth_ipv4_offset_val]
  split
  · exact hnone packet
  rename_i l3_off hoff
  obtain ⟨h14, -⟩ := crypto_eth_ipv4_offset_le hoff
  split
  · exact hnone packet
  refine Safe.bind (within_byte.mpr (by omega)) ?_
  split
  · exact hnone packet
  refine Safe.bind (within_byte.mpr (by omega)) ?_
  dsimp only
  split
  · exact hnone packet
  split
  · exact hnone packet
  refine Safe.bind (within_byte.mpr (by omega)) ?_
  split
  · exact hnone packet
  refine Safe.bind (read_frag_tag_within (by omega)) (Safe.with_tag ?_ _)
  exact open_tunnel_at_safe (by omega) (by omega) (by omega) (by omega)

/-! ## Is it a fragment -/

theorem tunnel_of_policy_within (action : PolicyAction) (magic : UInt8) (pkt : Buf)
    (tunnel_off : Nat) (cp : CryptoPolicy) :
    Within n (dispatch_access.tunnel_of_policy action magic pkt n tunnel_off cp) := by
  unfold dispatch_access.tunnel_of_policy
  split
  · exact within_pure false
  split
  · exact within_pure false
  rw [within_bind, within_byte]
  refine ⟨by omega, ?_⟩
  split
  · exact within_pure false
  · rw [within_bind, within_byte]
    exact ⟨by omega, within_pure _⟩

theorem l2_fragment_of_policy_within (pkt : Buf) (cp : CryptoPolicy) :
    Within n (dispatch_access.l2_fragment_of_policy pkt n cp) := by
  unfold dispatch_access.l2_fragment_of_policy
  split
  · exact within_pure false
  split
  · exact within_pure false
  rw [within_bind, within_byte]
  exact ⟨by omega, within_pure _⟩

/-- The tag is read of a policy that has passed the test. -/
theorem fragment_of_within {cfg : AppConfig} {fits : CryptoPolicy → Logged Bool} {pkt : Buf}
    {tag_off : CryptoPolicy → Nat} (hfits : ∀ cp, Within n (fits cp))
    (htag : ∀ cp, (fits cp).val = true → tag_off cp + FRAG_TAG_SIZE ≤ n) :
    Within n (dispatch_access.fragment_of cfg fits pkt tag_off) := by
  unfold dispatch_access.fragment_of
  rw [within_bind, val_findM?]
  refine ⟨within_findM? fun cp _ => hfits cp, ?_⟩
  split
  · exact within_pure none
  · rename_i cp hcp
    rw [within_bind]
    exact ⟨read_frag_tag_within (htag cp (List.find?_some (p := fun cp => (fits cp).val) hcp)),
      within_pure _⟩

theorem frag_require_ipv4_within (pkt : Buf) :
    Within n (dispatch_access.frag_require_ipv4 pkt n) := by
  unfold dispatch_access.frag_require_ipv4
  split
  · exact within_pure none
  rw [within_bind, within_word]
  refine ⟨by omega, ?_⟩
  split
  · exact within_pure none
  · rw [within_bind, within_byte]
    exact ⟨by omega, within_pure _⟩

theorem frag_is_fragment_within (tls : Tls) (cfg : AppConfig) (pkt : Buf) :
    Within n (dispatch_access.frag_is_fragment tls cfg pkt n) := by
  unfold dispatch_access.frag_is_fragment
  rw [within_bind, dispatch_access.frag_require_ipv4_val]
  refine ⟨frag_require_ipv4_within pkt, ?_⟩
  split
  · exact within_pure none
  rename_i ip_hdr_len hihl
  have h34 : 34 ≤ n := by
    unfold fragment.frag_require_ipv4 at hihl
    simp only at hihl
    split at hihl
    · simp at hihl
    · omega
  rw [within_bind, within_byte]
  refine ⟨by omega, ?_⟩
  split
  · exact within_pure none
  split
  · exact within_pure none
  · exact fragment_of_within (tunnel_of_policy_within _ _ pkt _) fun _ _ => by omega

theorem frag_is_fragment_l4_within (tls : Tls) (cfg : AppConfig) (pkt : Buf) :
    Within n (dispatch_access.frag_is_fragment_l4 tls cfg pkt n) := by
  unfold dispatch_access.frag_is_fragment_l4
  split
  · exact within_pure none
  rw [within_bind, within_word]
  refine ⟨by omega, ?_⟩
  split
  · exact within_pure none
  rw [within_bind, within_byte]
  refine ⟨by omega, ?_⟩
  split
  · exact within_pure none
  rw [within_bind, within_byte]
  refine ⟨by omega, ?_⟩
  dsimp only
  split
  · exact within_pure none
  split
  · exact within_pure none
  · exact fragment_of_within (tunnel_of_policy_within _ _ pkt _) fun _ _ => by omega

theorem l2_has_fake_marker_within {fake : Nat} {pkt : Buf} (h : 12 < n) :
    Within n (frame_access.l2_has_fake_marker fake pkt) := by
  unfold frame_access.l2_has_fake_marker
  split
  · exact within_pure false
  · rw [within_bind, within_byte]
    exact ⟨h, within_pure _⟩

theorem frag_is_fragment_l2_within (fake : Nat) (cfg : AppConfig) (pkt : Buf) :
    Within n (dispatch_access.frag_is_fragment_l2 fake cfg pkt n) := by
  unfold dispatch_access.frag_is_fragment_l2
  split
  · exact within_pure none
  rw [within_bind]
  refine ⟨l2_has_fake_marker_within (by omega), ?_⟩
  split
  · exact within_pure none
  · refine fragment_of_within (l2_fragment_of_policy_within pkt) fun cp hcp => ?_
    rw [dispatch_access.l2_fragment_of_policy_val] at hcp
    simp only [Bool.and_eq_true, decide_eq_true_eq] at hcp
    exact hcp.1.2

end ne_ip.length_safety
