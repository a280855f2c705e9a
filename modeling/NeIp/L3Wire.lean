-- The laws of the layer 3 wire format: what the sender writes after the nonce,
-- what the parser of the policy id wants there, and when the two agree.
import NeIp.Sample

open byte_buf ne_ip.packet_crypto ne_ip.tunnel ne_ip.config ne_ip.crypto_layer3
open ne_ip.crypto_layer4 ne_ip.crypto_dispatch ne_ip.forwarder ne_ip.sample

namespace ne_ip.l3_wire

/-! ## The parser on a frame of the sender -/

/-- The fake protocol that a thread looks for. -/
def markerOf (tls : Tls) : UInt8 := if tls.fake_protocol = 0 then 99 else tls.fake_protocol

/-- What a policy must be for the parser to stop at it. -/
def fits (magic : UInt8) (pkt : Buf) (pkt_len tunnel_off : Nat) (cp : CryptoPolicy) : Bool :=
  cp.action == .encrypt_l3 && cp.nonce_size != 0 &&
    decide (tunnel_off + cp.nonce_size + 1 < pkt_len) &&
    pkt (tunnel_off + cp.nonce_size + 1) == magic &&
    pkt (tunnel_off + cp.nonce_size) == cp.wire_id

/-- A frame with the ethertype, header length and marker of `crypto_layer3_encrypt`. -/
structure Marked (tls : Tls) (pkt : Buf) (ihl : Nat) : Prop where
  ipv4 : be16 pkt 12 = 0x0800
  ihl_eq : ip_hdr_len_at pkt 14 = ihl
  ihl_ge : 20 ≤ ihl
  marker : pkt IPV4_PROTO_OFF = tls.fake_protocol

/-- The parser compares the marker and the length, and then looks for a policy that fits. -/
theorem crypto_l3_extract_policy_id_eq (magic : UInt8) {stls : Tls} (tls : Tls) (cfg : AppConfig)
    {pkt : Buf} {pkt_len ihl : Nat} (h : Marked stls pkt ihl) (hl : 14 + ihl + 2 ≤ pkt_len) :
    crypto_l3_extract_policy_id magic tls cfg pkt pkt_len =
      if markerOf tls = stls.fake_protocol ∧ 14 + ihl + tls.nonce_size + 2 ≤ pkt_len then
        (cfg.policies.find? (fits magic pkt pkt_len (14 + ihl))).map (·.wire_id)
      else none := by
  have h20 := h.ihl_ge
  have hm : pkt (14 + 9) = stls.fake_protocol := h.marker
  have hh : packet_crypto_get_tunnel_hdr_size tls = tls.nonce_size + 2 := rfl
  unfold crypto_l3_extract_policy_id
  simp only [h.ihl_eq, h.ipv4, hm, hh]
  rw [← show markerOf tls = if tls.fake_protocol = 0 then 99 else tls.fake_protocol from rfl]
  split
  · rename_i hbad
    rw [if_neg]
    rintro ⟨hc1, hc2⟩
    rw [hc1] at hbad
    simp only [ne_eq, not_true_eq_false, false_or] at hbad
    omega
  · rename_i hgood
    simp only [not_or, not_not] at hgood
    obtain ⟨-, -, -, -, hmk, hlen⟩ := hgood
    rw [if_pos ⟨hmk.symm, by omega⟩]
    rfl

/-- On the sender's frame the parser stops at the sender's policy or nowhere: nowhere unless
the type byte, which is the protocol, is the magic. -/
theorem find_fits_eq {magic proto : UInt8} {policies : List CryptoPolicy}
    (hd : DistinctWireIds policies) {p : CryptoPolicy} (hp : p ∈ policies)
    (hl3 : p.action = .encrypt_l3)
    (hsame : ∀ q ∈ policies, q.action = .encrypt_l3 → q.nonce_size = p.nonce_size)
    (hns : p.nonce_size ≠ 0) {pkt : Buf} {pkt_len tunnel_off : Nat}
    (hlen : tunnel_off + p.nonce_size + 1 < pkt_len)
    (hid : pkt (tunnel_off + p.nonce_size) = p.wire_id)
    (htype : pkt (tunnel_off + p.nonce_size + 1) = proto) :
    policies.find? (fits magic pkt pkt_len tunnel_off) = if magic = proto then some p else none := by
  split
  · rename_i hm
    have hfp : fits magic pkt pkt_len tunnel_off p = true := by
      unfold fits
      rw [hl3, htype, hid, hm, decide_eq_true hlen]
      simp [hns]
    cases hf : policies.find? (fits magic pkt pkt_len tunnel_off) with
    | none =>
      rw [List.find?_eq_none] at hf
      exact absurd hfp (hf p hp)
    | some q =>
      have hq := List.mem_of_find?_eq_some hf
      have hfq := List.find?_some hf
      unfold fits at hfq
      simp only [Bool.and_eq_true, beq_iff_eq, bne_iff_ne, decide_eq_true_eq] at hfq
      have hqid : q.wire_id = p.wire_id := by
        rw [← hfq.2, hsame q hq hfq.1.1.1.1, hid]
      rw [List.inj_on_of_nodup_map hd hq hp hqid]
  · rename_i hm
    rw [List.find?_eq_none]
    intro q hq hfq
    unfold fits at hfq
    simp only [Bool.and_eq_true, beq_iff_eq] at hfq
    rw [hsame q hq hfq.1.1.1.1, htype] at hfq
    exact hm hfq.1.2.symm

/-- `crypto_layer3_encrypt` on a thread that has taken over policy `p`, whose context is
ready. -/
def encryptUnder (o : Openssl) (p : CryptoPolicy) (tls : Tls) (counter : Nat) (packet : Buf)
    (pkt_len : Nat) : EncResult :=
  crypto_layer3_encrypt o (crypto_apply_from_policy p tls) (init_ctx o p.aes_bits p.key.toList)
    counter packet pkt_len

/-- An encapsulated packet: its header length, its length on the wire, and the frame. -/
theorem encryptUnder_frame {o : Openssl} (ho : o.Lawful) {p : CryptoPolicy}
    (h4 : 4 ≤ p.nonce_size) {tls : Tls} {counter : Nat} {packet : Buf} {pkt_len n : Nat}
    (henc : (encryptUnder o p tls counter packet pkt_len).ret = some n) (hn : n ≠ pkt_len) :
    pkt_is_ipv4 packet pkt_len = true ∧
    ipv4_hdr_len_at packet pkt_len ETH_HEADER_SIZE = some (ip_hdr_len_at packet 14) ∧
    n = pkt_len + (packet_crypto_get_tunnel_hdr_size (crypto_apply_from_policy p tls) +
      tag_overhead (crypto_apply_from_policy p tls)) ∧
    L3Frame o (crypto_apply_from_policy p tls) (init_ctx o p.aes_bits p.key.toList) counter packet
      pkt_len (ip_hdr_len_at packet 14) (encryptUnder o p tls counter packet pkt_len).pkt := by
  unfold encryptUnder at henc ⊢
  rcases crypto_layer3_encrypt_cases ho (crypto_apply_from_policy p tls)
    (init_ctx o p.aes_bits p.key.toList) counter packet pkt_len h4 with
    hnone | ⟨hsome, -, -⟩ | ⟨ihl, hv4, hihl, -, hsome, hf⟩
  · rw [hnone] at henc
    simp at henc
  · rw [hsome] at henc
    exact absurd (Option.some.inj henc).symm hn
  · rw [hsome] at henc
    obtain rfl : ihl = ip_hdr_len_at packet 14 := (ipv4_hdr_len_at_some hihl).1
    exact ⟨hv4, hihl, (Option.some.inj henc).symm, hf⟩

/-- The parser attributes an encapsulated packet to its policy exactly when the thread looks
for the fake protocol, the thread's nonce size fits in, and the protocol is the magic. -/
theorem extract_of_frame {o : Openssl} (magic : UInt8) {cfg : AppConfig}
    (hd : DistinctWireIds cfg.policies) {p : CryptoPolicy} (hp : p ∈ cfg.policies)
    (hl3 : p.action = .encrypt_l3)
    (hsame : ∀ q ∈ cfg.policies, q.action = .encrypt_l3 → q.nonce_size = p.nonce_size)
    (h4 : 4 ≤ p.nonce_size) {tls : Tls} {ctx : PacketCryptoCtx} {counter : Nat}
    {packet out : Buf} {pkt_len ihl n : Nat} (hv4 : pkt_is_ipv4 packet pkt_len = true)
    (hihl : ipv4_hdr_len_at packet pkt_len ETH_HEADER_SIZE = some ihl)
    (hn : pkt_len + (p.nonce_size + 2) ≤ n)
    (hf : L3Frame o (crypto_apply_from_policy p tls) ctx counter packet pkt_len ihl out)
    (rtls : Tls) :
    crypto_l3_extract_policy_id magic rtls cfg out n =
      if markerOf rtls = (crypto_apply_from_policy p tls).fake_protocol ∧
          14 + ihl + rtls.nonce_size + 2 ≤ n then
        (if magic = packet IPV4_PROTO_OFF then some p else none).map (·.wire_id)
      else none := by
  have hE : ETH_HEADER_SIZE = 14 := rfl
  obtain ⟨hieq, h20, hfit⟩ := ipv4_hdr_len_at_some hihl
  have hmarked : Marked (crypto_apply_from_policy p tls) out ihl := by
    refine ⟨?_, ?_, h20, hf.marker⟩
    · rw [be16_congr (hf.headers 12 (by omega) (by decide) (by omega) (by omega))
        (hf.headers 13 (by omega) (by decide) (by omega) (by omega))]
      unfold pkt_is_ipv4 at hv4
      simp only [Bool.and_eq_true, beq_iff_eq] at hv4
      exact hv4.2
    · unfold ip_hdr_len_at
      rw [hf.headers 14 (by omega) (by decide) (by omega) (by omega)]
      exact hieq.symm
  have hfind : cfg.policies.find? (fits magic out n (14 + ihl)) =
      if magic = packet IPV4_PROTO_OFF then some p else none :=
    find_fits_eq hd hp hl3 hsame (by omega) (by omega) hf.tunnelled.policy_id hf.tunnelled.type_byte
  rw [crypto_l3_extract_policy_id_eq magic rtls cfg hmarked (by omega), hfind]

/-! ## Agreement of sender and receiver -/

/-- The receiver gives the packet to the policy with id `wire_id` and gets it back: 0 is
returned with the old, shorter length, and but for the two checksums, which the receiver
computes anew, every byte of it is the sender's. -/
structure Received (magic : UInt8) (tls : Tls) (cfg : AppConfig) (wire_id : UInt8)
    (packet : Buf) (pkt_len : Nat) (out : Buf) (n : Nat) (r : DispatchResult) : Prop where
  attributed : crypto_l3_extract_policy_id magic tls cfg out n = some wire_id
  ok : r.ok = true
  len : r.pkt_len = pkt_len
  shorter : r.pkt_len < n
  restored : ∀ i, i < pkt_len → (i < ETH_HEADER_SIZE + 10 ∨ ETH_HEADER_SIZE + 12 ≤ i) →
    (i < ETH_HEADER_SIZE + ip_hdr_len_at packet 14 + transport_cksum_off (packet IPV4_PROTO_OFF) ∨
      ETH_HEADER_SIZE + ip_hdr_len_at packet 14 +
        transport_cksum_off (packet IPV4_PROTO_OFF) + 2 ≤ i) →
    r.pkt i = packet i

/-- Sender and receiver, with AES under one key, agree exactly when the type byte that the sender
writes, which is the protocol of the packet, is the magic that the receiver wants, the receiving
thread looks for the sender's fake protocol, and the nonce size of its last packet fits into the
frame. -/
theorem the_receiver_attributes_a_packet_iff_its_protocol_is_the_magic {o : Openssl}
    (ho : o.Lawful) (magic : UInt8) (fake : Nat) (cfg : AppConfig)
    (hd : DistinctWireIds cfg.policies)
    {pi : Nat} {p : CryptoPolicy} (hp : cfg.policies[pi]? = some p) (hl3 : p.action = .encrypt_l3)
    (hsame : ∀ q ∈ cfg.policies, q.action = .encrypt_l3 → q.nonce_size = p.nonce_size)
    (h4 : 4 ≤ p.nonce_size) (h16 : p.nonce_size ≤ 16) (stls : Tls) (counter : Nat)
    (packet : Buf) (pkt_len n : Nat)
    (hproto : packet IPV4_PROTO_OFF = 6 ∨ packet IPV4_PROTO_OFF = 17)
    (htrans : ETH_HEADER_SIZE + ip_hdr_len_at packet 14 + 8 ≤ pkt_len)
    (hports : p.crypto_mode = .ctr →
      ¬ (be16 packet (ETH_HEADER_SIZE + ip_hdr_len_at packet 14) = 0 ∧
        be16 packet (ETH_HEADER_SIZE + ip_hdr_len_at packet 14 + 2) = 0))
    (henc : (encryptUnder o p stls counter packet pkt_len).ret = some n) (hn : n ≠ pkt_len)
    (dctx : CryptoDispatchCtx) (ht : TablesOf o cfg.policies dctx.active)
    (hready : dctx.active.ready pi = true) (rtls : Tls) (hevp : rtls.evp_ok = true)
    (hk : SameKey (crypto_apply_from_policy p stls) (init_ctx o p.aes_bits p.key.toList)
      (crypto_apply_from_policy p rtls) (init_ctx o p.aes_bits p.key.toList))
    (scratch_sz : Nat) :
    Received magic rtls cfg p.wire_id packet pkt_len
        (encryptUnder o p stls counter packet pkt_len).pkt n
        (crypto_decrypt_packet_auto_by_action o magic fake true cfg dctx .encrypt_l3 rtls
          (encryptUnder o p stls counter packet pkt_len).pkt n scratch_sz) ↔
      magic = packet IPV4_PROTO_OFF ∧
        markerOf rtls = (crypto_apply_from_policy p stls).fake_protocol ∧
        ETH_HEADER_SIZE + ip_hdr_len_at packet 14 + rtls.nonce_size + 2 ≤ n := by
  have hE : ETH_HEADER_SIZE = 14 := rfl
  have hmem := List.mem_of_getElem? hp
  have hh : packet_crypto_get_tunnel_hdr_size (crypto_apply_from_policy p stls) =
    p.nonce_size + 2 := rfl
  obtain ⟨hv4, hihl, hlen, hf⟩ := encryptUnder_frame ho h4 henc hn
  generalize (encryptUnder o p stls counter packet pkt_len).pkt = out at hf ⊢
  have hex := extract_of_frame magic hd hmem hl3 hsame h4 hv4 hihl (n := n) (by omega) hf rtls
  constructor
  · intro hrec
    rw [hrec.attributed] at hex
    split at hex
    · rename_i hc
      by_cases hm : magic = packet IPV4_PROTO_OFF
      · exact ⟨hm, hc.1, hc.2⟩
      · rw [if_neg hm] at hex
        simp at hex
    · simp at hex
  · rintro ⟨hm, hmk, hle⟩
    rw [if_pos ⟨hmk, hle⟩, if_pos hm] at hex
    have hne : cfg.policies ≠ [] := List.ne_nil_of_mem hmem
    -- the receiving thread takes over the policy, and with it its AES and nonce size
    have hfake : (crypto_apply_from_policy p rtls).fake_protocol =
        (crypto_apply_from_policy p stls).fake_protocol := by
      rw [← hmk]
      unfold crypto_apply_from_policy markerOf
      simp only [hl3, true_and]
    obtain ⟨pkt', hdec, hback⟩ := crypto_layer3_decrypt_frame ho
      (crypto_apply_from_policy p rtls) (dctx.active.ctx pi) hf hv4 hihl ⟨rfl, rfl⟩ rfl h16 hevp
      (by rw [ht.ctx_eq pi p hp hready]; exact hk) (by rw [ht.ctx_eq pi p hp hready]; rfl) hfake
      (by rcases hproto with h | h <;> rw [h] <;> decide) (fun hctr =>
        verify_decrypted_payload_read _ _ _ _ (by omega) (hports hctr))
    rw [← hlen] at hdec
    have htry : try_tables (crypto_layer3_decrypt o) dctx.active .encrypt_l3 p.wire_id
        (fun _ => true) rtls out n =
        { ok := true, pkt := pkt', pkt_len := pkt_len, tls := crypto_apply_from_policy p rtls } := by
      rw [← hl3, try_tables_eq ht hd hp hready rfl]
      unfold try_policy
      simp only [hdec]
      rw [if_pos (by omega)]
    have hres : crypto_decrypt_packet_auto_by_action o magic fake true cfg dctx .encrypt_l3 rtls
        out n scratch_sz =
        { ok := true, pkt := pkt', pkt_len := pkt_len, tls := crypto_apply_from_policy p rtls } := by
      unfold crypto_decrypt_packet_auto_by_action
      rw [if_neg (by decide), if_neg hne]
      simp only [hex, Option.map_some]
      unfold try_current_then_prev
      rw [htry]
      rfl
    rw [hres]
    exact ⟨hex, rfl, rfl, by simp only; omega, hback⟩

/-- A UDP datagram where the magic is 17: the receiver gets it back. -/
theorem a_udp_packet_is_received_when_the_magic_is_17 :
    Received 17 {} (sampleCfg [samplePolicy 7 .encrypt_l3] (by decide)) 7 (ofBytes udpPing) 46
      (encryptUnder sampleOpenssl (samplePolicy 7 .encrypt_l3) {} 0 (ofBytes udpPing) 46).pkt 76
      (crypto_decrypt_packet_auto_by_action sampleOpenssl 17 0 true
        (sampleCfg [samplePolicy 7 .encrypt_l3] (by decide))
        (dispatch_ctx (sampleRuntime [samplePolicy 7 .encrypt_l3] (by decide)) 2) .encrypt_l3 {}
        (encryptUnder sampleOpenssl (samplePolicy 7 .encrypt_l3) {} 0 (ofBytes udpPing) 46).pkt
        76 2048) :=
  (the_receiver_attributes_a_packet_iff_its_protocol_is_the_magic sampleOpenssl_lawful 17 0
    (sampleCfg [samplePolicy 7 .encrypt_l3] (by decide)) (by decide)
    (show [samplePolicy 7 .encrypt_l3][0]? = some (samplePolicy 7 .encrypt_l3) from rfl) rfl
    (by simp [sampleCfg]) (by decide) (by decide) {} 0
    (ofBytes udpPing) 46 76 (by decide) (by decide) (by decide) (by rfl) (by decide)
    (dispatch_ctx (sampleRuntime [samplePolicy 7 .encrypt_l3] (by decide)) 2)
    (sampleRuntime_dispatch _ _ 2) (by rfl) {} rfl (SameKey.of_same_sides rfl _) 2048).mpr
    (by decide)

/-- Whatever byte the magic is, a TCP or a UDP packet is not recognised: the receiver with
the same policy, whose context is ready, returns 0 and leaves the ciphertext in place. -/
theorem some_packet_is_left_encrypted_whatever_the_magic :
    (dispatch_ctx (sampleRuntime [samplePolicy 7 .encrypt_l3] (by decide)) 2).active.ready 0 =
      true ∧
    ∀ magic : UInt8, ∃ (packet : Bytes) (n : Nat),
      (packet = tcpPing ∨ packet = udpPing) ∧ packet.length < n ∧
      (encryptUnder sampleOpenssl (samplePolicy 7 .encrypt_l3) {} 0 (ofBytes packet)
        packet.length).ret = some n ∧
      crypto_decrypt_packet_auto_by_action sampleOpenssl magic 0 true
        (sampleCfg [samplePolicy 7 .encrypt_l3] (by decide))
        (dispatch_ctx (sampleRuntime [samplePolicy 7 .encrypt_l3] (by decide)) 2) .encrypt_l3 {}
        (encryptUnder sampleOpenssl (samplePolicy 7 .encrypt_l3) {} 0 (ofBytes packet)
          packet.length).pkt n 2048 =
        { ok := true
          pkt := (encryptUnder sampleOpenssl (samplePolicy 7 .encrypt_l3) {} 0 (ofBytes packet)
            packet.length).pkt
          pkt_len := n
          tls := {} } := by
  refine ⟨by rfl, ?_⟩
  intro magic
  have hnone : ∀ packet : Bytes, ∀ n,
      (encryptUnder sampleOpenssl (samplePolicy 7 .encrypt_l3) {} 0 (ofBytes packet)
        packet.length).ret = some n → n ≠ packet.length → magic ≠ ofBytes packet IPV4_PROTO_OFF →
      crypto_l3_extract_policy_id magic {} (sampleCfg [samplePolicy 7 .encrypt_l3] (by decide))
        (encryptUnder sampleOpenssl (samplePolicy 7 .encrypt_l3) {} 0 (ofBytes packet)
          packet.length).pkt n = none := by
    intro packet n henc hn hm
    obtain ⟨hv4, hihl, hlen, hf⟩ := encryptUnder_frame sampleOpenssl_lawful (by decide) henc hn
    have hns : packet_crypto_get_tunnel_hdr_size
      (crypto_apply_from_policy (samplePolicy 7 .encrypt_l3) {}) = 12 + 2 := rfl
    have hle : packet.length + ((samplePolicy 7 .encrypt_l3).nonce_size + 2) ≤ n := by
      rw [hlen, hns]
      exact Nat.add_le_add_left (Nat.le_add_right _ _) _
    rw [extract_of_frame magic (by decide) (by simp [sampleCfg]) rfl (by simp [sampleCfg])
      (by decide) hv4 hihl hle hf {}, if_neg hm]
    split <;> rfl
  by_cases h6 : magic = 6
  · refine ⟨udpPing, 76, Or.inr rfl, by decide, by rfl, ?_⟩
    unfold crypto_decrypt_packet_auto_by_action
    rw [if_neg (by decide), if_neg (by decide)]
    simp only [hnone udpPing 76 (by rfl) (by decide) (by rw [h6]; decide)]
  · refine ⟨tcpPing, 88, Or.inl rfl, by decide, by rfl, ?_⟩
    unfold crypto_decrypt_packet_auto_by_action
    rw [if_neg (by decide), if_neg (by decide)]
    simp only [hnone tcpPing 88 (by rfl) (by decide) h6]

end ne_ip.l3_wire
