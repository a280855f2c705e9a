-- Layer 3 encryption (crypto_layer3.c): the IPv4 payload goes behind a tunnel
-- header of nonce, policy id and one type byte, under a fake protocol number.
import NeIp.Tunnel

open byte_buf ne_ip.packet_crypto ne_ip.tunnel

namespace ne_ip.crypto_layer3

def MIN_ETH_PKT : Nat := ETH_HEADER_SIZE + 8
def IPV4_HDR_SIZE : Nat := 20
def IPV4_PROTO_OFF : Nat := ETH_HEADER_SIZE + 9
def IPV4_TOTLEN_OFF : Nat := ETH_HEADER_SIZE + 2
def TCP_CKSUM_OFF : Nat := 16
def UDP_CKSUM_OFF : Nat := 6
def CRYPTO_L3_FRAG_MAGIC : UInt8 := 0x5C

def pkt_is_ipv4 (packet : Buf) (pkt_len : Nat) : Bool :=
  !decide (pkt_len < ETH_HEADER_SIZE + IPV4_HDR_SIZE) && be16 packet 12 == 0x0800

def ipv4_hdr_len_at (packet : Buf) (pkt_len l3_off : Nat) : Option Nat :=
  if pkt_len < l3_off + 20 then none
  else
    let ihl := (packet l3_off).toNat % 16 * 4
    if ihl < 20 ∨ pkt_len < l3_off + ihl then none else some ihl

def l3_patch_ipv4 (packet : Buf) (ip_hdr_len ip_total : Nat) : Buf :=
  patch_ipv4 packet ETH_HEADER_SIZE ip_hdr_len ip_total

def l3_is_frag_tunnel (packet : Buf) (tunnel_off nonce_size : Nat) : Bool :=
  packet (tunnel_off + nonce_size + 1) == CRYPTO_L3_FRAG_MAGIC

def verify_decrypted_payload (orig_proto : UInt8) (payload : Bytes) : Bool :=
  if orig_proto = 6 ∨ orig_proto = 17 then
    if payload.length < 4 then false
    else
      let p := ofBytes payload
      !(be16 p 0 == 0 && be16 p 2 == 0)
  else true

def crypto_layer3_frag_meta_len (tls : Tls) : Nat :=
  packet_crypto_get_tunnel_hdr_size tls + FRAG_TAG_SIZE + tag_overhead tls

def crypto_layer3_encrypt (o : Openssl) (tls : Tls) (ctx : PacketCryptoCtx) (counter : Nat)
    (packet : Buf) (pkt_len : Nat) : EncResult :=
  if !ctx.initialized ∨ pkt_len < MIN_ETH_PKT then { ret := none, pkt := packet, counter }
  else if !pkt_is_ipv4 packet pkt_len then { ret := some pkt_len, pkt := packet, counter }
  else
    match ipv4_hdr_len_at packet pkt_len ETH_HEADER_SIZE with
    | none => { ret := none, pkt := packet, counter }
    | some ip_hdr_len =>
      let tunnel_off := ETH_HEADER_SIZE + ip_hdr_len
      if tunnel_off + tls.nonce_size + 2 ≤ pkt_len ∧
          l3_is_frag_tunnel packet tunnel_off tls.nonce_size then
        { ret := some pkt_len, pkt := packet, counter }
      else
        let orig_proto := packet IPV4_PROTO_OFF
        let r := encrypt_tunnel_at o tls ctx counter packet tunnel_off (pkt_len - tunnel_off)
          orig_proto
        match r.ret with
        | none => r
        | some len =>
          let pkt := write r.pkt IPV4_PROTO_OFF [tls.fake_protocol]
          let total_overhead := packet_crypto_get_tunnel_hdr_size tls + tag_overhead tls
          let old_totlen := be16 pkt IPV4_TOTLEN_OFF
          { r with
            ret := some len
            pkt := l3_patch_ipv4 pkt ip_hdr_len (old_totlen + total_overhead) }

/-- The transport checksum that `crypto_layer3_decrypt` recomputes at the end. -/
def fix_transport_checksum (packet : Buf) (ip_hdr_len : Nat) (orig_proto : UInt8)
    (seg_len : Nat) : Buf :=
  let transport_off := ETH_HEADER_SIZE + ip_hdr_len
  if orig_proto = 6 ∧ 20 ≤ seg_len then
    let packet := write packet (transport_off + TCP_CKSUM_OFF) [0, 0]
    write packet (transport_off + TCP_CKSUM_OFF) (be16Bytes
      (crypto_calc_tcp_checksum packet ETH_HEADER_SIZE ip_hdr_len transport_off seg_len))
  else if orig_proto = 17 ∧ 8 ≤ seg_len then
    let packet := write packet (transport_off + UDP_CKSUM_OFF) [0, 0]
    write packet (transport_off + UDP_CKSUM_OFF) (be16Bytes
      (crypto_calc_udp_checksum packet ETH_HEADER_SIZE ip_hdr_len transport_off seg_len))
  else packet

/-- The length it returns and the packet, which a failure leaves changed. -/
def crypto_layer3_decrypt (o : Openssl) (tls : Tls) (ctx : PacketCryptoCtx) (packet : Buf)
    (pkt_len : Nat) : Option Nat × Buf :=
  if !ctx.initialized ∨ pkt_len < MIN_ETH_PKT then (none, packet)
  else if !pkt_is_ipv4 packet pkt_len then (some pkt_len, packet)
  else
    match ipv4_hdr_len_at packet pkt_len ETH_HEADER_SIZE with
    | none => (some pkt_len, packet)
    | some ip_hdr_len =>
      let tunnel_off := ETH_HEADER_SIZE + ip_hdr_len
      let tunnel_hdr_size := packet_crypto_get_tunnel_hdr_size tls
      if pkt_len < tunnel_off + tunnel_hdr_size then (some pkt_len, packet)
      else if l3_is_frag_tunnel packet tunnel_off tls.nonce_size then (some pkt_len, packet)
      else if packet IPV4_PROTO_OFF ≠ tls.fake_protocol then (some pkt_len, packet)
      else
        let nonce := read packet tunnel_off tls.nonce_size
        let orig_proto := packet (tunnel_off + tls.nonce_size + 1)
        let packet := write packet IPV4_PROTO_OFF [orig_proto]
        let enc_off := tunnel_off + tunnel_hdr_size
        match decrypt_in_place o tls ctx nonce (verify_decrypted_payload orig_proto) packet
            enc_off (pkt_len - enc_off) with
        | (none, packet) => (none, packet)
        | (some enc_len, packet) =>
          let total_overhead := tunnel_hdr_size + tag_overhead tls
          let packet := write packet tunnel_off (read packet enc_off enc_len)
          let packet := write packet IPV4_PROTO_OFF [orig_proto]
          let old_totlen := be16 packet IPV4_TOTLEN_OFF
          -- the 16 bit subtraction wraps
          let packet := l3_patch_ipv4 packet ip_hdr_len (old_totlen + 65536 - total_overhead)
          let dec_pkt_len := pkt_len - total_overhead
          (some dec_pkt_len,
            fix_transport_checksum packet ip_hdr_len orig_proto (dec_pkt_len - tunnel_off))

/-- `out_buf` is the buffer the fragment is put into. The return code is `out_len`. -/
def crypto_layer3_encrypt_fragment_single (o : Openssl) (tls : Tls) (ctx : PacketCryptoCtx)
    (counter : Nat) (eth_hdr ip_hdr enc_plain : Bytes) (pkt_id : Nat) (frag_index : UInt8)
    (out_buf : Buf) (out_max : Nat) : EncResult :=
  let tunnel_off := ETH_HEADER_SIZE + ip_hdr.length
  let enc_off := tunnel_off + packet_crypto_get_tunnel_hdr_size tls + FRAG_TAG_SIZE
  if !ctx.initialized ∨ enc_plain.length = 0 ∨ ip_hdr.length < 20 ∨
      out_max < enc_off + enc_plain.length + tag_overhead tls then
    { ret := none, pkt := out_buf, counter }
  else
    let out := write (write out_buf 0 eth_hdr) ETH_HEADER_SIZE ip_hdr
    let out := write out IPV4_PROTO_OFF [tls.fake_protocol]
    encrypt_fragment_at o tls ctx counter out tunnel_off ip_hdr.length CRYPTO_L3_FRAG_MAGIC
      enc_plain pkt_id frag_index

/-- The length it returns, the packet, and `out_pkt_id` and `out_frag_index`. -/
def crypto_layer3_decrypt_fragment (o : Openssl) (tls : Tls) (ctx : PacketCryptoCtx)
    (packet : Buf) (pkt_len : Nat) : Option (Nat × Nat × UInt8) × Buf :=
  if !ctx.initialized ∨ !pkt_is_ipv4 packet pkt_len then (none, packet)
  else
    match ipv4_hdr_len_at packet pkt_len ETH_HEADER_SIZE with
    | none => (none, packet)
    | some ip_hdr_len =>
      let tunnel_off := ETH_HEADER_SIZE + ip_hdr_len
      let tag_off := tunnel_off + packet_crypto_get_tunnel_hdr_size tls
      let enc_off := tag_off + FRAG_TAG_SIZE
      if packet IPV4_PROTO_OFF ≠ tls.fake_protocol ∨ pkt_len < enc_off ∨
          !l3_is_frag_tunnel packet tunnel_off tls.nonce_size then (none, packet)
      else
        let tag := read_frag_tag packet tag_off
        let r := open_tunnel_at o tls ctx packet pkt_len ETH_HEADER_SIZE ip_hdr_len tunnel_off
          enc_off
        (r.1.map (·, tag), r.2)

/-! ## What encryption does to a packet -/

theorem ipv4_hdr_len_at_some {packet : Buf} {pkt_len l3_off ihl : Nat}
    (h : ipv4_hdr_len_at packet pkt_len l3_off = some ihl) :
    ihl = (packet l3_off).toNat % 16 * 4 ∧ 20 ≤ ihl ∧ l3_off + ihl ≤ pkt_len := by
  unfold ipv4_hdr_len_at at h
  split at h
  · simp at h
  · simp only at h
    split at h
    · simp at h
    · have hi := Option.some.inj h
      omega

/-- The ethertype and the header length of a longer frame with the same headers. -/
theorem pkt_is_ipv4_congr {b c : Buf} {m n : Nat} (h : pkt_is_ipv4 b m = true) (hmn : m ≤ n)
    (h12 : c 12 = b 12) (h13 : c 13 = b 13) : pkt_is_ipv4 c n = true := by
  unfold pkt_is_ipv4 at h ⊢
  rw [be16_congr h12 h13]
  simp only [Bool.and_eq_true, Bool.not_eq_eq_eq_not, Bool.not_true, decide_eq_false_iff_not] at h ⊢
  exact ⟨by omega, h.2⟩

theorem ipv4_hdr_len_at_congr {b c : Buf} {m n l3_off ihl : Nat}
    (h : ipv4_hdr_len_at b m l3_off = some ihl) (hmn : m ≤ n) (hc : c l3_off = b l3_off) :
    ipv4_hdr_len_at c n l3_off = some ihl := by
  obtain ⟨he, h20, hle⟩ := ipv4_hdr_len_at_some h
  unfold ipv4_hdr_len_at
  rw [if_neg (by omega), hc]
  simp only
  rw [← he, if_neg (by omega)]

/-- The early exit on a payload that looks like a fragment. -/
def skips (tls : Tls) (packet : Buf) (pkt_len ip_hdr_len : Nat) : Prop :=
  ETH_HEADER_SIZE + ip_hdr_len + tls.nonce_size + 2 ≤ pkt_len ∧
    l3_is_frag_tunnel packet (ETH_HEADER_SIZE + ip_hdr_len) tls.nonce_size = true

instance (tls : Tls) (packet : Buf) (pkt_len ip_hdr_len : Nat) :
    Decidable (skips tls packet pkt_len ip_hdr_len) := inferInstanceAs (Decidable (_ ∧ _))

/-- What the receiver of an encapsulated packet gets. -/
structure L3Frame (o : Openssl) (tls : Tls) (ctx : PacketCryptoCtx) (counter : Nat)
    (packet : Buf) (pkt_len ip_hdr_len : Nat) (out : Buf) : Prop where
  tunnelled : Tunnelled o tls ctx counter
    (read packet (ETH_HEADER_SIZE + ip_hdr_len) (pkt_len - (ETH_HEADER_SIZE + ip_hdr_len)))
    out (ETH_HEADER_SIZE + ip_hdr_len) 2 (packet IPV4_PROTO_OFF)
  marker : out IPV4_PROTO_OFF = tls.fake_protocol
  totlen : be16 out IPV4_TOTLEN_OFF = (be16 packet IPV4_TOTLEN_OFF +
    (packet_crypto_get_tunnel_hdr_size tls + tag_overhead tls)) % 65536
  headers : ∀ i, i < ETH_HEADER_SIZE + ip_hdr_len → i ≠ IPV4_PROTO_OFF →
    (i < 16 ∨ 18 ≤ i) → (i < 24 ∨ 26 ≤ i) → out i = packet i

/-- The three outcomes of layer 3 encryption. -/
theorem crypto_layer3_encrypt_cases {o : Openssl} (ho : o.Lawful) (tls : Tls)
    (ctx : PacketCryptoCtx) (counter : Nat) (packet : Buf) (pkt_len : Nat)
    (hns : 4 ≤ tls.nonce_size) :
    (crypto_layer3_encrypt o tls ctx counter packet pkt_len).ret = none ∨
    ((crypto_layer3_encrypt o tls ctx counter packet pkt_len).ret = some pkt_len ∧
      (crypto_layer3_encrypt o tls ctx counter packet pkt_len).pkt = packet ∧
      (pkt_is_ipv4 packet pkt_len = false ∨
        ∃ ihl, ipv4_hdr_len_at packet pkt_len ETH_HEADER_SIZE = some ihl ∧
          skips tls packet pkt_len ihl)) ∨
    ∃ ihl, pkt_is_ipv4 packet pkt_len = true ∧
      ipv4_hdr_len_at packet pkt_len ETH_HEADER_SIZE = some ihl ∧
      ¬ skips tls packet pkt_len ihl ∧
      (crypto_layer3_encrypt o tls ctx counter packet pkt_len).ret =
        some (pkt_len + (packet_crypto_get_tunnel_hdr_size tls + tag_overhead tls)) ∧
      L3Frame o tls ctx counter packet pkt_len ihl
        (crypto_layer3_encrypt o tls ctx counter packet pkt_len).pkt := by
  unfold crypto_layer3_encrypt
  split
  · exact Or.inl rfl
  split
  · rename_i h4
    exact Or.inr (Or.inl ⟨rfl, rfl, Or.inl (by simpa using h4)⟩)
  rename_i h4
  split
  · exact Or.inl rfl
  rename_i ihl hihl
  obtain ⟨-, h20, hle⟩ := ipv4_hdr_len_at_some hihl
  simp only
  split
  · rename_i hsk
    exact Or.inr (Or.inl ⟨rfl, rfl, Or.inr ⟨ihl, hihl, hsk⟩⟩)
  rename_i hsk
  cases hr : (encrypt_tunnel_at o tls ctx counter packet (ETH_HEADER_SIZE + ihl)
    (pkt_len - (ETH_HEADER_SIZE + ihl)) (packet IPV4_PROTO_OFF)).ret with
  | none => exact Or.inl hr
  | some n =>
    obtain ⟨hn, hb, ht⟩ := encrypt_tunnel_at_tunnelled ho hns hr
    have hE : ETH_HEADER_SIZE = 14 := rfl
    have hP : IPV4_PROTO_OFF = 23 := rfl
    have hT : IPV4_TOTLEN_OFF = 16 := rfl
    unfold l3_patch_ipv4
    dsimp only
    refine Or.inr (Or.inr ⟨ihl, by simpa using h4, hihl, hsk, ?_, ?_, ?_, ?_, ?_⟩)
    · rw [hn]
      congr 1
      omega
    · refine (ht.congr ?_).patch_ipv4 _ _ _ (by omega)
      intro i hi
      exact write_out _ _ _ _ (by simp only [List.length_singleton]; omega)
    · rw [patch_ipv4_out _ _ _ _ _ (by omega) (by omega)]
      exact write_head _ _ _ _
    · refine (be16_totlen_patch_ipv4 _ _ _ _).trans ?_
      rw [be16_write_apart _ _ _ _ (by simp only [List.length_singleton]; omega),
        be16_congr (hb _ (by omega)) (hb _ (by omega))]
    · intro i hi hp h1 h2
      rw [patch_ipv4_out _ _ _ _ _ (by omega) (by omega),
        write_out _ _ _ _ (by simp only [List.length_singleton]; omega), hb i hi]

theorem crypto_layer3_encrypt_oneNonce (o : Openssl) (tls : Tls) (ctx : PacketCryptoCtx)
    (counter : Nat) (packet : Buf) (pkt_len : Nat) :
    OneNonce tls ctx counter (crypto_layer3_encrypt o tls ctx counter packet pkt_len) := by
  unfold crypto_layer3_encrypt
  split
  · exact Or.inl ⟨rfl, rfl⟩
  split
  · exact Or.inl ⟨rfl, rfl⟩
  split
  · exact Or.inl ⟨rfl, rfl⟩
  simp only
  split
  · exact Or.inl ⟨rfl, rfl⟩
  rename_i ihl _ _
  have h := encrypt_tunnel_at_oneNonce o tls ctx counter packet (ETH_HEADER_SIZE + ihl)
    (pkt_len - (ETH_HEADER_SIZE + ihl)) (packet IPV4_PROTO_OFF)
  split
  · exact h
  · exact h

theorem crypto_layer3_encrypt_fragment_single_oneNonce (o : Openssl) (tls : Tls)
    (ctx : PacketCryptoCtx) (counter : Nat) (eth_hdr ip_hdr enc_plain : Bytes) (pkt_id : Nat)
    (frag_index : UInt8) (out_buf : Buf) (out_max : Nat) :
    OneNonce tls ctx counter (crypto_layer3_encrypt_fragment_single o tls ctx counter eth_hdr
      ip_hdr enc_plain pkt_id frag_index out_buf out_max) := by
  unfold crypto_layer3_encrypt_fragment_single
  simp only
  split
  · exact Or.inl ⟨rfl, rfl⟩
  · exact encrypt_fragment_at_oneNonce _ _ _ _ _ _ _ _ _ _ _

/-! ## What decryption makes of it -/

/-- The transport checksum inside a segment. -/
def transport_cksum_off (orig_proto : UInt8) : Nat :=
  if orig_proto = 6 then TCP_CKSUM_OFF else UDP_CKSUM_OFF

theorem fix_transport_checksum_out (packet : Buf) (ip_hdr_len : Nat) (orig_proto : UInt8)
    (seg_len i : Nat)
    (h : i < ETH_HEADER_SIZE + ip_hdr_len + transport_cksum_off orig_proto ∨
      ETH_HEADER_SIZE + ip_hdr_len + transport_cksum_off orig_proto + 2 ≤ i) :
    fix_transport_checksum packet ip_hdr_len orig_proto seg_len i = packet i := by
  unfold fix_transport_checksum
  unfold transport_cksum_off at h
  split
  · rename_i h6
    rw [if_pos h6.1] at h
    rw [write_out _ _ _ _ h, write_out _ _ _ _ h]
  · split
    · rename_i h17
      rw [if_neg (by rw [h17.1]; decide)] at h
      rw [write_out _ _ _ _ h, write_out _ _ _ _ h]
    · rfl

theorem fix_transport_checksum_congr {b c : Buf} {ip_hdr_len seg_len : Nat} (orig_proto : UInt8)
    (h20 : 20 ≤ ip_hdr_len)
    (h : ∀ i, i < ETH_HEADER_SIZE + ip_hdr_len + seg_len → b i = c i) (i : Nat)
    (hi : i < ETH_HEADER_SIZE + ip_hdr_len + seg_len) :
    fix_transport_checksum b ip_hdr_len orig_proto seg_len i =
      fix_transport_checksum c ip_hdr_len orig_proto seg_len i := by
  have hw : ∀ off (bs : Bytes) j, j < ETH_HEADER_SIZE + ip_hdr_len + seg_len →
      write b off bs j = write c off bs j := fun off bs j hj => write_congr_at fun _ => h j hj
  unfold fix_transport_checksum
  dsimp only
  split
  · rw [crypto_calc_tcp_checksum_congr ip_hdr_len (fun j _ => hw _ _ j) (by omega) (by omega)
      (by omega)]
    exact write_congr_at fun _ => hw _ _ i hi
  split
  · rw [crypto_calc_udp_checksum_congr ip_hdr_len (fun j _ => hw _ _ j) (by omega) (by omega)
      (by omega)]
    exact write_congr_at fun _ => hw _ _ i hi
  · exact h i hi

/-- A TCP or UDP payload passes the check unless both ports are zero. -/
theorem verify_decrypted_payload_read (proto : UInt8) (b : Buf) (off n : Nat) (hn : 4 ≤ n)
    (h : ¬ (be16 b off = 0 ∧ be16 b (off + 2) = 0)) :
    verify_decrypted_payload proto (read b off n) = true := by
  unfold verify_decrypted_payload
  split
  · rw [if_neg (by rw [length_read]; omega)]
    simp only
    rw [be16_ofBytes_read _ _ _ _ (by omega), be16_ofBytes_read _ _ _ _ (by omega)]
    simpa [imp_iff_not_or] using h
  · rfl

/-- The receiver reads the sender's headers, and no magic of a fragment. -/
theorem L3Frame.parse {o : Openssl} {tls : Tls} {ctx : PacketCryptoCtx} {counter : Nat}
    {packet out : Buf} {pkt_len ihl n : Nat}
    (hf : L3Frame o tls ctx counter packet pkt_len ihl out)
    (h4 : pkt_is_ipv4 packet pkt_len = true)
    (hihl : ipv4_hdr_len_at packet pkt_len ETH_HEADER_SIZE = some ihl) (hn : pkt_len ≤ n)
    (hp : packet IPV4_PROTO_OFF ≠ CRYPTO_L3_FRAG_MAGIC) :
    pkt_is_ipv4 out n = true ∧ ipv4_hdr_len_at out n ETH_HEADER_SIZE = some ihl ∧
    l3_is_frag_tunnel out (ETH_HEADER_SIZE + ihl) tls.nonce_size = false := by
  have hE : ETH_HEADER_SIZE = 14 := rfl
  have hP : IPV4_PROTO_OFF = 23 := rfl
  obtain ⟨-, h20, -⟩ := ipv4_hdr_len_at_some hihl
  refine ⟨pkt_is_ipv4_congr h4 hn (hf.headers 12 (by omega) (by omega) (by omega) (by omega))
    (hf.headers 13 (by omega) (by omega) (by omega) (by omega)), ipv4_hdr_len_at_congr hihl hn
    (hf.headers 14 (by omega) (by omega) (by omega) (by omega)), ?_⟩
  unfold l3_is_frag_tunnel
  rw [hf.tunnelled.type_byte]
  simpa using hp

/-- With the plaintext moved to where the tunnel stood the packet is back, but for the total length
and the checksum of its header: these are the sender's. -/
theorem L3Frame.moved_back {o : Openssl} {tls : Tls} {ctx : PacketCryptoCtx} {counter : Nat}
    {packet out pkt' : Buf} {pkt_len ihl enc_off : Nat} {data : Bytes}
    (hf : L3Frame o tls ctx counter packet pkt_len ihl out) (h20 : 20 ≤ ihl)
    (hoff : ETH_HEADER_SIZE + ihl ≤ enc_off)
    (hdata : read packet (ETH_HEADER_SIZE + ihl) (pkt_len - (ETH_HEADER_SIZE + ihl)) = data)
    (hpkt : pkt' = write (write (write (write out IPV4_PROTO_OFF [packet IPV4_PROTO_OFF]) enc_off
      data) (ETH_HEADER_SIZE + ihl) data) IPV4_PROTO_OFF [packet IPV4_PROTO_OFF]) :
    be16 pkt' IPV4_TOTLEN_OFF = be16 out IPV4_TOTLEN_OFF ∧
    ∀ j, j < pkt_len → (j < ETH_HEADER_SIZE + 2 ∨ ETH_HEADER_SIZE + 4 ≤ j) →
      (j < ETH_HEADER_SIZE + 10 ∨ ETH_HEADER_SIZE + 12 ≤ j) → pkt' j = packet j := by
  have hE : ETH_HEADER_SIZE = 14 := rfl
  have hP : IPV4_PROTO_OFF = 23 := rfl
  have hT : IPV4_TOTLEN_OFF = 16 := rfl
  have hhead : ∀ j, j < ETH_HEADER_SIZE + ihl → j ≠ IPV4_PROTO_OFF → pkt' j = out j := by
    intro j hj hjp
    rw [hpkt, write_out _ _ _ _ (by simp only [List.length_singleton]; omega),
      write_out _ _ _ _ (by omega), write_out _ _ _ _ (by omega),
      write_out _ _ _ _ (by simp only [List.length_singleton]; omega)]
  refine ⟨be16_congr (hhead _ (by omega) (by omega)) (hhead _ (by omega) (by omega)), ?_⟩
  intro j hj h1 h2
  by_cases hpay : ETH_HEADER_SIZE + ihl ≤ j
  · rw [hpkt, write_out _ _ _ _ (by simp only [List.length_singleton]; omega), ← hdata,
      write_read_in _ _ _ _ _ _ hpay (by omega)]
    congr 1
    omega
  by_cases hpr : j = IPV4_PROTO_OFF
  · rw [hpr, hpkt]
    exact write_head _ _ _ _
  · rw [hhead j (by omega) hpr, hf.headers j (by omega) hpr (by omega) (by omega)]

/-- A receiver with the same settings that runs AES under the same key gets the packet back at its
old length, with the two checksums computed anew. -/
theorem crypto_layer3_decrypt_restores {o : Openssl} (ho : o.Lawful) {tls tls' : Tls}
    {ctx ctx' : PacketCryptoCtx} {counter : Nat} {packet out : Buf} {pkt_len ihl : Nat}
    (hf : L3Frame o tls ctx counter packet pkt_len ihl out)
    (h4 : pkt_is_ipv4 packet pkt_len = true)
    (hihl : ipv4_hdr_len_at packet pkt_len ETH_HEADER_SIZE = some ihl)
    (hs : SameSettings tls tls' ctx') (hk : SameKey tls ctx tls' ctx') (h16 : tls.nonce_size ≤ 16)
    (hp : packet IPV4_PROTO_OFF ≠ CRYPTO_L3_FRAG_MAGIC)
    (hv : tls.crypto_mode = .ctr → verify_decrypted_payload (packet IPV4_PROTO_OFF)
      (read packet (ETH_HEADER_SIZE + ihl) (pkt_len - (ETH_HEADER_SIZE + ihl))) = true) :
    ∃ pkt', crypto_layer3_decrypt o tls' ctx' out
        (pkt_len + (packet_crypto_get_tunnel_hdr_size tls + tag_overhead tls)) =
        (some pkt_len, pkt') ∧
      ∀ i, i < pkt_len → pkt' i =
        fix_transport_checksum (l3_patch_ipv4 packet ihl (be16 packet IPV4_TOTLEN_OFF)) ihl
          (packet IPV4_PROTO_OFF) (pkt_len - (ETH_HEADER_SIZE + ihl)) i := by
  have hE : ETH_HEADER_SIZE = 14 := rfl
  have hP : IPV4_PROTO_OFF = 23 := rfl
  have hM : MIN_ETH_PKT = 22 := rfl
  have hns := hs.nonce_size
  have hh : packet_crypto_get_tunnel_hdr_size tls = tls.nonce_size + 2 := rfl
  have hh' : packet_crypto_get_tunnel_hdr_size tls' = tls.nonce_size + 2 := by rw [← hns]; rfl
  obtain ⟨-, h20, hle⟩ := ipv4_hdr_len_at_some hihl
  obtain ⟨h4', hihl', hnf⟩ := hf.parse h4 hihl (Nat.le_add_right pkt_len
    (packet_crypto_get_tunnel_hdr_size tls + tag_overhead tls)) hp
  generalize hdata : read packet (ETH_HEADER_SIZE + ihl) (pkt_len - (ETH_HEADER_SIZE + ihl)) = data
    at hv
  have hdl : data.length = pkt_len - (ETH_HEADER_SIZE + ihl) := by rw [← hdata, length_read]
  have ht := hf.tunnelled
  rw [hdata] at ht
  have hsealed := ht.sealed
  unfold crypto_layer3_decrypt
  rw [if_neg (by rw [hs.initialized, hM]; simp only [Bool.not_true, Bool.false_eq_true, false_or]
                 omega),
    if_neg (by rw [h4']; decide), hihl']
  dsimp only
  rw [if_neg (by omega), hns, hnf, if_neg (by decide),
    if_neg (by rw [hf.marker, hs.fake_protocol]; simp), hh', ht.type_byte]
  have hw : ∀ i, ETH_HEADER_SIZE + ihl ≤ i →
      write out IPV4_PROTO_OFF [packet IPV4_PROTO_OFF] i = out i := fun i hi' =>
    write_out _ _ _ _ (by simp only [List.length_singleton]; omega)
  have hop := (hsealed.congr fun i h1 _ => hw i h1).open_in_place ho hs.aes hk hs.evp_ok hv
  rw [hsealed.nonce_at, ← Nat.add_assoc, show pkt_len + (packet_crypto_get_tunnel_hdr_size tls +
    tag_overhead tls) - (ETH_HEADER_SIZE + ihl + tls.nonce_size + 2) =
      data.length + tag_overhead tls by omega, hop, hs.aes.tag_overhead]
  dsimp only
  rw [read_write_self _ _ _ _ rfl, show pkt_len + (packet_crypto_get_tunnel_hdr_size tls +
    tag_overhead tls) - (tls.nonce_size + 2 + tag_overhead tls) = pkt_len by omega]
  refine ⟨_, rfl, ?_⟩
  generalize hpkt : write (write (write (write out IPV4_PROTO_OFF [packet IPV4_PROTO_OFF])
    (ETH_HEADER_SIZE + ihl + tls.nonce_size + 2) data) (ETH_HEADER_SIZE + ihl) data)
    IPV4_PROTO_OFF [packet IPV4_PROTO_OFF] = p4
  obtain ⟨htl, hback⟩ := hf.moved_back h20 (by omega) hdata hpkt.symm
  have htotal : (be16 p4 IPV4_TOTLEN_OFF + 65536 - (tls.nonce_size + 2 + tag_overhead tls)) % 65536 =
      be16 packet IPV4_TOTLEN_OFF % 65536 := by
    have := be16_lt packet IPV4_TOTLEN_OFF
    have := tag_overhead_le tls
    rw [htl, hf.totlen]
    omega
  intro i hi
  refine fix_transport_checksum_congr _ h20 (fun j hj => ?_) i (by omega)
  unfold l3_patch_ipv4
  rw [patch_ipv4_total_congr _ _ _ htotal]
  exact patch_ipv4_congr _ _ _ hle hback j (by omega)

/-- Outside the two checksums it gets the packet's own bytes. -/
theorem crypto_layer3_decrypt_frame {o : Openssl} (ho : o.Lawful) {tls : Tls} (tls' : Tls)
    {ctx : PacketCryptoCtx} (ctx' : PacketCryptoCtx) {counter : Nat} {packet out : Buf}
    {pkt_len ihl : Nat}
    (hf : L3Frame o tls ctx counter packet pkt_len ihl out)
    (h4 : pkt_is_ipv4 packet pkt_len = true)
    (hihl : ipv4_hdr_len_at packet pkt_len ETH_HEADER_SIZE = some ihl)
    (hs : SameAes tls tls') (hns : tls'.nonce_size = tls.nonce_size) (h16 : tls.nonce_size ≤ 16)
    (he : tls'.evp_ok = true) (hk : SameKey tls ctx tls' ctx')
    (hi : ctx'.initialized = true) (hm : tls'.fake_protocol = tls.fake_protocol)
    (hp : packet IPV4_PROTO_OFF ≠ CRYPTO_L3_FRAG_MAGIC)
    (hv : tls.crypto_mode = .ctr → verify_decrypted_payload (packet IPV4_PROTO_OFF)
      (read packet (ETH_HEADER_SIZE + ihl) (pkt_len - (ETH_HEADER_SIZE + ihl))) = true) :
    ∃ pkt', crypto_layer3_decrypt o tls' ctx' out
        (pkt_len + (packet_crypto_get_tunnel_hdr_size tls + tag_overhead tls)) =
        (some pkt_len, pkt') ∧
      ∀ i, i < pkt_len → (i < ETH_HEADER_SIZE + 10 ∨ ETH_HEADER_SIZE + 12 ≤ i) →
        (i < ETH_HEADER_SIZE + ihl + transport_cksum_off (packet IPV4_PROTO_OFF) ∨
          ETH_HEADER_SIZE + ihl + transport_cksum_off (packet IPV4_PROTO_OFF) + 2 ≤ i) →
        pkt' i = packet i := by
  obtain ⟨pkt', hdec, hpkt⟩ := crypto_layer3_decrypt_restores ho hf h4 hihl
    ⟨hs, hns, hm, he, hi⟩ hk h16 hp hv
  refine ⟨pkt', hdec, fun i hi h1 h2 => ?_⟩
  unfold l3_patch_ipv4 at hpkt
  rw [hpkt i hi, fix_transport_checksum_out _ _ _ _ _ h2, patch_ipv4_totlen _ _ _ _ _ h1,
    be16Bytes_eq_read packet IPV4_TOTLEN_OFF _ (Nat.mod_eq_of_lt (be16_lt _ _))]
  exact congrFun (write_read packet IPV4_TOTLEN_OFF 2) i

/-! ## Fragments -/

/-- The headers of a fragment, or of what a receiver makes of it, are those of the packet, but
for the total length and the checksum. -/
def SameHeaders (packet out : Buf) (ihl : Nat) : Prop :=
  ∀ i, i < ETH_HEADER_SIZE + ihl → i ≠ IPV4_PROTO_OFF → (i < 16 ∨ 18 ≤ i) → (i < 24 ∨ 26 ≤ i) →
    out i = packet i

/-- A fragment of a packet with its headers. -/
structure L3Fragment (o : Openssl) (tls : Tls) (ctx : PacketCryptoCtx) (counter : Nat)
    (packet : Buf) (ihl : Nat) (enc_plain : Bytes) (pkt_id : Nat) (frag_index : UInt8)
    (out : Buf) (n : Nat) : Prop where
  tagged : Tagged o tls ctx counter enc_plain out (ETH_HEADER_SIZE + ihl) CRYPTO_L3_FRAG_MAGIC
    pkt_id frag_index n
  marker : out IPV4_PROTO_OFF = tls.fake_protocol
  headers : SameHeaders packet out ihl

theorem L3Fragment.congr {o : Openssl} {tls : Tls} {ctx : PacketCryptoCtx} {counter : Nat}
    {packet : Buf} {ihl : Nat} {enc_plain : Bytes} {pkt_id : Nat} {frag_index : UInt8} {b c : Buf}
    {n : Nat} (h : L3Fragment o tls ctx counter packet ihl enc_plain pkt_id frag_index b n)
    (h20 : 20 ≤ ihl) (hc : ∀ i, i < n → c i = b i) :
    L3Fragment o tls ctx counter packet ihl enc_plain pkt_id frag_index c n := by
  have hE : ETH_HEADER_SIZE = 14 := rfl
  have hP : IPV4_PROTO_OFF = 23 := rfl
  have hlen := h.tagged.len
  refine ⟨h.tagged.congr hc, ?_, fun i hi hp h1 h2 => ?_⟩
  · rw [hc _ (by omega), h.marker]
  · rw [hc i (by omega), h.headers i hi hp h1 h2]

theorem crypto_layer3_encrypt_fragment_single_some {o : Openssl} (ho : o.Lawful) {tls : Tls}
    {ctx : PacketCryptoCtx} {counter : Nat} {packet : Buf} {ihl : Nat} {enc_plain : Bytes}
    {pkt_id : Nat} {frag_index : UInt8} {out_buf : Buf} {out_max n : Nat}
    (hns : 4 ≤ tls.nonce_size)
    (h : (crypto_layer3_encrypt_fragment_single o tls ctx counter (read packet 0 14)
      (read packet 14 ihl) enc_plain pkt_id frag_index out_buf out_max).ret = some n) :
    20 ≤ ihl ∧ L3Fragment o tls ctx counter packet ihl enc_plain pkt_id frag_index
      (crypto_layer3_encrypt_fragment_single o tls ctx counter (read packet 0 14)
        (read packet 14 ihl) enc_plain pkt_id frag_index out_buf out_max).pkt n := by
  have hE : ETH_HEADER_SIZE = 14 := rfl
  have hP : IPV4_PROTO_OFF = 23 := rfl
  unfold crypto_layer3_encrypt_fragment_single at h ⊢
  simp only [length_read] at h ⊢
  split at h
  · simp at h
  rename_i hcond
  have h20 : 20 ≤ ihl := by omega
  rw [if_neg hcond]
  obtain ⟨htag, hhead⟩ := encrypt_fragment_at_tagged ho hns (by omega) h
  refine ⟨h20, htag, ?_, ?_⟩
  · rw [hhead _ (by omega) (by omega) (by omega)]
    exact write_head _ _ _ _
  · intro i hi hp h1 h2
    rw [hhead i hi h1 h2, write_out _ _ _ _ (by simp only [List.length_singleton]; omega)]
    by_cases hb : 14 ≤ i
    · rw [hE, write_read_in _ _ _ _ _ _ hb (by omega)]
      congr 1
      omega
    · rw [hE, write_out _ _ _ _ (by omega), write_read_in _ _ _ _ _ _ (by omega) (by omega)]
      congr 1
      omega

/-- A fragment has the packet's headers, and the magic behind its nonce. -/
theorem L3Fragment.parse {o : Openssl} {tls : Tls} {ctx : PacketCryptoCtx} {counter : Nat}
    {packet : Buf} {ihl : Nat} {enc_plain : Bytes} {pkt_id : Nat} {frag_index : UInt8} {out : Buf}
    {n : Nat} (hf : L3Fragment o tls ctx counter packet ihl enc_plain pkt_id frag_index out n)
    (h4 : be16 packet 12 = 0x0800) (hihl : (packet 14).toNat % 16 * 4 = ihl) (h20 : 20 ≤ ihl) :
    pkt_is_ipv4 out n = true ∧ ipv4_hdr_len_at out n ETH_HEADER_SIZE = some ihl ∧
    l3_is_frag_tunnel out (ETH_HEADER_SIZE + ihl) tls.nonce_size = true := by
  have hE : ETH_HEADER_SIZE = 14 := rfl
  have hP : IPV4_PROTO_OFF = 23 := rfl
  have hI : IPV4_HDR_SIZE = 20 := rfl
  have hlen := hf.tagged.len
  refine ⟨?_, ?_, ?_⟩
  · unfold pkt_is_ipv4
    rw [be16_congr (hf.headers 12 (by omega) (by omega) (by omega) (by omega))
      (hf.headers 13 (by omega) (by omega) (by omega) (by omega)), h4]
    simp only [beq_self_eq_true, Bool.and_true, Bool.not_eq_true', decide_eq_false_iff_not]
    omega
  · unfold ipv4_hdr_len_at
    rw [if_neg (by omega), hf.headers ETH_HEADER_SIZE (by omega) (by omega) (by omega) (by omega)]
    dsimp only
    rw [show (packet ETH_HEADER_SIZE).toNat % 16 * 4 = ihl from hihl, if_neg (by omega)]
  · unfold l3_is_frag_tunnel
    rw [hf.tagged.tunnelled.type_byte]
    rfl

/-- A receiver with the same key, nonce size and fake protocol gets the plaintext behind the
headers. -/
theorem crypto_layer3_decrypt_fragment_frame {o : Openssl} (ho : o.Lawful) {tls : Tls} (tls' : Tls)
    {ctx : PacketCryptoCtx} (ctx' : PacketCryptoCtx) {counter : Nat} {packet : Buf} {ihl : Nat}
    {enc_plain : Bytes}
    {pkt_id : Nat} {frag_index : UInt8} {out : Buf} {n : Nat}
    (hf : L3Fragment o tls ctx counter packet ihl enc_plain pkt_id frag_index out n)
    (h4 : be16 packet 12 = 0x0800) (hihl : (packet 14).toNat % 16 * 4 = ihl) (h20 : 20 ≤ ihl)
    (hs : SameAes tls tls') (hns : tls'.nonce_size = tls.nonce_size) (he : tls'.evp_ok = true)
    (hk : SameKey tls ctx tls' ctx') (hi : ctx'.initialized = true)
    (hm : tls'.fake_protocol = tls.fake_protocol) :
    ∃ pkt, crypto_layer3_decrypt_fragment o tls' ctx' out n =
        (some (ETH_HEADER_SIZE + ihl + enc_plain.length, (pkt_id % 65536, frag_index)), pkt) ∧
      read pkt (ETH_HEADER_SIZE + ihl) enc_plain.length = enc_plain ∧
      SameHeaders packet pkt ihl := by
  have hE : ETH_HEADER_SIZE = 14 := rfl
  have hP : IPV4_PROTO_OFF = 23 := rfl
  have hF : FRAG_TAG_SIZE = 4 := rfl
  have hh : packet_crypto_get_tunnel_hdr_size tls' = tls.nonce_size + 2 := by rw [← hns]; rfl
  have hh' : packet_crypto_get_tunnel_hdr_size tls = tls.nonce_size + 2 := rfl
  have hlen := hf.tagged.len
  obtain ⟨hv4, hl, hmagic⟩ := hf.parse h4 hihl h20
  rw [← hns] at hmagic
  unfold crypto_layer3_decrypt_fragment
  rw [if_neg (by simp [hi, hv4]), hl]
  dsimp only
  rw [hmagic, if_neg (by
    rw [hf.marker, hm]
    simp only [ne_eq, not_true_eq_false, Bool.not_true, Bool.false_eq_true, or_false, false_or]
    omega)]
  obtain ⟨pkt, hopen, hplain, hhead⟩ := hf.tagged.opened ho hs hns he hk ihl (by omega)
  have htag := hf.tagged.tag
  rw [hh', ← hh] at htag
  rw [hopen, htag]
  refine ⟨pkt, rfl, hplain, ?_⟩
  intro i hi' hp h1 h2
  rw [hhead i hi' h1 h2, hf.headers i hi' hp h1 h2]

end ne_ip.crypto_layer3
