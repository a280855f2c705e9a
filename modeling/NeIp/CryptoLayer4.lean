-- Layer 4 encryption (crypto_layer4.c): the two ports stay readable, and what
-- follows them goes behind a tunnel header with a fixed type byte.
import NeIp.Tunnel

open byte_buf ne_ip.packet_crypto ne_ip.tunnel

namespace ne_ip.crypto_layer4

def L4_WIRE_PORT_LEN : Nat := 4
def CRYPTO_L4_TUNNEL_MAGIC : UInt8 := 0xA5
def CRYPTO_L4_FRAG_MAGIC : UInt8 := 0x5A

/-- A subtraction of `size_t`. -/
def size_sub (a b : Nat) : Nat := if b ≤ a then a - b else a + 2 ^ 64 - b

/-- The IPv4 header behind at most two VLAN tags. -/
def crypto_eth_ipv4_offset (pkt : Buf) (pkt_len : Nat) : Option Nat :=
  if pkt_len < 14 then none
  else if be16 pkt 12 = 0x0800 then some 14
  else if be16 pkt 12 = 0x8100 then
    if pkt_len < 18 then none
    else if be16 pkt 16 = 0x0800 then some 18
    else if be16 pkt 16 = 0x8100 ∧ 22 ≤ pkt_len ∧ be16 pkt 20 = 0x0800 then some 22
    else none
  else none

/-- `get_transport_hdr_size`, also called `crypto_layer4_get_transport_hdr_size`. -/
def get_transport_hdr_size (pkt : Buf) (transport_off : Nat) (ip_proto : UInt8)
    (remaining : Nat) : Option Nat :=
  if ip_proto = 6 then
    if remaining < 20 then none
    else
      let data_off := (pkt (transport_off + 12)).toNat / 16 * 4
      if data_off < 20 ∨ remaining < data_off then none else some data_off
  else if ip_proto = 17 then
    if remaining < 8 then none else some 8
  else none

def l4_is_tunnel_header (pkt : Buf) (tunnel_off nonce_size : Nat) : Bool :=
  pkt (tunnel_off + nonce_size + 1) == CRYPTO_L4_TUNNEL_MAGIC &&
    decide ((pkt tunnel_off).toNat < 128)

def l4_fix_ipv4_totlen_and_cksum (packet : Buf) (l3_off ip_hdr_len ip_payload_len : Nat) : Buf :=
  patch_ipv4 packet l3_off ip_hdr_len (ip_hdr_len + ip_payload_len)

def ip_hdr_len_at (packet : Buf) (l3_off : Nat) : Nat := (packet l3_off).toNat % 16 * 4

def crypto_layer4_encrypt (o : Openssl) (tls : Tls) (ctx : PacketCryptoCtx) (counter : Nat)
    (packet : Buf) (pkt_len : Nat) : EncResult :=
  if !ctx.initialized then { ret := none, pkt := packet, counter }
  else
    match crypto_eth_ipv4_offset packet pkt_len with
    | none => { ret := some pkt_len, pkt := packet, counter }
    | some l3_off =>
      let ip_proto := packet (l3_off + 9)
      let ip_hdr_len := ip_hdr_len_at packet l3_off
      let transport_off := l3_off + ip_hdr_len
      let plain_off := transport_off + L4_WIRE_PORT_LEN
      let plain_len := size_sub pkt_len plain_off
      if pkt_len < l3_off + 20 then { ret := none, pkt := packet, counter }
      else if ip_proto ≠ 6 ∧ ip_proto ≠ 17 then { ret := some pkt_len, pkt := packet, counter }
      else if ip_hdr_len < 20 then { ret := none, pkt := packet, counter }
      else if get_transport_hdr_size packet transport_off ip_proto
          (size_sub pkt_len transport_off) = none then
        { ret := some pkt_len, pkt := packet, counter }
      else if plain_len = 0 then { ret := some pkt_len, pkt := packet, counter }
      else
        let r := encrypt_tunnel_at o tls ctx counter packet plain_off plain_len
          CRYPTO_L4_TUNNEL_MAGIC
        match r.ret with
        | none => r
        | some _ =>
          let total_overhead := packet_crypto_get_tunnel_hdr_size tls + tag_overhead tls
          { r with
            ret := some (pkt_len + total_overhead)
            pkt := l4_fix_ipv4_totlen_and_cksum r.pkt l3_off ip_hdr_len
              (L4_WIRE_PORT_LEN + total_overhead + plain_len) }

/-- The length it returns and the packet, which a failure leaves changed. -/
def crypto_layer4_decrypt (o : Openssl) (tls : Tls) (ctx : PacketCryptoCtx) (packet : Buf)
    (pkt_len : Nat) : Option Nat × Buf :=
  if !ctx.initialized then (none, packet)
  else
    match crypto_eth_ipv4_offset packet pkt_len with
    | none => (some pkt_len, packet)
    | some l3_off =>
      let ip_proto := packet (l3_off + 9)
      let ip_hdr_len := ip_hdr_len_at packet l3_off
      let tunnel_off := l3_off + ip_hdr_len + L4_WIRE_PORT_LEN
      let enc_off := tunnel_off + packet_crypto_get_tunnel_hdr_size tls
      if pkt_len < l3_off + 20 then (none, packet)
      else if ip_proto ≠ 6 ∧ ip_proto ≠ 17 then (some pkt_len, packet)
      else if ip_hdr_len < 20 then (none, packet)
      else if pkt_len < enc_off ∨ !l4_is_tunnel_header packet tunnel_off tls.nonce_size then
        (some pkt_len, packet)
      else open_tunnel_at o tls ctx packet pkt_len l3_off ip_hdr_len tunnel_off enc_off

/-- `out_buf` is the buffer the fragment is put into. The return code is `out_len`. -/
def crypto_layer4_encrypt_fragment_single (o : Openssl) (tls : Tls) (ctx : PacketCryptoCtx)
    (counter : Nat) (eth_hdr ip_hdr wire_ports enc_plain : Bytes) (pkt_id : Nat)
    (frag_index : UInt8) (out_buf : Buf) (out_max : Nat) : EncResult :=
  let total_overhead := packet_crypto_get_tunnel_hdr_size tls + FRAG_TAG_SIZE + tag_overhead tls
  if !ctx.initialized ∨ enc_plain.length = 0 ∨
      out_max < 14 + ip_hdr.length + L4_WIRE_PORT_LEN + total_overhead + enc_plain.length then
    { ret := none, pkt := out_buf, counter }
  else
    let out := write (write out_buf 0 eth_hdr) 14 ip_hdr
    let out := write out (14 + ip_hdr.length) wire_ports
    encrypt_fragment_at o tls ctx counter out (14 + ip_hdr.length + L4_WIRE_PORT_LEN)
      ip_hdr.length CRYPTO_L4_FRAG_MAGIC enc_plain pkt_id frag_index

/-- The length it returns, `out_pkt_id` and `out_frag_index`, and the packet. -/
def crypto_layer4_decrypt_fragment (o : Openssl) (tls : Tls) (ctx : PacketCryptoCtx)
    (packet : Buf) (pkt_len : Nat) : Option (Nat × Nat × UInt8) × Buf :=
  if !ctx.initialized then (none, packet)
  else
    match crypto_eth_ipv4_offset packet pkt_len with
    | none => (none, packet)
    | some l3_off =>
      let ip_proto := packet (l3_off + 9)
      let ip_hdr_len := ip_hdr_len_at packet l3_off
      let tunnel_off := l3_off + ip_hdr_len + L4_WIRE_PORT_LEN
      let tag_off := tunnel_off + packet_crypto_get_tunnel_hdr_size tls
      let enc_off := tag_off + FRAG_TAG_SIZE
      if pkt_len < l3_off + 20 ∨ (ip_proto ≠ 6 ∧ ip_proto ≠ 17) ∨ ip_hdr_len < 20 ∨
          pkt_len < enc_off ∨
          packet (tunnel_off + tls.nonce_size + 1) ≠ CRYPTO_L4_FRAG_MAGIC then (none, packet)
      else
        let tag := read_frag_tag packet tag_off
        let r := open_tunnel_at o tls ctx packet pkt_len l3_off ip_hdr_len tunnel_off enc_off
        (r.1.map (·, tag), r.2)

/-! ## What encryption does to a packet -/

theorem crypto_eth_ipv4_offset_cases {b : Buf} {m l3_off : Nat}
    (h : crypto_eth_ipv4_offset b m = some l3_off) :
    (l3_off = 14 ∧ 14 ≤ m ∧ be16 b 12 = 0x0800) ∨
    (l3_off = 18 ∧ 18 ≤ m ∧ be16 b 12 = 0x8100 ∧ be16 b 16 = 0x0800) ∨
    (l3_off = 22 ∧ 22 ≤ m ∧ be16 b 12 = 0x8100 ∧ be16 b 16 = 0x8100 ∧ be16 b 20 = 0x0800) := by
  unfold crypto_eth_ipv4_offset at h
  split at h
  · simp at h
  split at h
  · rename_i h12
    exact Or.inl ⟨(Option.some.inj h).symm, by omega, h12⟩
  split at h
  · rename_i h12
    split at h
    · simp at h
    split at h
    · rename_i h16
      exact Or.inr (Or.inl ⟨(Option.some.inj h).symm, by omega, h12, h16⟩)
    split at h
    · rename_i h22
      exact Or.inr (Or.inr ⟨(Option.some.inj h).symm, h22.2.1, h12, h22.1, h22.2.2⟩)
    · simp at h
  · simp at h

/-- The parse of the headers sees only the bytes before the IPv4 header. -/
theorem crypto_eth_ipv4_offset_congr {b c : Buf} {m n l3_off : Nat}
    (h : crypto_eth_ipv4_offset b m = some l3_off) (hmn : m ≤ n)
    (hc : ∀ i, i < l3_off → c i = b i) : crypto_eth_ipv4_offset c n = some l3_off := by
  unfold crypto_eth_ipv4_offset
  rcases crypto_eth_ipv4_offset_cases h with ⟨rfl, hm, h12⟩ | ⟨rfl, hm, h12, h16⟩ |
    ⟨rfl, hm, h12, h16, h20⟩
  · rw [if_neg (by omega), be16_congr (hc 12 (by omega)) (hc 13 (by omega)), if_pos h12]
  · have e12 := (be16_congr (hc 12 (by omega)) (hc 13 (by omega))).trans h12
    have e16 := (be16_congr (hc 16 (by omega)) (hc 17 (by omega))).trans h16
    rw [if_neg (by omega), if_neg (by rw [e12]; decide), if_pos e12, if_neg (by omega), if_pos e16]
  · have e12 := (be16_congr (hc 12 (by omega)) (hc 13 (by omega))).trans h12
    have e16 := (be16_congr (hc 16 (by omega)) (hc 17 (by omega))).trans h16
    have e20 := (be16_congr (hc 20 (by omega)) (hc 21 (by omega))).trans h20
    rw [if_neg (by omega), if_neg (by rw [e12]; decide), if_pos e12, if_neg (by omega),
      if_neg (by rw [e16]; decide), if_pos ⟨e16, by omega, e20⟩]

theorem get_transport_hdr_size_some {pkt : Buf} {off n remaining : Nat} {ip_proto : UInt8}
    (h : get_transport_hdr_size pkt off ip_proto remaining = some n) :
    (ip_proto = 6 ∨ ip_proto = 17) ∧ 8 ≤ n ∧ n ≤ remaining := by
  unfold get_transport_hdr_size at h
  split at h
  · rename_i h6
    split at h
    · simp at h
    simp only at h
    split at h
    · simp at h
    · have hn := Option.some.inj h
      exact ⟨Or.inl h6, by omega, by omega⟩
  split at h
  · rename_i h17
    split at h
    · simp at h
    · have hn := Option.some.inj h
      exact ⟨Or.inr h17, by omega, by omega⟩
  · simp at h

/-- A data offset has four bits. -/
theorem get_transport_hdr_size_le {pkt : Buf} {off n remaining : Nat} {ip_proto : UInt8}
    (h : get_transport_hdr_size pkt off ip_proto remaining = some n) : n ≤ 60 := by
  have hbyte := (pkt (off + 12)).toNat_lt
  unfold get_transport_hdr_size at h
  split at h
  · split at h
    · simp at h
    dsimp only at h
    split at h
    · simp at h
    · have hn := Option.some.inj h
      omega
  split at h
  · split at h
    · simp at h
    · have hn := Option.some.inj h
      omega
  · simp at h

/-- The header is read from the same bytes at another place. -/
theorem get_transport_hdr_size_congr {b c : Buf} {off off' n : Nat}
    (h : read b off n = read c off' n) (ip_proto : UInt8) :
    get_transport_hdr_size b off ip_proto n = get_transport_hdr_size c off' ip_proto n := by
  unfold get_transport_hdr_size
  by_cases hn : n < 20
  · simp only [if_pos hn]
  · have h12 : b (off + 12) = c (off' + 12) := by
      rw [← getD_read b off n 12 (by omega), h, getD_read c off' n 12 (by omega)]
    rw [h12]

/-- A header that fits into less is the same there. -/
theorem get_transport_hdr_size_shorter {b : Buf} {off m n th : Nat} {ip_proto : UInt8}
    (h : get_transport_hdr_size b off ip_proto n = some th) (hm : th ≤ m) :
    get_transport_hdr_size b off ip_proto m = some th := by
  unfold get_transport_hdr_size at h ⊢
  split at h
  · rename_i h6
    rw [if_pos h6]
    split at h
    · simp at h
    simp only at h ⊢
    split at h
    · simp at h
    · have hth := Option.some.inj h
      rw [if_neg (by omega), if_neg (by omega), hth]
  rename_i h6
  rw [if_neg h6]
  split at h
  · rename_i h17
    rw [if_pos h17]
    split at h
    · simp at h
    · have hth := Option.some.inj h
      rw [if_neg (by omega), hth]
  · simp at h

/-- A TCP or UDP packet over IPv4 with its headers in the frame, as layer 4 sees it. -/
structure L4Plain (packet : Buf) (pkt_len l3_off : Nat) : Prop where
  offset : crypto_eth_ipv4_offset packet pkt_len = some l3_off
  proto : packet (l3_off + 9) = 6 ∨ packet (l3_off + 9) = 17
  ihl : 20 ≤ ip_hdr_len_at packet l3_off
  fits : l3_off + ip_hdr_len_at packet l3_off + 8 ≤ pkt_len

/-- Where the encrypted part starts: behind the two ports. -/
def plain_off_at (packet : Buf) (l3_off : Nat) : Nat :=
  l3_off + ip_hdr_len_at packet l3_off + L4_WIRE_PORT_LEN

/-- What the receiver of an encapsulated packet gets. -/
structure L4Frame (o : Openssl) (tls : Tls) (ctx : PacketCryptoCtx) (counter : Nat)
    (packet : Buf) (pkt_len l3_off : Nat) (out : Buf) : Prop where
  tunnelled : Tunnelled o tls ctx counter
    (read packet (plain_off_at packet l3_off) (pkt_len - plain_off_at packet l3_off))
    out (plain_off_at packet l3_off) 2 CRYPTO_L4_TUNNEL_MAGIC
  headers : ∀ i, i < plain_off_at packet l3_off → (i < l3_off + 2 ∨ l3_off + 4 ≤ i) →
    (i < l3_off + 10 ∨ l3_off + 12 ≤ i) → out i = packet i

/-- Why layer 4 encryption leaves a packet as it is. -/
def Passes (packet : Buf) (pkt_len : Nat) : Prop :=
  crypto_eth_ipv4_offset packet pkt_len = none ∨
  ∃ l3_off, crypto_eth_ipv4_offset packet pkt_len = some l3_off ∧
    get_transport_hdr_size packet (l3_off + ip_hdr_len_at packet l3_off) (packet (l3_off + 9))
      (pkt_len - (l3_off + ip_hdr_len_at packet l3_off)) = none

/-- The three outcomes of layer 4 encryption, for a frame that has its whole IPv4 header. -/
theorem crypto_layer4_encrypt_cases {o : Openssl} (ho : o.Lawful) (tls : Tls)
    (ctx : PacketCryptoCtx) (counter : Nat) (packet : Buf) (pkt_len : Nat)
    (hns : 4 ≤ tls.nonce_size)
    (hfit : ∀ l3_off, crypto_eth_ipv4_offset packet pkt_len = some l3_off →
      l3_off + ip_hdr_len_at packet l3_off ≤ pkt_len) :
    (crypto_layer4_encrypt o tls ctx counter packet pkt_len).ret = none ∨
    ((crypto_layer4_encrypt o tls ctx counter packet pkt_len).ret = some pkt_len ∧
      (crypto_layer4_encrypt o tls ctx counter packet pkt_len).pkt = packet ∧
      Passes packet pkt_len) ∨
    ∃ l3_off, L4Plain packet pkt_len l3_off ∧ ¬ Passes packet pkt_len ∧
      (crypto_layer4_encrypt o tls ctx counter packet pkt_len).ret =
        some (pkt_len + (packet_crypto_get_tunnel_hdr_size tls + tag_overhead tls)) ∧
      L4Frame o tls ctx counter packet pkt_len l3_off
        (crypto_layer4_encrypt o tls ctx counter packet pkt_len).pkt := by
  unfold crypto_layer4_encrypt
  split
  · exact Or.inl rfl
  split
  · rename_i hoff
    exact Or.inr (Or.inl ⟨rfl, rfl, Or.inl hoff⟩)
  rename_i l3_off hoff
  have hle := hfit l3_off hoff
  have hL : L4_WIRE_PORT_LEN = 4 := rfl
  have hsub : size_sub pkt_len (l3_off + ip_hdr_len_at packet l3_off) =
    pkt_len - (l3_off + ip_hdr_len_at packet l3_off) := if_pos hle
  simp only [hsub]
  split
  · exact Or.inl rfl
  split
  · rename_i hp
    refine Or.inr (Or.inl ⟨rfl, rfl, Or.inr ⟨l3_off, hoff, ?_⟩⟩)
    unfold get_transport_hdr_size
    rw [if_neg hp.1, if_neg hp.2]
  split
  · exact Or.inl rfl
  split
  · rename_i ht
    exact Or.inr (Or.inl ⟨rfl, rfl, Or.inr ⟨l3_off, hoff, ht⟩⟩)
  rename_i h20 ht
  obtain ⟨n, hn⟩ := Option.ne_none_iff_exists'.mp ht
  obtain ⟨hp, h8, hrem⟩ := get_transport_hdr_size_some hn
  have hplain : size_sub pkt_len (l3_off + ip_hdr_len_at packet l3_off + L4_WIRE_PORT_LEN) =
    pkt_len - plain_off_at packet l3_off := if_pos (by omega)
  have hpo : l3_off + ip_hdr_len_at packet l3_off + L4_WIRE_PORT_LEN =
    plain_off_at packet l3_off := rfl
  rw [hplain, hpo, if_neg (by omega)]
  have hnp : ¬ Passes packet pkt_len := by
    rintro (hno | ⟨off', hoff', hno⟩)
    · rw [hoff] at hno
      simp at hno
    · obtain rfl := Option.some.inj (hoff.symm.trans hoff')
      exact ht hno
  cases hr : (encrypt_tunnel_at o tls ctx counter packet (plain_off_at packet l3_off)
    (pkt_len - plain_off_at packet l3_off) CRYPTO_L4_TUNNEL_MAGIC).ret with
  | none => exact Or.inl hr
  | some m =>
    obtain ⟨-, hb, htun⟩ := encrypt_tunnel_at_tunnelled ho hns hr
    refine Or.inr (Or.inr ⟨l3_off, ⟨hoff, hp, by omega, by omega⟩, hnp, rfl, ?_, ?_⟩)
    · exact htun.patch_ipv4 _ _ _ (by omega)
    · intro i hi h1 h2
      exact (patch_ipv4_out _ _ _ _ i h1 h2).trans (hb i hi)

theorem crypto_layer4_encrypt_oneNonce (o : Openssl) (tls : Tls) (ctx : PacketCryptoCtx)
    (counter : Nat) (packet : Buf) (pkt_len : Nat) :
    OneNonce tls ctx counter (crypto_layer4_encrypt o tls ctx counter packet pkt_len) := by
  unfold crypto_layer4_encrypt
  split
  · exact Or.inl ⟨rfl, rfl⟩
  split
  · exact Or.inl ⟨rfl, rfl⟩
  rename_i l3_off _
  simp only
  split
  · exact Or.inl ⟨rfl, rfl⟩
  split
  · exact Or.inl ⟨rfl, rfl⟩
  split
  · exact Or.inl ⟨rfl, rfl⟩
  split
  · exact Or.inl ⟨rfl, rfl⟩
  split
  · exact Or.inl ⟨rfl, rfl⟩
  have h := encrypt_tunnel_at_oneNonce o tls ctx counter packet (plain_off_at packet l3_off)
    (size_sub pkt_len (plain_off_at packet l3_off)) CRYPTO_L4_TUNNEL_MAGIC
  split
  · exact h
  · exact h

theorem crypto_layer4_encrypt_fragment_single_oneNonce (o : Openssl) (tls : Tls)
    (ctx : PacketCryptoCtx) (counter : Nat) (eth_hdr ip_hdr wire_ports enc_plain : Bytes)
    (pkt_id : Nat) (frag_index : UInt8) (out_buf : Buf) (out_max : Nat) :
    OneNonce tls ctx counter (crypto_layer4_encrypt_fragment_single o tls ctx counter eth_hdr
      ip_hdr wire_ports enc_plain pkt_id frag_index out_buf out_max) := by
  unfold crypto_layer4_encrypt_fragment_single
  simp only
  split
  · exact Or.inl ⟨rfl, rfl⟩
  · exact encrypt_fragment_at_oneNonce _ _ _ _ _ _ _ _ _ _ _

/-! ## What decryption makes of it -/

/-- The headers of a frame that layer 4 has encapsulated, as a parser reads them. -/
theorem L4Frame.parse {o : Openssl} {tls : Tls} {ctx : PacketCryptoCtx} {counter : Nat}
    {packet out : Buf} {pkt_len l3_off n : Nat}
    (hf : L4Frame o tls ctx counter packet pkt_len l3_off out)
    (hp : L4Plain packet pkt_len l3_off) (hn : pkt_len ≤ n) :
    crypto_eth_ipv4_offset out n = some l3_off ∧
      ip_hdr_len_at out l3_off = ip_hdr_len_at packet l3_off ∧
      out (l3_off + 9) = packet (l3_off + 9) := by
  have hi := hp.ihl
  have hpo : plain_off_at packet l3_off = l3_off + ip_hdr_len_at packet l3_off + 4 := rfl
  refine ⟨crypto_eth_ipv4_offset_congr hp.offset hn ?_, ?_, ?_⟩
  · intro i hil
    exact hf.headers i (by omega) (by omega) (by omega)
  · unfold ip_hdr_len_at
    rw [hf.headers l3_off (by omega) (by omega) (by omega)]
  · exact hf.headers _ (by omega) (by omega) (by omega)

/-- A receiver with the same key and nonce size gets the packet back at its old length,
with the total length and the checksum of its IPv4 header computed anew. -/
theorem crypto_layer4_decrypt_frame {o : Openssl} (ho : o.Lawful) {tls : Tls} (tls' : Tls)
    {ctx : PacketCryptoCtx} (ctx' : PacketCryptoCtx) {counter : Nat} {packet out : Buf}
    {pkt_len l3_off : Nat}
    (hf : L4Frame o tls ctx counter packet pkt_len l3_off out)
    (hp : L4Plain packet pkt_len l3_off) (hs : SameAes tls tls')
    (hns : tls'.nonce_size = tls.nonce_size) (h4 : 4 ≤ tls.nonce_size)
    (he : tls'.evp_ok = true) (hk : SameKey tls ctx tls' ctx')
    (hi : ctx'.initialized = true) :
    ∃ pkt', crypto_layer4_decrypt o tls' ctx' out
        (pkt_len + (packet_crypto_get_tunnel_hdr_size tls + tag_overhead tls)) =
        (some pkt_len, pkt') ∧
      ∀ i, i < pkt_len → pkt' i =
        patch_ipv4 packet l3_off (ip_hdr_len_at packet l3_off) (pkt_len - l3_off) i := by
  have hh : packet_crypto_get_tunnel_hdr_size tls = tls.nonce_size + 2 := rfl
  have hh' : packet_crypto_get_tunnel_hdr_size tls' = tls.nonce_size + 2 := by rw [← hns]; rfl
  have hpo : l3_off + ip_hdr_len_at packet l3_off + L4_WIRE_PORT_LEN =
    plain_off_at packet l3_off := rfl
  have hL : L4_WIRE_PORT_LEN = 4 := rfl
  have h20 := hp.ihl
  have hfits := hp.fits
  obtain ⟨hoff, hihl, hpr⟩ := hf.parse (n := pkt_len + (packet_crypto_get_tunnel_hdr_size tls +
    tag_overhead tls)) hp (by omega)
  have hhdr : l4_is_tunnel_header out (plain_off_at packet l3_off) tls.nonce_size = true := by
    unfold l4_is_tunnel_header
    rw [hf.tunnelled.type_byte, decide_eq_true (hf.tunnelled.first_lt h4)]
    rfl
  unfold crypto_layer4_decrypt
  rw [if_neg (by rw [hi]; decide), hoff]
  dsimp only
  rw [hihl, hpr, hpo, if_neg (by omega), if_neg (by rcases hp.proto with h | h <;> simp [h]),
    if_neg (by omega), hh', hns, hhdr,
    if_neg (by simp only [Bool.not_true, Bool.false_eq_true, or_false]; omega)]
  have hopen := open_tunnel_at_tunnelled ho hf.tunnelled hs hns he hk l3_off
    (ip_hdr_len_at packet l3_off)
  rw [length_read] at hopen
  rw [show pkt_len + (packet_crypto_get_tunnel_hdr_size tls + tag_overhead tls) =
    plain_off_at packet l3_off + tls.nonce_size + 2 + (pkt_len - plain_off_at packet l3_off) +
      tag_overhead tls by omega, ← Nat.add_assoc, hopen,
    show plain_off_at packet l3_off + (pkt_len - plain_off_at packet l3_off) = pkt_len by omega]
  refine ⟨_, rfl, ?_⟩
  apply patch_ipv4_congr _ _ _ (by omega)
  intro i hin h1 h2
  by_cases hb : plain_off_at packet l3_off ≤ i
  · rw [write_read_in _ _ _ _ _ _ hb (by omega)]
    congr 1
    omega
  · rw [write_out _ _ _ _ (by omega), write_out _ _ _ _ (by omega),
      hf.headers i (by omega) h1 h2]

/-! ## Fragments -/

/-- A fragment of a packet with its headers and its ports. -/
structure L4Fragment (o : Openssl) (tls : Tls) (ctx : PacketCryptoCtx) (counter : Nat)
    (packet : Buf) (ihl : Nat) (enc_plain : Bytes) (pkt_id : Nat) (frag_index : UInt8)
    (out : Buf) (n : Nat) : Prop where
  tagged : Tagged o tls ctx counter enc_plain out (14 + ihl + L4_WIRE_PORT_LEN)
    CRYPTO_L4_FRAG_MAGIC pkt_id frag_index n
  headers : ∀ i, i < 14 + ihl → (i < 16 ∨ 18 ≤ i) → (i < 24 ∨ 26 ≤ i) → out i = packet i

theorem L4Fragment.congr {o : Openssl} {tls : Tls} {ctx : PacketCryptoCtx} {counter : Nat}
    {packet : Buf} {ihl : Nat} {enc_plain : Bytes} {pkt_id : Nat} {frag_index : UInt8} {b c : Buf}
    {n : Nat} (h : L4Fragment o tls ctx counter packet ihl enc_plain pkt_id frag_index b n)
    (hc : ∀ i, i < n → c i = b i) :
    L4Fragment o tls ctx counter packet ihl enc_plain pkt_id frag_index c n := by
  have hlen := h.tagged.len
  refine ⟨h.tagged.congr hc, fun i hi h1 h2 => ?_⟩
  rw [hc i (by omega), h.headers i hi h1 h2]

theorem crypto_layer4_encrypt_fragment_single_some {o : Openssl} (ho : o.Lawful) {tls : Tls}
    {ctx : PacketCryptoCtx} {counter : Nat} {packet : Buf} {ihl : Nat} {ports enc_plain : Bytes}
    {pkt_id : Nat} {frag_index : UInt8} {out_buf : Buf} {out_max n : Nat}
    (hns : 4 ≤ tls.nonce_size) (h20 : 20 ≤ ihl)
    (h : (crypto_layer4_encrypt_fragment_single o tls ctx counter (read packet 0 14)
      (read packet 14 ihl) ports enc_plain pkt_id frag_index out_buf out_max).ret = some n) :
    L4Fragment o tls ctx counter packet ihl enc_plain pkt_id frag_index
      (crypto_layer4_encrypt_fragment_single o tls ctx counter (read packet 0 14)
        (read packet 14 ihl) ports enc_plain pkt_id frag_index out_buf out_max).pkt n := by
  have hE : ETH_HEADER_SIZE = 14 := rfl
  have hL : L4_WIRE_PORT_LEN = 4 := rfl
  unfold crypto_layer4_encrypt_fragment_single at h ⊢
  simp only [length_read] at h ⊢
  split at h
  · simp at h
  rename_i hcond
  rw [if_neg hcond]
  obtain ⟨htag, hhead⟩ := encrypt_fragment_at_tagged ho hns (by omega) h
  refine ⟨htag, ?_⟩
  intro i hi h1 h2
  rw [hhead i (by omega) h1 h2, write_out _ _ _ _ (by omega)]
  by_cases hb : 14 ≤ i
  · rw [write_read_in _ _ _ _ _ _ hb (by omega)]
    congr 1
    omega
  · rw [write_out _ _ _ _ (by omega), write_read_in _ _ _ _ _ _ (by omega) (by omega)]
    congr 1
    omega

/-- A fragment has the packet's headers. -/
theorem L4Fragment.parse {o : Openssl} {tls : Tls} {ctx : PacketCryptoCtx} {counter : Nat}
    {packet : Buf} {ihl : Nat} {enc_plain : Bytes} {pkt_id : Nat} {frag_index : UInt8} {out : Buf}
    {n : Nat} (hf : L4Fragment o tls ctx counter packet ihl enc_plain pkt_id frag_index out n)
    (h4 : be16 packet 12 = 0x0800) (hihl : (packet 14).toNat % 16 * 4 = ihl) (h20 : 20 ≤ ihl) :
    crypto_eth_ipv4_offset out n = some 14 ∧ ip_hdr_len_at out 14 = ihl ∧
    out (14 + 9) = packet (14 + 9) := by
  have hE : ETH_HEADER_SIZE = 14 := rfl
  have hL : L4_WIRE_PORT_LEN = 4 := rfl
  have hlen := hf.tagged.len
  refine ⟨?_, ?_, hf.headers 23 (by omega) (by omega) (by omega)⟩
  · unfold crypto_eth_ipv4_offset
    rw [if_neg (by omega), be16_congr (hf.headers 12 (by omega) (by omega) (by omega))
      (hf.headers 13 (by omega) (by omega) (by omega)), if_pos h4]
  · unfold ip_hdr_len_at
    rw [hf.headers 14 (by omega) (by omega) (by omega), hihl]

/-- A receiver with the same key and nonce size gets the plaintext behind the headers and the
ports. -/
theorem crypto_layer4_decrypt_fragment_frame {o : Openssl} (ho : o.Lawful) {tls : Tls} (tls' : Tls)
    {ctx : PacketCryptoCtx} (ctx' : PacketCryptoCtx) {counter : Nat} {packet : Buf} {ihl : Nat}
    {enc_plain : Bytes} {pkt_id : Nat} {frag_index : UInt8} {out : Buf} {n : Nat}
    (hf : L4Fragment o tls ctx counter packet ihl enc_plain pkt_id frag_index out n)
    (h4 : be16 packet 12 = 0x0800) (hproto : packet (14 + 9) = 6 ∨ packet (14 + 9) = 17)
    (hihl : (packet 14).toNat % 16 * 4 = ihl) (h20 : 20 ≤ ihl)
    (hs : SameAes tls tls') (hns : tls'.nonce_size = tls.nonce_size) (he : tls'.evp_ok = true)
    (hk : SameKey tls ctx tls' ctx') (hi : ctx'.initialized = true) :
    ∃ pkt, crypto_layer4_decrypt_fragment o tls' ctx' out n =
        (some (14 + ihl + L4_WIRE_PORT_LEN + enc_plain.length, (pkt_id % 65536, frag_index)),
          pkt) ∧
      read pkt (14 + ihl + L4_WIRE_PORT_LEN) enc_plain.length = enc_plain ∧
      ∀ i, i < 14 + ihl → (i < 16 ∨ 18 ≤ i) → (i < 24 ∨ 26 ≤ i) → pkt i = packet i := by
  have hE : ETH_HEADER_SIZE = 14 := rfl
  have hL : L4_WIRE_PORT_LEN = 4 := rfl
  have hF : FRAG_TAG_SIZE = 4 := rfl
  have hh : packet_crypto_get_tunnel_hdr_size tls' = tls.nonce_size + 2 := by rw [← hns]; rfl
  have hh' : packet_crypto_get_tunnel_hdr_size tls = tls.nonce_size + 2 := rfl
  have hlen := hf.tagged.len
  obtain ⟨hoff, hl, hp⟩ := hf.parse h4 hihl h20
  unfold crypto_layer4_decrypt_fragment
  rw [if_neg (by simp [hi]), hoff]
  dsimp only
  rw [hl, hp, hns, hf.tagged.tunnelled.type_byte, if_neg (by
    rintro (hc | ⟨h6, h17⟩ | hc | hc | hc)
    · omega
    · exact hproto.elim h6 h17
    · omega
    · omega
    · exact hc rfl)]
  obtain ⟨pkt, hopen, hplain, hhead⟩ := hf.tagged.opened ho hs hns he hk ihl (by omega)
  have htag := hf.tagged.tag
  rw [hh', ← hh] at htag
  rw [show (14 : Nat) = ETH_HEADER_SIZE from rfl] at hopen htag ⊢
  rw [hopen, htag]
  refine ⟨pkt, rfl, hplain, ?_⟩
  intro i hi' h1 h2
  rw [hhead i (by omega) h1 h2, hf.headers i hi' h1 h2]

end ne_ip.crypto_layer4
