-- The tunnel header that layers 3 and 4 share: a nonce, the policy id and one
-- type byte, before a ciphertext. A fragment has a tag of four bytes after it.
import NeIp.PacketCrypto

open byte_buf ne_ip.packet_crypto

namespace ne_ip.tunnel

/-- `CRYPTO_L3_FRAG_TAG_SIZE`, `CRYPTO_L2_FRAG_TAG_SIZE` and `FRAG_L4_HDR_SIZE`. -/
def FRAG_TAG_SIZE : Nat := 4

/-- `crypto_write_l3_tunnel_header` and the three `*_write_tunnel_header*` functions. -/
def write_tunnel_header (buf : Buf) (off : Nat) (nonce : Bytes) (tls : Tls) (type : UInt8) : Buf :=
  write (write buf off nonce) (off + tls.nonce_size) [tls.policy_id, type]

/-- `l2_write_frag_tag`, `l3_write_frag_tag` and `l4_write_frag_tag`. -/
def write_frag_tag (buf : Buf) (off pkt_id : Nat) (frag_index : UInt8) : Buf :=
  write buf off (be16Bytes pkt_id ++ [frag_index, 0])

/-- `l2_read_frag_tag`, `l3_read_frag_tag`, `l4_read_frag_tag` and `frag_read_hdr`. -/
def read_frag_tag (buf : Buf) (off : Nat) : Nat × UInt8 := (be16 buf off, buf (off + 2))

/-- What AES was called with: nothing when there was no byte to encrypt. -/
def aes_used (tls : Tls) (key nonce : Bytes) (len : Nat) : List (Bytes × Bytes) :=
  if len = 0 then [] else [(key.take (get_key_size tls.aes_bits), nonce)]

/-- What `crypto_layer3_encrypt` and `crypto_layer4_encrypt` do from the counter on: the
payload is encrypted where it stands, moved behind the tunnel header, and the header is
written. The return code is the length of the frame. -/
def encrypt_tunnel_at (o : Openssl) (tls : Tls) (ctx : PacketCryptoCtx) (counter : Nat)
    (packet : Buf) (tunnel_off payload_len : Nat) (type : UInt8) : EncResult :=
  let enc_off := tunnel_off + packet_crypto_get_tunnel_hdr_size tls
  let counter' := (packet_crypto_next_counter counter).2
  let nonce := next_nonce tls counter
  let key := packet_crypto_get_key ctx .current
  match aes_encrypt o tls key nonce packet tunnel_off payload_len with
  | none => { ret := none, pkt := packet, counter := counter' }
  | some (pkt, tag) =>
    let pkt := write pkt enc_off (read pkt tunnel_off payload_len)
    let pkt := write pkt (enc_off + payload_len) tag
    { ret := some (enc_off + payload_len + tag_overhead tls)
      pkt := write_tunnel_header pkt tunnel_off nonce tls type
      counter := counter'
      used := aes_used tls key nonce payload_len }

/-- What `crypto_layer3_encrypt_fragment_single` and `crypto_layer4_encrypt_fragment_single`
do from the counter on: the tunnel header and the fragment tag are written, and the
plaintext is copied behind them and encrypted there. -/
def encrypt_fragment_at (o : Openssl) (tls : Tls) (ctx : PacketCryptoCtx) (counter : Nat)
    (out_buf : Buf) (tunnel_off ip_hdr_len : Nat) (type : UInt8) (enc_plain : Bytes)
    (pkt_id : Nat) (frag_index : UInt8) : EncResult :=
  let tag_off := tunnel_off + packet_crypto_get_tunnel_hdr_size tls
  let enc_off := tag_off + FRAG_TAG_SIZE
  let counter' := (packet_crypto_next_counter counter).2
  let nonce := next_nonce tls counter
  let key := packet_crypto_get_key ctx .current
  let out := write_tunnel_header out_buf tunnel_off nonce tls type
  let out := write_frag_tag out tag_off pkt_id frag_index
  let out := write out enc_off enc_plain
  match aes_encrypt o tls key nonce out enc_off enc_plain.length with
  | none => { ret := none, pkt := out, counter := counter' }
  | some (out, tag) =>
    let out := write out (enc_off + enc_plain.length) tag
    let out_len := enc_off + enc_plain.length + tag_overhead tls
    { ret := some out_len
      pkt := patch_ipv4 out ETH_HEADER_SIZE ip_hdr_len (out_len - ETH_HEADER_SIZE)
      counter := counter'
      used := aes_used tls key nonce enc_plain.length }

/-- What `crypto_layer4_decrypt` and the two `*_decrypt_fragment` functions do from the
nonce on: the ciphertext at `enc_off` is opened and moved to where the tunnel header
stood. -/
def open_tunnel_at (o : Openssl) (tls : Tls) (ctx : PacketCryptoCtx) (packet : Buf)
    (pkt_len l3_off ip_hdr_len tunnel_off enc_off : Nat) : Option Nat × Buf :=
  let nonce := read packet tunnel_off tls.nonce_size
  match decrypt_in_place o tls ctx nonce (fun _ => true) packet enc_off (pkt_len - enc_off) with
  | (none, packet) => (none, packet)
  | (some enc_len, packet) =>
    let packet := write packet tunnel_off (read packet enc_off enc_len)
    (some (tunnel_off + enc_len),
      patch_ipv4 packet l3_off ip_hdr_len (tunnel_off + enc_len - l3_off))

/-! ## What a sender leaves in the frame -/

theorem write_tunnel_header_before (buf : Buf) (off : Nat) (nonce : Bytes) (tls : Tls)
    (type : UInt8) (i : Nat) (h : i < off) : write_tunnel_header buf off nonce tls type i = buf i := by
  unfold write_tunnel_header
  rw [write_out _ _ _ _ (by omega), write_out _ _ _ _ (by omega)]

theorem write_tunnel_header_policy_id (buf : Buf) (off : Nat) (nonce : Bytes) (tls : Tls)
    (type : UInt8) : write_tunnel_header buf off nonce tls type (off + tls.nonce_size) = tls.policy_id :=
  write_head _ _ _ _

theorem write_tunnel_header_type (buf : Buf) (off : Nat) (nonce : Bytes) (tls : Tls)
    (type : UInt8) : write_tunnel_header buf off nonce tls type (off + tls.nonce_size + 1) = type :=
  write_second _ _ _ _ _

/-- A tunnel in a frame: the policy id and the type byte after the nonce, and the data
sealed behind a header of `gap` more bytes. -/
structure Tunnelled (o : Openssl) (tls : Tls) (ctx : PacketCryptoCtx) (counter : Nat)
    (data : Bytes) (out : Buf) (tunnel_off gap : Nat) (type : UInt8) : Prop where
  policy_id : out (tunnel_off + tls.nonce_size) = tls.policy_id
  type_byte : out (tunnel_off + tls.nonce_size + 1) = type
  sealed : Sealed o tls (packet_crypto_get_key ctx .current) (next_nonce tls counter) data out
    tunnel_off gap

theorem Tunnelled.congr {o : Openssl} {tls : Tls} {ctx : PacketCryptoCtx} {counter : Nat}
    {data : Bytes} {b c : Buf} {tunnel_off gap : Nat} {type : UInt8}
    (h : Tunnelled o tls ctx counter data b tunnel_off gap type)
    (hc : ∀ i, tunnel_off ≤ i → c i = b i) :
    Tunnelled o tls ctx counter data c tunnel_off gap type where
  policy_id := by rw [hc _ (by omega), h.policy_id]
  type_byte := by rw [hc _ (by omega), h.type_byte]
  sealed := h.sealed.congr fun i h1 _ => hc i h1

/-- The top bit of a tunnel is clear, which is how the receiver knows IPv4. -/
theorem Tunnelled.first_lt {o : Openssl} {tls : Tls} {ctx : PacketCryptoCtx} {counter : Nat}
    {data : Bytes} {b : Buf} {tunnel_off gap : Nat} {type : UInt8}
    (h : Tunnelled o tls ctx counter data b tunnel_off gap type) (hns : 4 ≤ tls.nonce_size) :
    (b tunnel_off).toNat < 128 := by
  have hr := getD_read b tunnel_off tls.nonce_size 0 (by omega)
  rw [h.sealed.nonce_at, Nat.add_zero] at hr
  rw [← hr]
  exact nonce_first_lt _ _ hns

/-- A rewrite of the IPv4 header before the tunnel leaves the tunnel alone. -/
theorem Tunnelled.patch_ipv4 {o : Openssl} {tls : Tls} {ctx : PacketCryptoCtx} {counter : Nat}
    {data : Bytes} {b : Buf} {tunnel_off gap : Nat} {type : UInt8}
    (h : Tunnelled o tls ctx counter data b tunnel_off gap type) (l3_off ip_hdr_len total : Nat)
    (hl : l3_off + 20 ≤ tunnel_off) :
    Tunnelled o tls ctx counter data (patch_ipv4 b l3_off ip_hdr_len total) tunnel_off gap type :=
  h.congr fun i hi => patch_ipv4_out _ _ _ _ i (by omega) (by omega)

/-- A thread that has AES never fails. -/
theorem encrypt_tunnel_at_ret {o : Openssl} (ho : o.Lawful) {tls : Tls} (he : tls.evp_ok = true)
    (ctx : PacketCryptoCtx) (counter : Nat) (packet : Buf) (tunnel_off payload_len : Nat)
    (type : UInt8) :
    (encrypt_tunnel_at o tls ctx counter packet tunnel_off payload_len type).ret =
      some (tunnel_off + packet_crypto_get_tunnel_hdr_size tls + payload_len + tag_overhead tls) := by
  unfold encrypt_tunnel_at
  dsimp only
  rw [aes_encrypt_eq ho, if_pos (Or.inr he)]

theorem encrypt_tunnel_at_tunnelled {o : Openssl} (ho : o.Lawful) {tls : Tls}
    {ctx : PacketCryptoCtx} {counter : Nat} {packet : Buf} {tunnel_off payload_len n : Nat}
    {type : UInt8} (hns : 4 ≤ tls.nonce_size)
    (h : (encrypt_tunnel_at o tls ctx counter packet tunnel_off payload_len type).ret = some n) :
    n = tunnel_off + packet_crypto_get_tunnel_hdr_size tls + payload_len + tag_overhead tls ∧
    (∀ i, i < tunnel_off →
      (encrypt_tunnel_at o tls ctx counter packet tunnel_off payload_len type).pkt i = packet i) ∧
    Tunnelled o tls ctx counter (read packet tunnel_off payload_len)
      (encrypt_tunnel_at o tls ctx counter packet tunnel_off payload_len type).pkt
      tunnel_off 2 type := by
  have hh : packet_crypto_get_tunnel_hdr_size tls = tls.nonce_size + 2 := rfl
  unfold encrypt_tunnel_at at h ⊢
  simp only at h ⊢
  split at h
  · simp at h
  · rename_i pkt tag he
    obtain ⟨rfl, rfl⟩ := Prod.mk.inj (aes_encrypt_some ho he)
    simp only
    refine ⟨(Option.some.inj h).symm, ?_, write_tunnel_header_policy_id _ _ _ _ _,
      write_tunnel_header_type _ _ _ _ _, ?_⟩
    · intro i hi
      rw [write_tunnel_header_before _ _ _ _ _ i hi, write_out _ _ _ _ (by omega),
        write_out _ _ _ _ (by omega), write_out _ _ _ _ (by omega)]
    · have hc := length_sealOf_cipher ho tls (packet_crypto_get_key ctx .current)
        (next_nonce tls counter) (read packet tunnel_off payload_len)
      rw [read_write_self _ _ _ _ (by rw [hc, length_read])]
      exact sealed_of_writes ho _ _ _ _ _ _ _ _ _ _ (length_crypto_generate_nonce _ _ _ hns) rfl
        (by omega) (by rw [length_read])

/-- A fragment is its headers as they were given, rewritten for its length, and a tunnel
whose header goes on with the fragment tag. -/
theorem encrypt_fragment_at_tunnelled {o : Openssl} (ho : o.Lawful) {tls : Tls}
    {ctx : PacketCryptoCtx} {counter : Nat} {out_buf : Buf} {tunnel_off ip_hdr_len n : Nat}
    {type : UInt8} {enc_plain : Bytes} {pkt_id : Nat} {frag_index : UInt8}
    (hns : 4 ≤ tls.nonce_size)
    (h : (encrypt_fragment_at o tls ctx counter out_buf tunnel_off ip_hdr_len type enc_plain
      pkt_id frag_index).ret = some n) :
    n = tunnel_off + packet_crypto_get_tunnel_hdr_size tls + FRAG_TAG_SIZE + enc_plain.length +
      tag_overhead tls ∧
    ∃ out, (encrypt_fragment_at o tls ctx counter out_buf tunnel_off ip_hdr_len type enc_plain
        pkt_id frag_index).pkt =
        patch_ipv4 out ETH_HEADER_SIZE ip_hdr_len (n - ETH_HEADER_SIZE) ∧
      (∀ i, i < tunnel_off → out i = out_buf i) ∧
      read out (tunnel_off + packet_crypto_get_tunnel_hdr_size tls) FRAG_TAG_SIZE =
        be16Bytes pkt_id ++ [frag_index, 0] ∧
      Tunnelled o tls ctx counter enc_plain out tunnel_off 6 type := by
  have hh : packet_crypto_get_tunnel_hdr_size tls = tls.nonce_size + 2 := rfl
  have hf : FRAG_TAG_SIZE = 4 := rfl
  unfold encrypt_fragment_at at h ⊢
  simp only at h ⊢
  split at h
  · simp at h
  · rename_i pkt tag he
    obtain ⟨rfl, rfl⟩ := Prod.mk.inj (aes_encrypt_some ho he)
    have hn := (Option.some.inj h).symm
    subst hn
    have hk : (be16Bytes pkt_id ++ [frag_index, 0]).length = 4 := rfl
    have hnon := length_crypto_generate_nonce tls (packet_crypto_next_counter counter).1
      PROTO_FLAG_IPV4 hns
    rw [read_write_self _ _ _ _ rfl]
    have hc := length_sealOf_cipher ho tls (packet_crypto_get_key ctx .current)
      (next_nonce tls counter) enc_plain
    have hb : (([tls.policy_id, type] : Bytes)).length = 2 := rfl
    unfold write_frag_tag
    refine ⟨rfl, _, rfl, ?_, ?_, ?_, ?_, ?_⟩
    · intro i hi
      rw [write_out _ _ _ _ (by omega), write_out _ _ _ _ (by omega), write_out _ _ _ _ (by omega),
        write_out _ _ _ _ (by omega), write_tunnel_header_before _ _ _ _ _ i hi]
    · rw [read_write_apart _ _ _ _ _ (by omega), read_write_apart _ _ _ _ _ (by omega),
        read_write_apart _ _ _ _ _ (by omega), read_write_self _ _ _ _ (by omega)]
    · rw [write_out _ _ _ _ (by omega), write_out _ _ _ _ (by omega), write_out _ _ _ _ (by omega),
        write_out _ _ _ _ (by omega), write_tunnel_header_policy_id]
    · rw [write_out _ _ _ _ (by omega), write_out _ _ _ _ (by omega), write_out _ _ _ _ (by omega),
        write_out _ _ _ _ (by omega), write_tunnel_header_type]
    · refine sealed_in_place ho _ _ _ _ _ _ _ _ _ ?_ (by omega) rfl
      unfold write_tunnel_header
      rw [read_write_apart _ _ _ _ _ (by omega), read_write_apart _ _ _ _ _ (by omega),
        read_write_apart _ _ _ _ _ (by omega)]
      exact read_write_self _ _ _ _ hnon.symm

/-! ## What a receiver makes of it -/

/-- A receiver that runs AES under the same key, with the same nonce size, opens a tunnel and moves
what it finds to where the tunnel header stood. -/
theorem open_tunnel_at_tunnelled {o : Openssl} (ho : o.Lawful) {tls tls' : Tls}
    {ctx ctx' : PacketCryptoCtx} {counter : Nat} {data : Bytes} {out : Buf}
    {tunnel_off gap : Nat} {type : UInt8}
    (h : Tunnelled o tls ctx counter data out tunnel_off gap type) (hs : SameAes tls tls')
    (hns : tls'.nonce_size = tls.nonce_size) (he : tls'.evp_ok = true)
    (hk : SameKey tls ctx tls' ctx') (l3_off ip_hdr_len : Nat) :
    open_tunnel_at o tls' ctx' out (tunnel_off + tls.nonce_size + gap + data.length +
        tag_overhead tls) l3_off ip_hdr_len tunnel_off (tunnel_off + tls.nonce_size + gap) =
      (some (tunnel_off + data.length),
        patch_ipv4 (write (write out (tunnel_off + tls.nonce_size + gap) data) tunnel_off data)
          l3_off ip_hdr_len (tunnel_off + data.length - l3_off)) := by
  have hsealed := h.sealed
  unfold open_tunnel_at
  rw [hns, hsealed.nonce_at, show tunnel_off + tls.nonce_size + gap + data.length +
    tag_overhead tls - (tunnel_off + tls.nonce_size + gap) = data.length + tag_overhead tls by omega]
  dsimp only
  rw [hsealed.open_in_place ho hs hk he (fun _ => rfl)]
  dsimp only
  rw [read_write_self _ _ _ _ rfl]

/-! ## Fragments -/

/-- A fragment of `n` bytes: a tunnel whose header goes on with the fragment's tag. -/
structure Tagged (o : Openssl) (tls : Tls) (ctx : PacketCryptoCtx) (counter : Nat)
    (enc_plain : Bytes) (out : Buf) (tunnel_off : Nat) (type : UInt8) (pkt_id : Nat)
    (frag_index : UInt8) (n : Nat) : Prop where
  len : n = tunnel_off + tls.nonce_size + 6 + enc_plain.length + tag_overhead tls
  tag : read_frag_tag out (tunnel_off + packet_crypto_get_tunnel_hdr_size tls) =
    (pkt_id % 65536, frag_index)
  tunnelled : Tunnelled o tls ctx counter enc_plain out tunnel_off 6 type

/-- A copy of the fragment's bytes is the fragment. -/
theorem Tagged.congr {o : Openssl} {tls : Tls} {ctx : PacketCryptoCtx} {counter : Nat}
    {enc_plain : Bytes} {b c : Buf} {tunnel_off : Nat} {type : UInt8} {pkt_id : Nat}
    {frag_index : UInt8} {n : Nat}
    (h : Tagged o tls ctx counter enc_plain b tunnel_off type pkt_id frag_index n)
    (hc : ∀ i, i < n → c i = b i) :
    Tagged o tls ctx counter enc_plain c tunnel_off type pkt_id frag_index n := by
  have hlen := h.len
  have hh : packet_crypto_get_tunnel_hdr_size tls = tls.nonce_size + 2 := rfl
  have htag := h.tag
  refine ⟨hlen, ?_, ?_, ?_, ?_⟩
  · rw [← htag]
    unfold read_frag_tag
    rw [be16_congr (hc _ (by omega)) (hc _ (by omega)), hc _ (by omega)]
  · rw [hc _ (by omega), h.tunnelled.policy_id]
  · rw [hc _ (by omega), h.tunnelled.type_byte]
  · exact h.tunnelled.sealed.congr fun i _ h2 => hc i (by omega)

/-- The tag that was written is read. -/
theorem read_frag_tag_of_read {out : Buf} {off pkt_id : Nat} {frag_index : UInt8}
    (h : read out off FRAG_TAG_SIZE = be16Bytes pkt_id ++ [frag_index, 0]) :
    read_frag_tag out off = (pkt_id % 65536, frag_index) := by
  have hF : FRAG_TAG_SIZE = 4 := rfl
  have hbyte : ∀ j, j < 4 → out (off + j) = (be16Bytes pkt_id ++ [frag_index, 0]).getD j 0 := by
    intro j hj
    rw [← h, getD_read _ _ _ _ (by omega)]
  have h0 := hbyte 0 (by omega)
  have h1 := hbyte 1 (by omega)
  have h2 := hbyte 2 (by omega)
  rw [Nat.add_zero] at h0
  unfold read_frag_tag be16
  rw [h0, h1, h2]
  simp only [be16Bytes, List.cons_append, List.nil_append, List.getD_cons_zero,
    List.getD_cons_succ, Prod.mk.injEq, and_true, UInt8.toNat_ofNat']
  omega

theorem encrypt_fragment_at_tagged {o : Openssl} (ho : o.Lawful) {tls : Tls}
    {ctx : PacketCryptoCtx} {counter : Nat} {out_buf : Buf} {tunnel_off ip_hdr_len n : Nat}
    {type : UInt8} {enc_plain : Bytes} {pkt_id : Nat} {frag_index : UInt8}
    (hns : 4 ≤ tls.nonce_size) (hl : ETH_HEADER_SIZE + 20 ≤ tunnel_off)
    (h : (encrypt_fragment_at o tls ctx counter out_buf tunnel_off ip_hdr_len type enc_plain
      pkt_id frag_index).ret = some n) :
    Tagged o tls ctx counter enc_plain (encrypt_fragment_at o tls ctx counter out_buf tunnel_off
      ip_hdr_len type enc_plain pkt_id frag_index).pkt tunnel_off type pkt_id frag_index n ∧
    ∀ i, i < tunnel_off → (i < 16 ∨ 18 ≤ i) → (i < 24 ∨ 26 ≤ i) →
      (encrypt_fragment_at o tls ctx counter out_buf tunnel_off ip_hdr_len type enc_plain pkt_id
        frag_index).pkt i = out_buf i := by
  have hE : ETH_HEADER_SIZE = 14 := rfl
  have hF : FRAG_TAG_SIZE = 4 := rfl
  have hh : packet_crypto_get_tunnel_hdr_size tls = tls.nonce_size + 2 := rfl
  obtain ⟨hn, out, hpkt, hhead, htag, ht⟩ := encrypt_fragment_at_tunnelled ho hns h
  rw [hpkt]
  have hp : ∀ i, (i < 16 ∨ 18 ≤ i) → (i < 24 ∨ 26 ≤ i) →
      patch_ipv4 out ETH_HEADER_SIZE ip_hdr_len (n - ETH_HEADER_SIZE) i = out i := fun i h1 h2 =>
    patch_ipv4_out _ _ _ _ i (by omega) (by omega)
  refine ⟨⟨by omega, ?_, ht.patch_ipv4 _ _ _ hl⟩, fun i hi h1 h2 => (hp i h1 h2).trans (hhead i hi)⟩
  refine read_frag_tag_of_read ?_
  rw [← htag]
  exact read_congr fun i h1 h2 => hp i (by omega) (by omega)

/-- Such a receiver finds the plaintext where the tunnel of a fragment stood. -/
theorem Tagged.opened {o : Openssl} (ho : o.Lawful) {tls tls' : Tls} {ctx ctx' : PacketCryptoCtx}
    {counter : Nat} {enc_plain : Bytes} {out : Buf} {tunnel_off : Nat} {type : UInt8}
    {pkt_id : Nat} {frag_index : UInt8} {n : Nat}
    (h : Tagged o tls ctx counter enc_plain out tunnel_off type pkt_id frag_index n)
    (hs : SameAes tls tls') (hns : tls'.nonce_size = tls.nonce_size) (he : tls'.evp_ok = true)
    (hk : SameKey tls ctx tls' ctx') (ip_hdr_len : Nat)
    (hl : ETH_HEADER_SIZE + 20 ≤ tunnel_off) :
    ∃ pkt, open_tunnel_at o tls' ctx' out n ETH_HEADER_SIZE ip_hdr_len tunnel_off
        (tunnel_off + packet_crypto_get_tunnel_hdr_size tls' + FRAG_TAG_SIZE) =
        (some (tunnel_off + enc_plain.length), pkt) ∧
      read pkt tunnel_off enc_plain.length = enc_plain ∧
      ∀ i, i < tunnel_off → (i < 16 ∨ 18 ≤ i) → (i < 24 ∨ 26 ≤ i) → pkt i = out i := by
  have hE : ETH_HEADER_SIZE = 14 := rfl
  have hh : packet_crypto_get_tunnel_hdr_size tls' = tls.nonce_size + 2 := by rw [← hns]; rfl
  have hopen := open_tunnel_at_tunnelled ho h.tunnelled hs hns he hk ETH_HEADER_SIZE ip_hdr_len
  rw [← h.len] at hopen
  rw [hh, show tunnel_off + (tls.nonce_size + 2) + FRAG_TAG_SIZE = tunnel_off + tls.nonce_size + 6
    from rfl, hopen]
  refine ⟨_, rfl, ?_, ?_⟩
  · rw [read_congr fun i h1 _ => patch_ipv4_out _ _ _ _ i (by omega) (by omega)]
    exact read_write_self _ _ _ _ rfl
  · intro i hi h1 h2
    rw [patch_ipv4_out _ _ _ _ i (by omega) (by omega), write_out _ _ _ _ (by omega),
      write_out _ _ _ _ (by omega)]

/-! ## One nonce for one call -/

/-- What every encrypt function does to `g_nonce_counter`: a call that takes no nonce
leaves it alone, and a call that takes one runs AES at most once, under that nonce. -/
def OneNonce (tls : Tls) (ctx : PacketCryptoCtx) (counter : Nat) (r : EncResult) : Prop :=
  (r.counter = counter ∧ r.used = []) ∨
  (r.counter = (packet_crypto_next_counter counter).2 ∧
    (r.used = [] ∨ r.used =
      [((packet_crypto_get_key ctx .current).take (get_key_size tls.aes_bits),
        next_nonce tls counter)]))

theorem aes_used_cases (tls : Tls) (key nonce : Bytes) (len : Nat) :
    aes_used tls key nonce len = [] ∨
      aes_used tls key nonce len = [(key.take (get_key_size tls.aes_bits), nonce)] := by
  unfold aes_used
  split
  · exact Or.inl rfl
  · exact Or.inr rfl

theorem encrypt_tunnel_at_oneNonce (o : Openssl) (tls : Tls) (ctx : PacketCryptoCtx)
    (counter : Nat) (packet : Buf) (tunnel_off payload_len : Nat) (type : UInt8) :
    OneNonce tls ctx counter
      (encrypt_tunnel_at o tls ctx counter packet tunnel_off payload_len type) := by
  unfold encrypt_tunnel_at
  simp only
  split
  · exact Or.inr ⟨rfl, Or.inl rfl⟩
  · exact Or.inr ⟨rfl, aes_used_cases _ _ _ _⟩

theorem encrypt_fragment_at_oneNonce (o : Openssl) (tls : Tls) (ctx : PacketCryptoCtx)
    (counter : Nat) (out_buf : Buf) (tunnel_off ip_hdr_len : Nat) (type : UInt8)
    (enc_plain : Bytes) (pkt_id : Nat) (frag_index : UInt8) :
    OneNonce tls ctx counter (encrypt_fragment_at o tls ctx counter out_buf tunnel_off ip_hdr_len
      type enc_plain pkt_id frag_index) := by
  unfold encrypt_fragment_at
  simp only
  split
  · exact Or.inr ⟨rfl, Or.inl rfl⟩
  · exact Or.inr ⟨rfl, aes_used_cases _ _ _ _⟩

end ne_ip.tunnel
