-- Layer 2 encryption (crypto_layer2.c): the ethertype's first byte becomes a
-- fake marker and its second the policy id, and the whole IPv4 packet is sealed.
import NeIp.Tunnel

open byte_buf ne_ip.packet_crypto ne_ip.tunnel

namespace ne_ip.crypto_layer2

def L2_FRAG_MAGIC : UInt8 := 0x5B
def MIN_ETH_PKT : Nat := ETH_HEADER_SIZE + 8

def l2_enc_start_offset (nonce_size : Nat) : Nat := ETH_HEADER_SIZE + nonce_size

def l2_frag_enc_start_offset (nonce_size : Nat) : Nat :=
  ETH_HEADER_SIZE + nonce_size + 1 + FRAG_TAG_SIZE

def pkt_is_ipv4_eth (packet : Buf) : Bool := be16 packet 12 == 0x0800

/-- The protocols that a decrypted packet may carry. -/
def verify_ipv4_after_decrypt (ip_payload : Bytes) : Bool :=
  if ip_payload.length < 20 then false
  else if ip_payload.getD 8 0 = 0 then false
  else [1, 2, 6, 17, 47, 50, 51, 58, 89, 132].contains (ip_payload.getD 9 0)

/-- `l2_fake_marker_byte`; `fake` is `g_fake_ethertype_ipv4`. -/
def l2_fake_marker_byte (fake : Nat) (packet : Buf) : Option UInt8 :=
  if !pkt_is_ipv4_eth packet ∨ fake = 0 then none else some (UInt8.ofNat (fake / 256))

def l2_has_fake_marker (fake : Nat) (packet : Buf) : Bool :=
  fake != 0 && packet 12 == UInt8.ofNat (fake / 256)

def crypto_layer2_frag_meta_len (tls : Tls) : Nat :=
  tls.nonce_size + 1 + FRAG_TAG_SIZE + tag_overhead tls

/-- `crypto_write_counter`. -/
def write_counter (packet : Buf) (nonce : Bytes) (marker_byte policy_id : UInt8) : Buf :=
  write (write packet 12 [marker_byte, policy_id]) 14 nonce

def crypto_layer2_encrypt (o : Openssl) (fake : Nat) (tls : Tls) (ctx : PacketCryptoCtx)
    (counter : Nat) (packet : Buf) (pkt_len : Nat) : EncResult :=
  if !ctx.initialized ∨ pkt_len < MIN_ETH_PKT then { ret := none, pkt := packet, counter }
  else if !pkt_is_ipv4_eth packet then { ret := some pkt_len, pkt := packet, counter }
  else
    match l2_fake_marker_byte fake packet with
    | none => { ret := some pkt_len, pkt := packet, counter }
    | some marker_byte =>
      let l2_enc_start := l2_enc_start_offset tls.nonce_size
      let counter' := (packet_crypto_next_counter counter).2
      let nonce := next_nonce tls counter
      let key := packet_crypto_get_key ctx .current
      let payload_len := pkt_len - ETH_HEADER_SIZE
      let pkt := write packet l2_enc_start (read packet ETH_HEADER_SIZE payload_len)
      let pkt := write_counter pkt nonce marker_byte tls.policy_id
      match aes_encrypt o tls key nonce pkt l2_enc_start payload_len with
      | none => { ret := none, pkt := pkt, counter := counter' }
      | some (pkt, tag) =>
        { ret := some (pkt_len + tls.nonce_size + tag_overhead tls)
          pkt := write pkt (l2_enc_start + payload_len) tag
          counter := counter'
          used := aes_used tls key nonce payload_len }

/-- The length it returns and the packet, which a failure leaves changed. Only the current
key is tried. -/
def crypto_layer2_decrypt (o : Openssl) (fake : Nat) (tls : Tls) (ctx : PacketCryptoCtx)
    (packet : Buf) (pkt_len : Nat) : Option Nat × Buf :=
  let l2_enc_start := l2_enc_start_offset tls.nonce_size
  if !ctx.initialized ∨ pkt_len < l2_enc_start then (none, packet)
  else if !l2_has_fake_marker fake packet then (some pkt_len, packet)
  else if ETH_HEADER_SIZE + tls.nonce_size + 1 ≤ pkt_len ∧
      packet (ETH_HEADER_SIZE + tls.nonce_size) = L2_FRAG_MAGIC then (some pkt_len, packet)
  else if pkt_len < l2_enc_start + tag_overhead tls then (none, packet)
  else
    let nonce := read packet 14 tls.nonce_size
    let enc_len := pkt_len - l2_enc_start - tag_overhead tls
    let tag := read packet (l2_enc_start + enc_len) (tag_overhead tls)
    let key := packet_crypto_get_key ctx .current
    match aes_decrypt o tls (dec_side tls key) key nonce tag verify_ipv4_after_decrypt packet
        l2_enc_start enc_len with
    | (false, packet) => (none, packet)
    | (true, packet) =>
      let out := write packet 12 [0x08, 0x00]
      -- a plaintext that starts with an ethertype of its own is one copy shorter
      if packet l2_enc_start = 0x08 ∧ packet (l2_enc_start + 1) = 0x00 then
        (some (ETH_HEADER_SIZE + enc_len - 2),
          write out ETH_HEADER_SIZE (read packet (l2_enc_start + 2) (enc_len - 2)))
      else
        (some (ETH_HEADER_SIZE + enc_len),
          write out ETH_HEADER_SIZE (read packet l2_enc_start enc_len))

/-- `out_buf` is the buffer the fragment is put into. The return code is `out_len`. -/
def crypto_layer2_encrypt_fragment_single (o : Openssl) (fake : Nat) (tls : Tls)
    (ctx : PacketCryptoCtx) (counter : Nat) (eth_hdr : Bytes) (enc_plain : Bytes) (pkt_id : Nat)
    (frag_index : UInt8) (out_buf : Buf) (out_max : Nat) : EncResult :=
  let enc_off := l2_frag_enc_start_offset tls.nonce_size
  let need := enc_off + enc_plain.length + tag_overhead tls
  if !ctx.initialized ∨ enc_plain.length = 0 ∨ !pkt_is_ipv4_eth (ofBytes eth_hdr) ∨
      out_max < need then { ret := none, pkt := out_buf, counter }
  else
    let out := write out_buf 0 eth_hdr
    match l2_fake_marker_byte fake (ofBytes eth_hdr) with
    | none => { ret := none, pkt := out, counter }
    | some marker_byte =>
      let counter' := (packet_crypto_next_counter counter).2
      let nonce := next_nonce tls counter
      let key := packet_crypto_get_key ctx .current
      let out := write_counter out nonce marker_byte tls.policy_id
      let out := write out (ETH_HEADER_SIZE + tls.nonce_size) [L2_FRAG_MAGIC]
      let out := write_frag_tag out (ETH_HEADER_SIZE + tls.nonce_size + 1) pkt_id frag_index
      let out := write out enc_off enc_plain
      match aes_encrypt o tls key nonce out enc_off enc_plain.length with
      | none => { ret := none, pkt := out, counter := counter' }
      | some (out, tag) =>
        { ret := some need
          pkt := write out (enc_off + enc_plain.length) tag
          counter := counter'
          used := aes_used tls key nonce enc_plain.length }

/-- The length it returns, `out_pkt_id` and `out_frag_index`, and the packet. -/
def crypto_layer2_decrypt_fragment (o : Openssl) (fake : Nat) (tls : Tls)
    (ctx : PacketCryptoCtx) (packet : Buf) (pkt_len : Nat) :
    Option (Nat × Nat × UInt8) × Buf :=
  let enc_off := l2_frag_enc_start_offset tls.nonce_size
  if !ctx.initialized ∨ pkt_len < enc_off ∨ !l2_has_fake_marker fake packet ∨
      packet (ETH_HEADER_SIZE + tls.nonce_size) ≠ L2_FRAG_MAGIC then (none, packet)
  else
    let tag := read_frag_tag packet (ETH_HEADER_SIZE + tls.nonce_size + 1)
    match decrypt_in_place o tls ctx (read packet 14 tls.nonce_size) (fun _ => true) packet
        enc_off (pkt_len - enc_off) with
    | (none, packet) => (none, packet)
    | (some enc_len, packet) =>
      (some (ETH_HEADER_SIZE + enc_len, tag),
        write packet ETH_HEADER_SIZE (read packet enc_off enc_len))

/-! ## What encryption does to a packet -/

/-- The sealed bytes of an encapsulated packet, behind its nonce. -/
structure L2Frame (o : Openssl) (fake : Nat) (tls : Tls) (ctx : PacketCryptoCtx)
    (counter : Nat) (packet : Buf) (pkt_len : Nat) (out : Buf) : Prop where
  sealed : Sealed o tls (packet_crypto_get_key ctx .current) (next_nonce tls counter)
    (read packet ETH_HEADER_SIZE (pkt_len - ETH_HEADER_SIZE)) out ETH_HEADER_SIZE 0
  marker : out 12 = UInt8.ofNat (fake / 256)
  policy_id : out 13 = tls.policy_id

/-- The three outcomes of layer 2 encryption. -/
theorem crypto_layer2_encrypt_cases {o : Openssl} (ho : o.Lawful) (fake : Nat) (tls : Tls)
    (ctx : PacketCryptoCtx) (counter : Nat) (packet : Buf) (pkt_len : Nat)
    (hns : 4 ≤ tls.nonce_size) :
    (crypto_layer2_encrypt o fake tls ctx counter packet pkt_len).ret = none ∨
    ((crypto_layer2_encrypt o fake tls ctx counter packet pkt_len).ret = some pkt_len ∧
      (crypto_layer2_encrypt o fake tls ctx counter packet pkt_len).pkt = packet ∧
      (pkt_is_ipv4_eth packet = false ∨ fake = 0)) ∨
    (pkt_is_ipv4_eth packet = true ∧ fake ≠ 0 ∧
      (crypto_layer2_encrypt o fake tls ctx counter packet pkt_len).ret =
        some (pkt_len + tls.nonce_size + tag_overhead tls) ∧
      L2Frame o fake tls ctx counter packet pkt_len
        (crypto_layer2_encrypt o fake tls ctx counter packet pkt_len).pkt) := by
  have hE : ETH_HEADER_SIZE = 14 := rfl
  have hM : MIN_ETH_PKT = 22 := rfl
  unfold crypto_layer2_encrypt l2_fake_marker_byte
  split
  · exact Or.inl rfl
  rename_i hlen
  split
  · rename_i h4
    exact Or.inr (Or.inl ⟨rfl, rfl, Or.inl (by simpa using h4)⟩)
  rename_i h4
  have h4' : pkt_is_ipv4_eth packet = true := by simpa using h4
  by_cases hf : fake = 0
  · rw [if_pos (Or.inr hf)]
    exact Or.inr (Or.inl ⟨rfl, rfl, Or.inr hf⟩)
  rw [if_neg (by simp [h4', hf])]
  have hnon := length_crypto_generate_nonce tls (packet_crypto_next_counter counter).1
    PROTO_FLAG_IPV4 hns
  simp only
  split
  · exact Or.inl rfl
  rename_i pkt tag he
  obtain ⟨rfl, rfl⟩ := Prod.mk.inj (aes_encrypt_some ho he)
  have hr : read (write_counter (write packet (l2_enc_start_offset tls.nonce_size)
      (read packet ETH_HEADER_SIZE (pkt_len - ETH_HEADER_SIZE))) (next_nonce tls counter)
      (UInt8.ofNat (fake / 256)) tls.policy_id) (l2_enc_start_offset tls.nonce_size)
      (pkt_len - ETH_HEADER_SIZE) =
      read packet ETH_HEADER_SIZE (pkt_len - ETH_HEADER_SIZE) := by
    unfold write_counter l2_enc_start_offset next_nonce
    rw [read_write_apart _ _ _ _ _ (by omega),
      read_write_apart _ _ _ _ _ (by simp only [List.length_cons, List.length_nil]; omega),
      read_write_self _ _ _ _ (length_read _ _ _).symm]
  have hc := length_sealOf_cipher ho tls (packet_crypto_get_key ctx .current)
    (next_nonce tls counter) (read packet ETH_HEADER_SIZE (pkt_len - ETH_HEADER_SIZE))
  rw [length_read] at hc
  rw [hr]
  dsimp only
  refine Or.inr (Or.inr ⟨h4', hf, rfl, ?_, ?_, ?_⟩)
  · refine sealed_in_place ho _ _ _ _ _ _ _ _ _ ?_ rfl (by rw [length_read])
    unfold write_counter
    exact read_write_self _ _ _ _ hnon.symm
  · unfold write_counter l2_enc_start_offset next_nonce
    rw [write_out _ _ _ _ (by omega), write_out _ _ _ _ (by omega), write_out _ _ _ _ (by omega),
      write_head]
  · unfold write_counter l2_enc_start_offset next_nonce
    rw [write_out _ _ _ _ (by omega), write_out _ _ _ _ (by omega), write_out _ _ _ _ (by omega)]
    exact write_second _ _ _ _ _

theorem crypto_layer2_encrypt_oneNonce (o : Openssl) (fake : Nat) (tls : Tls)
    (ctx : PacketCryptoCtx) (counter : Nat) (packet : Buf) (pkt_len : Nat) :
    OneNonce tls ctx counter (crypto_layer2_encrypt o fake tls ctx counter packet pkt_len) := by
  unfold crypto_layer2_encrypt
  split
  · exact Or.inl ⟨rfl, rfl⟩
  split
  · exact Or.inl ⟨rfl, rfl⟩
  split
  · exact Or.inl ⟨rfl, rfl⟩
  simp only
  split
  · exact Or.inr ⟨rfl, Or.inl rfl⟩
  · exact Or.inr ⟨rfl, aes_used_cases _ _ _ _⟩

theorem crypto_layer2_encrypt_fragment_single_oneNonce (o : Openssl) (fake : Nat) (tls : Tls)
    (ctx : PacketCryptoCtx) (counter : Nat) (eth_hdr enc_plain : Bytes) (pkt_id : Nat)
    (frag_index : UInt8) (out_buf : Buf) (out_max : Nat) :
    OneNonce tls ctx counter (crypto_layer2_encrypt_fragment_single o fake tls ctx counter eth_hdr
      enc_plain pkt_id frag_index out_buf out_max) := by
  unfold crypto_layer2_encrypt_fragment_single
  simp only
  split
  · exact Or.inl ⟨rfl, rfl⟩
  split
  · exact Or.inl ⟨rfl, rfl⟩
  split
  · exact Or.inr ⟨rfl, Or.inl rfl⟩
  · exact Or.inr ⟨rfl, aes_used_cases _ _ _ _⟩

/-! ## Fragments -/

/-- A fragment of a packet behind the packet's Ethernet addresses. -/
structure L2Fragment (o : Openssl) (fake : Nat) (tls : Tls) (ctx : PacketCryptoCtx)
    (counter : Nat) (packet : Buf) (enc_plain : Bytes) (pkt_id : Nat) (frag_index : UInt8)
    (out : Buf) (n : Nat) : Prop where
  len : n = ETH_HEADER_SIZE + tls.nonce_size + 5 + enc_plain.length + tag_overhead tls
  sealed : Sealed o tls (packet_crypto_get_key ctx .current) (next_nonce tls counter) enc_plain out
    ETH_HEADER_SIZE 5
  marked : l2_has_fake_marker fake out = true
  magic : out (ETH_HEADER_SIZE + tls.nonce_size) = L2_FRAG_MAGIC
  tag : read_frag_tag out (ETH_HEADER_SIZE + tls.nonce_size + 1) = (pkt_id % 65536, frag_index)
  addrs : ∀ i, i < 12 → out i = packet i

theorem L2Fragment.congr {o : Openssl} {fake : Nat} {tls : Tls} {ctx : PacketCryptoCtx}
    {counter : Nat} {packet : Buf} {enc_plain : Bytes} {pkt_id : Nat} {frag_index : UInt8}
    {b c : Buf} {n : Nat}
    (h : L2Fragment o fake tls ctx counter packet enc_plain pkt_id frag_index b n)
    (hc : ∀ i, i < n → c i = b i) :
    L2Fragment o fake tls ctx counter packet enc_plain pkt_id frag_index c n := by
  have hE : ETH_HEADER_SIZE = 14 := rfl
  have hlen := h.len
  refine ⟨hlen, h.sealed.congr fun i _ h2 => hc i (by omega), ?_, ?_, ?_, ?_⟩
  · rw [← h.marked]
    unfold l2_has_fake_marker
    rw [hc 12 (by omega)]
  · rw [hc _ (by omega), h.magic]
  · rw [← h.tag]
    unfold read_frag_tag
    rw [be16_congr (hc _ (by omega)) (hc _ (by omega)), hc _ (by omega)]
  · intro i hi
    rw [hc i (by omega), h.addrs i hi]

/-- The frame of a fragment in front of its ciphertext. -/
theorem fragment_head (out_buf packet : Buf) {nonce : Bytes} (marker_byte policy_id : UInt8)
    (pkt_id : Nat) (frag_index : UInt8) {enc_off : Nat} (henc : enc_off = 14 + nonce.length + 5)
    (enc_plain : Bytes) {pkt : Buf}
    (hpkt : pkt = write (write_frag_tag (write (write_counter (write out_buf 0 (read packet 0 14))
      nonce marker_byte policy_id) (ETH_HEADER_SIZE + nonce.length) [L2_FRAG_MAGIC])
      (ETH_HEADER_SIZE + nonce.length + 1) pkt_id frag_index) enc_off enc_plain) :
    read pkt ETH_HEADER_SIZE nonce.length = nonce ∧
    pkt 12 = marker_byte ∧
    pkt (ETH_HEADER_SIZE + nonce.length) = L2_FRAG_MAGIC ∧
    read pkt (ETH_HEADER_SIZE + nonce.length + 1) FRAG_TAG_SIZE =
      be16Bytes pkt_id ++ [frag_index, 0] ∧
    ∀ i, i < 12 → pkt i = packet i := by
  have hE : ETH_HEADER_SIZE = 14 := rfl
  have hF : FRAG_TAG_SIZE = 4 := rfl
  have hk : (be16Bytes pkt_id ++ [frag_index, 0]).length = 4 := rfl
  have h1 : ([L2_FRAG_MAGIC] : Bytes).length = 1 := rfl
  have h2 : ([marker_byte, policy_id] : Bytes).length = 2 := rfl
  subst hpkt henc
  unfold write_frag_tag write_counter
  refine ⟨?_, ?_, ?_, ?_, ?_⟩
  · rw [read_write_apart _ _ _ _ _ (by omega), read_write_apart _ _ _ _ _ (by omega),
      read_write_apart _ _ _ _ _ (by omega)]
    exact read_write_self _ _ _ _ rfl
  · rw [write_out _ _ _ _ (by omega), write_out _ _ _ _ (by omega), write_out _ _ _ _ (by omega),
      write_out _ _ _ _ (by omega)]
    exact write_head _ _ _ _
  · rw [write_out _ _ _ _ (by omega), write_out _ _ _ _ (by omega)]
    exact write_head _ _ _ _
  · rw [read_write_apart _ _ _ _ _ (by omega)]
    exact read_write_self _ _ _ _ rfl
  · intro i hi
    rw [write_out _ _ _ _ (by omega), write_out _ _ _ _ (by omega), write_out _ _ _ _ (by omega),
      write_out _ _ _ _ (by omega), write_out _ _ _ _ (by omega),
      write_read_in _ _ _ _ _ _ (by omega) (by omega)]
    congr 1
    omega

theorem crypto_layer2_encrypt_fragment_single_some {o : Openssl} (ho : o.Lawful) {fake : Nat}
    {tls : Tls} {ctx : PacketCryptoCtx} {counter : Nat} {packet : Buf} {enc_plain : Bytes}
    {pkt_id : Nat} {frag_index : UInt8} {out_buf : Buf} {out_max n : Nat}
    (hns : 4 ≤ tls.nonce_size)
    (h : (crypto_layer2_encrypt_fragment_single o fake tls ctx counter (read packet 0 14) enc_plain
      pkt_id frag_index out_buf out_max).ret = some n) :
    L2Fragment o fake tls ctx counter packet enc_plain pkt_id frag_index
      (crypto_layer2_encrypt_fragment_single o fake tls ctx counter (read packet 0 14) enc_plain
        pkt_id frag_index out_buf out_max).pkt n := by
  have hE : ETH_HEADER_SIZE = 14 := rfl
  unfold crypto_layer2_encrypt_fragment_single at h ⊢
  dsimp only at h ⊢
  split at h
  · simp at h
  rename_i hcond
  rw [if_neg hcond]
  split at h
  · simp at h
  rename_i marker_byte hmark
  split at h
  · simp at h
  rename_i out tag he
  obtain ⟨rfl, rfl⟩ := Prod.mk.inj (aes_encrypt_some ho he)
  have hn := Option.some.inj h
  have hF : FRAG_TAG_SIZE = 4 := rfl
  have hoff : l2_frag_enc_start_offset tls.nonce_size = 14 + tls.nonce_size + 5 := rfl
  have hnon : (next_nonce tls counter).length = tls.nonce_size :=
    length_crypto_generate_nonce tls (packet_crypto_next_counter counter).1 PROTO_FLAG_IPV4 hns
  have hc := length_sealOf_cipher ho tls (packet_crypto_get_key ctx .current)
    (next_nonce tls counter) enc_plain
  have hmb : fake ≠ 0 ∧ marker_byte = UInt8.ofNat (fake / 256) := by
    unfold l2_fake_marker_byte at hmark
    split at hmark
    · simp at hmark
    · rename_i hf
      exact ⟨fun h0 => hf (Or.inr h0), (Option.some.inj hmark).symm⟩
  dsimp only
  rw [read_write_self _ _ _ _ rfl]
  -- the frame in front of the ciphertext
  have hhead := fun pkt => @fragment_head out_buf packet (next_nonce tls counter) marker_byte
    tls.policy_id pkt_id frag_index (l2_frag_enc_start_offset tls.nonce_size) (by omega) enc_plain pkt
  rw [hnon] at hhead
  generalize write (write_frag_tag _ _ _ _) _ enc_plain = pkt at hhead
  obtain ⟨hnonce, hmarker, hmagic, htag, haddrs⟩ := hhead pkt rfl
  have hkeep : ∀ i, i < l2_frag_enc_start_offset tls.nonce_size →
      write (write pkt (l2_frag_enc_start_offset tls.nonce_size)
        (sealOf o tls (packet_crypto_get_key ctx .current) (next_nonce tls counter) enc_plain).1)
        (l2_frag_enc_start_offset tls.nonce_size + enc_plain.length)
        (sealOf o tls (packet_crypto_get_key ctx .current) (next_nonce tls counter) enc_plain).2 i =
        pkt i := fun i hi => by
    rw [write_out _ _ _ _ (by omega), write_out _ _ _ _ (by omega)]
  refine ⟨by omega, sealed_in_place ho _ _ _ _ _ _ _ _ _ hnonce (by omega) rfl, ?_, ?_, ?_, ?_⟩
  · unfold l2_has_fake_marker
    rw [hkeep 12 (by omega), hmarker, hmb.2]
    simp [hmb.1]
  · rw [hkeep _ (by omega), hmagic]
  · refine read_frag_tag_of_read ?_
    rw [← htag]
    exact read_congr fun i _ h3 => hkeep i (by omega)
  · intro i hi
    rw [hkeep i (by omega), haddrs i hi]

/-- A receiver that runs AES under the same key, with the same nonce size and marker, gets the
plaintext behind the Ethernet header. -/
theorem crypto_layer2_decrypt_fragment_frame {o : Openssl} (ho : o.Lawful) {fake : Nat} {tls : Tls}
    (tls' : Tls) {ctx : PacketCryptoCtx} (ctx' : PacketCryptoCtx) {counter : Nat} {packet : Buf}
    {enc_plain : Bytes} {pkt_id : Nat} {frag_index : UInt8} {out : Buf} {n : Nat}
    (hf : L2Fragment o fake tls ctx counter packet enc_plain pkt_id frag_index out n)
    (hs : SameAes tls tls') (hns : tls'.nonce_size = tls.nonce_size) (he : tls'.evp_ok = true)
    (hk : SameKey tls ctx tls' ctx') (hi : ctx'.initialized = true) :
    ∃ pkt, crypto_layer2_decrypt_fragment o fake tls' ctx' out n =
        (some (ETH_HEADER_SIZE + enc_plain.length, (pkt_id % 65536, frag_index)), pkt) ∧
      read pkt ETH_HEADER_SIZE enc_plain.length = enc_plain ∧ ∀ i, i < 12 → pkt i = packet i := by
  have hE : ETH_HEADER_SIZE = 14 := rfl
  have hoff : l2_frag_enc_start_offset tls.nonce_size = ETH_HEADER_SIZE + tls.nonce_size + 5 := rfl
  have hlen := hf.len
  have hsealed := hf.sealed
  unfold crypto_layer2_decrypt_fragment
  dsimp only
  rw [hns, hf.marked, hf.magic, if_neg (by simp [hi]; omega), hf.tag, hoff,
    show n - (ETH_HEADER_SIZE + tls.nonce_size + 5) = enc_plain.length + tag_overhead tls by omega]
  have hverify : tls.crypto_mode = .ctr → (fun _ : Bytes => true) enc_plain = true := fun _ => rfl
  rw [← hE, hsealed.nonce_at, hsealed.open_in_place ho hs hk he hverify]
  refine ⟨_, rfl, ?_, ?_⟩
  · rw [read_write_self _ _ _ _ rfl]
    exact read_write_self _ _ _ _ rfl
  · intro i hi'
    rw [write_out _ _ _ _ (by omega), write_out _ _ _ _ (by omega), hf.addrs i hi']

end ne_ip.crypto_layer2
