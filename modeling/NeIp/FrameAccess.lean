-- What the decrypt functions touch of a frame (crypto_layer2.c, crypto_layer3.c,
-- crypto_layer4.c). Each is followed check by check in the order of the source,
-- every byte it reads and every length it hands to a copy is logged, and lengths
-- are subtracted as size_t. Without the log it is the function of its own module.
-- A frame is short enough for an int, so that no cast changes a length.
import NeIp.AccessLog
import NeIp.CryptoLayer2
import NeIp.CryptoLayer3
import NeIp.CryptoLayer4

open byte_buf access_log ne_ip.packet_crypto

namespace ne_ip.frame_access

open crypto_layer4 (size_sub L4_WIRE_PORT_LEN CRYPTO_L4_TUNNEL_MAGIC CRYPTO_L4_FRAG_MAGIC)
open crypto_layer2 (L2_FRAG_MAGIC l2_enc_start_offset l2_frag_enc_start_offset)
open crypto_layer3 (IPV4_PROTO_OFF IPV4_TOTLEN_OFF IPV4_HDR_SIZE TCP_CKSUM_OFF UDP_CKSUM_OFF
  CRYPTO_L3_FRAG_MAGIC)
open tunnel (FRAG_TAG_SIZE)

def byte (pkt : Buf) (off : Nat) : Logged UInt8 := do
  load off 1
  pure (pkt off)

/-- A 16 bit number, big-endian. -/
def word (pkt : Buf) (off : Nat) : Logged Nat := do
  load off 2
  pure (be16 pkt off)

@[simp] theorem byte_val (pkt : Buf) (off : Nat) : (byte pkt off).val = pkt off := by
  unfold byte
  rw [val_bind, val_pure]

@[simp] theorem word_val (pkt : Buf) (off : Nat) : (word pkt off).val = be16 pkt off := by
  unfold word
  rw [val_bind, val_pure]

@[simp] theorem within_byte {n : Nat} {pkt : Buf} {off : Nat} :
    Within n (byte pkt off) ↔ off < n := by
  unfold byte
  rw [within_bind, within_load]
  simp only [within_pure, and_true]
  omega

@[simp] theorem within_word {n : Nat} {pkt : Buf} {off : Nat} :
    Within n (word pkt off) ↔ off + 2 ≤ n := by
  unfold word
  simp

/-! ## AES and checksums -/

/-- The AES step: the ciphertext is read, and what `verify` reads of a CTR plaintext. -/
def aes_decrypt (o : Openssl) (tls : Tls) (s : GcmSide) (key nonce tag : Bytes)
    (verify : Buf → Nat → Nat → Logged Bool) (pkt : Buf) (off len : Nat) : Logged (Bool × Buf) := do
  load off len
  match tls.crypto_mode with
  | .gcm => pure (crypto_aes_gcm_decrypt o tls s key nonce pkt off len tag)
  | .ctr => do
    -- the nonce is copied to the IV
    copy tls.nonce_size
    match crypto_aes_ctr_with_key o tls key (crypto_nonce_to_iv nonce) pkt off len with
    | none => pure (false, pkt)
    | some pkt' => do
      let ok ← verify pkt' off len
      pure (ok, pkt')

/-- The ciphertext as a turn of the loop finds it, put back from the backup or not. -/
def restore (k : Nat) (pkt : Buf) (off len : Nat) (backup : Bytes) : Logged Buf :=
  if 0 < k ∧ len ≤ BACKUP_SIZE then do
    copy len
    pure (write pkt off backup)
  else pure pkt

/-- The loop over the keys. -/
def try_keys (o : Openssl) (tls : Tls) (ctx : PacketCryptoCtx) (nonce tag : Bytes)
    (verify : Buf → Nat → Nat → Logged Bool) (off len : Nat) (backup : Bytes) :
    Nat → GcmSide → List KeySlot → Buf → Logged (Bool × Buf)
  | _, _, [], pkt => pure (false, pkt)
  | k, s, slot :: slots, pkt => do
    let work ← restore k pkt off len backup
    let key := packet_crypto_get_key ctx slot
    match ← aes_decrypt o tls s key nonce tag verify work off len with
    | (true, pkt') => pure (true, pkt')
    | (false, pkt') =>
      try_keys o tls ctx nonce tag verify off len backup (k + 1) (next_side tls s key) slots pkt'

/-- The backup, which no turn reads when it does not fit. -/
def save (pkt : Buf) (off len : Nat) : Logged Bytes :=
  if len ≤ BACKUP_SIZE then do
    copy_from off len
    pure (read pkt off len)
  else pure (read pkt off len)

/-- From `total_after_tunnel` on. In CTR mode the tag is the copy of no byte. -/
def decrypt_in_place (o : Openssl) (tls : Tls) (ctx : PacketCryptoCtx) (nonce : Bytes)
    (verify : Buf → Nat → Nat → Logged Bool) (pkt : Buf) (enc_off total_after : Nat) :
    Logged (Option Nat × Buf) :=
  if total_after < tag_overhead tls then pure (none, pkt)
  else do
    let enc_len := size_sub total_after (tag_overhead tls)
    let tag := read pkt (enc_off + enc_len) (tag_overhead tls)
    copy_from (enc_off + enc_len) (tag_overhead tls)
    let backup ← save pkt enc_off enc_len
    match ← try_keys o tls ctx nonce tag verify enc_off enc_len backup 0
        (dec_side tls ctx.key_current) key_order pkt with
    | (true, pkt') => pure (some enc_len, pkt')
    | (false, pkt') => pure (none, pkt')

/-- The checksum reads the header. -/
def patch_ipv4 (pkt : Buf) (ip_off ip_hdr_len ip_total : Nat) : Logged Buf := do
  load ip_off ip_hdr_len
  pure (packet_crypto.patch_ipv4 pkt ip_off ip_hdr_len ip_total)

/-- What a transport checksum reads: the addresses, and the segment. The one of UDP goes by
the length field, cut to the segment. -/
def sum_transport (packet : Buf) (ip_hdr_len : Nat) (orig_proto : UInt8) (seg_len : Nat) :
    Logged Unit :=
  let transport_off := ETH_HEADER_SIZE + ip_hdr_len
  if orig_proto = 6 ∧ 20 ≤ seg_len then do
    load (ETH_HEADER_SIZE + 12) 8
    load transport_off seg_len
  else if orig_proto = 17 ∧ 8 ≤ seg_len then do
    let udp_len ← word packet (transport_off + 4)
    let udp_len := if udp_len < 8 then 8 else udp_len
    let udp_len := if udp_len > seg_len % 65536 then seg_len % 65536 else udp_len
    load (ETH_HEADER_SIZE + 12) 8
    load transport_off udp_len
  else pure ()

def fix_transport_checksum (packet : Buf) (ip_hdr_len : Nat) (orig_proto : UInt8)
    (seg_len : Nat) : Logged Buf := do
  sum_transport packet ip_hdr_len orig_proto seg_len
  pure (crypto_layer3.fix_transport_checksum packet ip_hdr_len orig_proto seg_len)

@[simp] theorem restore_val (k : Nat) (pkt : Buf) (off len : Nat) (backup : Bytes) :
    (restore k pkt off len backup).val =
      if 0 < k ∧ len ≤ BACKUP_SIZE then write pkt off backup else pkt := val_ite _ _ _

@[simp] theorem save_val (pkt : Buf) (off len : Nat) : (save pkt off len).val = read pkt off len := by
  unfold save
  split <;> rfl

theorem aes_decrypt_val (o : Openssl) (tls : Tls) (s : GcmSide) (key nonce tag : Bytes)
    {verify : Buf → Nat → Nat → Logged Bool} {v : Bytes → Bool}
    (hv : ∀ pkt off len, (verify pkt off len).val = v (read pkt off len)) (pkt : Buf)
    (off len : Nat) : (aes_decrypt o tls s key nonce tag verify pkt off len).val =
      packet_crypto.aes_decrypt o tls s key nonce tag v pkt off len := by
  unfold aes_decrypt packet_crypto.aes_decrypt
  rw [val_bind]
  cases tls.crypto_mode with
  | gcm => rfl
  | ctr =>
    dsimp only
    rw [val_bind]
    cases crypto_aes_ctr_with_key o tls key (crypto_nonce_to_iv nonce) pkt off len with
    | none => rfl
    | some pkt' =>
      dsimp only
      rw [val_bind, hv, val_pure]

theorem try_keys_val (o : Openssl) (tls : Tls) (ctx : PacketCryptoCtx) (nonce tag : Bytes)
    {verify : Buf → Nat → Nat → Logged Bool} {v : Bytes → Bool}
    (hv : ∀ pkt off len, (verify pkt off len).val = v (read pkt off len)) (off len : Nat)
    (backup : Bytes) (k : Nat) (s : GcmSide) (slots : List KeySlot) (pkt : Buf) :
    (try_keys o tls ctx nonce tag verify off len backup k s slots pkt).val =
      packet_crypto.try_keys o tls ctx nonce tag v off len backup k s slots pkt := by
  induction slots generalizing k s pkt with
  | nil => rfl
  | cons slot slots ih =>
    unfold try_keys packet_crypto.try_keys
    simp only [val_bind, restore_val, aes_decrypt_val o tls s _ nonce tag hv]
    generalize packet_crypto.aes_decrypt o tls s _ nonce tag v _ off len = r
    rcases r with ⟨_ | _, pkt'⟩
    · exact ih _ _ _
    · rfl

theorem size_sub_of_le {a b : Nat} (h : b ≤ a) : size_sub a b = a - b := if_pos h

theorem decrypt_in_place_val (o : Openssl) (tls : Tls) (ctx : PacketCryptoCtx) (nonce : Bytes)
    {verify : Buf → Nat → Nat → Logged Bool} {v : Bytes → Bool}
    (hv : ∀ pkt off len, (verify pkt off len).val = v (read pkt off len)) (pkt : Buf)
    (enc_off total_after : Nat) :
    (decrypt_in_place o tls ctx nonce verify pkt enc_off total_after).val =
      packet_crypto.decrypt_in_place o tls ctx nonce v pkt enc_off total_after := by
  unfold decrypt_in_place packet_crypto.decrypt_in_place
  split
  · rfl
  rename_i hlen
  rw [size_sub_of_le (by omega)]
  simp only [val_bind, save_val, try_keys_val o tls ctx nonce _ hv]
  generalize packet_crypto.try_keys o tls ctx nonce _ v enc_off _ _ 0 _ key_order pkt = r
  rcases r with ⟨_ | _, pkt'⟩
  · rfl
  · rfl

@[simp] theorem patch_ipv4_val (pkt : Buf) (ip_off ip_hdr_len ip_total : Nat) :
    (patch_ipv4 pkt ip_off ip_hdr_len ip_total).val =
      packet_crypto.patch_ipv4 pkt ip_off ip_hdr_len ip_total := rfl

/-- The fragment tag of four bytes, of which three are read. -/
def read_frag_tag (buf : Buf) (off : Nat) : Logged (Nat × UInt8) := do
  let pkt_id ← word buf off
  let frag_index ← byte buf (off + 2)
  pure (pkt_id, frag_index)

@[simp] theorem read_frag_tag_val (buf : Buf) (off : Nat) :
    (read_frag_tag buf off).val = tunnel.read_frag_tag buf off := rfl

/-- No check of the plaintext. -/
def unverified (_pkt : Buf) (_off _len : Nat) : Logged Bool := pure true

theorem decrypt_unverified_val (o : Openssl) (tls : Tls) (ctx : PacketCryptoCtx) (nonce : Bytes)
    (pkt : Buf) (enc_off total_after : Nat) :
    (decrypt_in_place o tls ctx nonce unverified pkt enc_off total_after).val =
      packet_crypto.decrypt_in_place o tls ctx nonce (fun _ => true) pkt enc_off total_after :=
  decrypt_in_place_val (v := fun _ => true) o tls ctx nonce (fun _ _ _ => rfl) pkt enc_off
    total_after

/-- From the nonce on. -/
def open_tunnel_at (o : Openssl) (tls : Tls) (ctx : PacketCryptoCtx) (packet : Buf)
    (pkt_len l3_off ip_hdr_len tunnel_off enc_off : Nat) : Logged (Option Nat × Buf) := do
  copy_from tunnel_off tls.nonce_size
  let nonce := read packet tunnel_off tls.nonce_size
  match ← decrypt_in_place o tls ctx nonce unverified packet enc_off (size_sub pkt_len enc_off) with
  | (none, packet) => pure (none, packet)
  | (some enc_len, packet) => do
    copy_from enc_off enc_len
    let packet := write packet tunnel_off (read packet enc_off enc_len)
    let packet ← patch_ipv4 packet l3_off ip_hdr_len (tunnel_off + enc_len - l3_off)
    pure (some (tunnel_off + enc_len), packet)

theorem open_tunnel_at_val (o : Openssl) (tls : Tls) (ctx : PacketCryptoCtx) (packet : Buf)
    {pkt_len enc_off : Nat} (l3_off ip_hdr_len tunnel_off : Nat) (h : enc_off ≤ pkt_len) :
    (open_tunnel_at o tls ctx packet pkt_len l3_off ip_hdr_len tunnel_off enc_off).val =
      tunnel.open_tunnel_at o tls ctx packet pkt_len l3_off ip_hdr_len tunnel_off enc_off := by
  unfold open_tunnel_at tunnel.open_tunnel_at
  simp only [val_bind, size_sub_of_le h, decrypt_unverified_val]
  generalize packet_crypto.decrypt_in_place o tls ctx _ _ packet enc_off _ = r
  rcases r with ⟨_ | enc_len, packet'⟩
  · rfl
  · rfl

/-! ## Layer 2 -/

def l2_has_fake_marker (fake : Nat) (packet : Buf) : Logged Bool :=
  if fake = 0 then pure false
  else do
    let marker ← byte packet 12
    pure (marker == UInt8.ofNat (fake / 256))

def verify_ipv4_after_decrypt (pkt : Buf) (off len : Nat) : Logged Bool :=
  if len < 20 then pure false
  else do
    let ttl ← byte pkt (off + 8)
    let proto ← byte pkt (off + 9)
    if ttl = 0 then pure false
    else pure ([1, 2, 6, 17, 47, 50, 51, 58, 89, 132].contains proto)

/-- The nonce; the policy id is read too. -/
def crypto_read_counter (packet : Buf) (nonce_size : Nat) : Logged Bytes := do
  load 13 1
  copy_from 14 nonce_size
  pure (read packet 14 nonce_size)

/-- The byte behind the nonce, where the frame has one. -/
def l2_is_fragment (packet : Buf) (pkt_len nonce_size : Nat) : Logged Bool :=
  if ETH_HEADER_SIZE + nonce_size + 1 ≤ pkt_len then do
    let magic ← byte packet (ETH_HEADER_SIZE + nonce_size)
    pure (decide (magic = L2_FRAG_MAGIC))
  else pure false

/-- `work_ptr[0] == 0x08 && work_ptr[1] == 0x00`. -/
def starts_with_ethertype (packet : Buf) (off : Nat) : Logged Bool := do
  let high ← byte packet off
  if high = 0x08 then do
    let low ← byte packet (off + 1)
    pure (decide (low = 0x00))
  else pure false

/-- From the decrypted packet on. What is handed to the first `memmove` is `enc_len - 2` as a
`size_t`, whatever `enc_len` is. -/
def l2_restore (packet : Buf) (l2_enc_start enc_len : Nat) : Logged (Option Nat × Buf) := do
  let out := write packet 12 [0x08, 0x00]
  match ← starts_with_ethertype packet l2_enc_start with
  | true => do
    copy_from (l2_enc_start + 2) (size_sub enc_len 2)
    pure (some (ETH_HEADER_SIZE + enc_len - 2),
      write out ETH_HEADER_SIZE (read packet (l2_enc_start + 2) (enc_len - 2)))
  | false => do
    copy_from l2_enc_start enc_len
    pure (some (ETH_HEADER_SIZE + enc_len),
      write out ETH_HEADER_SIZE (read packet l2_enc_start enc_len))

def crypto_layer2_decrypt (o : Openssl) (fake : Nat) (tls : Tls) (ctx : PacketCryptoCtx)
    (packet : Buf) (pkt_len : Nat) : Logged (Option Nat × Buf) :=
  let l2_enc_start := l2_enc_start_offset tls.nonce_size
  if !ctx.initialized ∨ pkt_len < l2_enc_start then pure (none, packet)
  else do
    match ← l2_has_fake_marker fake packet with
    | false => pure (some pkt_len, packet)
    | true => do
      match ← l2_is_fragment packet pkt_len tls.nonce_size with
      | true => pure (some pkt_len, packet)
      | false => do
        let nonce ← crypto_read_counter packet tls.nonce_size
        if pkt_len < l2_enc_start + tag_overhead tls then pure (none, packet)
        else do
          let enc_len := size_sub (size_sub pkt_len l2_enc_start) (tag_overhead tls)
          let tag := read packet (l2_enc_start + enc_len) (tag_overhead tls)
          copy_from (l2_enc_start + enc_len) (tag_overhead tls)
          let key := packet_crypto_get_key ctx .current
          match ← aes_decrypt o tls (dec_side tls key) key nonce tag verify_ipv4_after_decrypt
              packet l2_enc_start enc_len with
          | (false, packet) => pure (none, packet)
          | (true, packet) => l2_restore packet l2_enc_start enc_len

@[simp] theorem l2_has_fake_marker_val (fake : Nat) (packet : Buf) :
    (l2_has_fake_marker fake packet).val = crypto_layer2.l2_has_fake_marker fake packet := by
  unfold l2_has_fake_marker crypto_layer2.l2_has_fake_marker
  by_cases h : fake = 0
  · simp [h]
  · simp [h]

theorem verify_ipv4_after_decrypt_val (pkt : Buf) (off len : Nat) :
    (verify_ipv4_after_decrypt pkt off len).val =
      crypto_layer2.verify_ipv4_after_decrypt (read pkt off len) := by
  unfold verify_ipv4_after_decrypt crypto_layer2.verify_ipv4_after_decrypt
  rw [length_read]
  by_cases h : len < 20
  · simp [h]
  · rw [getD_read _ _ _ _ (by omega), getD_read _ _ _ _ (by omega)]
    rw [if_neg h, if_neg h, val_bind, val_bind, val_ite]
    rfl

@[simp] theorem crypto_read_counter_val (packet : Buf) (nonce_size : Nat) :
    (crypto_read_counter packet nonce_size).val = read packet 14 nonce_size := rfl

@[simp] theorem l2_is_fragment_val (packet : Buf) (pkt_len nonce_size : Nat) :
    (l2_is_fragment packet pkt_len nonce_size).val =
      decide (ETH_HEADER_SIZE + nonce_size + 1 ≤ pkt_len ∧
        packet (ETH_HEADER_SIZE + nonce_size) = L2_FRAG_MAGIC) := by
  unfold l2_is_fragment
  by_cases h : ETH_HEADER_SIZE + nonce_size + 1 ≤ pkt_len
  · rw [if_pos h, val_bind, val_pure]
    exact decide_eq_decide.mpr ⟨fun hm => ⟨h, hm⟩, fun hm => hm.2⟩
  · rw [if_neg h, val_pure]
    exact (decide_eq_false fun hm => h hm.1).symm

@[simp] theorem starts_with_ethertype_val (packet : Buf) (off : Nat) :
    (starts_with_ethertype packet off).val =
      decide (packet off = 0x08 ∧ packet (off + 1) = 0x00) := by
  unfold starts_with_ethertype
  rw [val_bind, byte_val]
  by_cases h : packet off = 0x08
  · rw [if_pos h, val_bind, val_pure]
    exact decide_eq_decide.mpr ⟨fun hl => ⟨h, hl⟩, fun hl => hl.2⟩
  · rw [if_neg h, val_pure]
    exact (decide_eq_false fun hl => h hl.1).symm

theorem l2_restore_val (packet : Buf) (l2_enc_start enc_len : Nat) :
    (l2_restore packet l2_enc_start enc_len).val =
      if packet l2_enc_start = 0x08 ∧ packet (l2_enc_start + 1) = 0x00 then
        (some (ETH_HEADER_SIZE + enc_len - 2), write (write packet 12 [0x08, 0x00])
          ETH_HEADER_SIZE (read packet (l2_enc_start + 2) (enc_len - 2)))
      else
        (some (ETH_HEADER_SIZE + enc_len), write (write packet 12 [0x08, 0x00])
          ETH_HEADER_SIZE (read packet l2_enc_start enc_len)) := by
  unfold l2_restore
  rw [val_bind, starts_with_ethertype_val]
  split
  · rename_i h
    rw [if_pos (of_decide_eq_true h)]
    rfl
  · rename_i h
    rw [if_neg (of_decide_eq_false h)]
    rfl

theorem crypto_layer2_decrypt_val (o : Openssl) (fake : Nat) (tls : Tls) (ctx : PacketCryptoCtx)
    (packet : Buf) (pkt_len : Nat) :
    (crypto_layer2_decrypt o fake tls ctx packet pkt_len).val =
      crypto_layer2.crypto_layer2_decrypt o fake tls ctx packet pkt_len := by
  unfold crypto_layer2_decrypt crypto_layer2.crypto_layer2_decrypt
  simp only
  split
  · rfl
  rename_i hlen
  rw [val_bind, l2_has_fake_marker_val]
  cases crypto_layer2.l2_has_fake_marker fake packet with
  | false => rfl
  | true =>
    simp only [val_bind, l2_is_fragment_val, Bool.not_true, Bool.false_eq_true, if_false]
    split
    · rename_i h
      rw [if_pos (of_decide_eq_true h)]
      rfl
    rename_i h
    rw [if_neg (of_decide_eq_false h)]
    split
    · rfl
    rename_i htag
    rw [size_sub_of_le (show l2_enc_start_offset tls.nonce_size ≤ pkt_len by omega),
      size_sub_of_le (by omega), val_bind, val_bind, val_bind,
      aes_decrypt_val o tls _ _ _ _ verify_ipv4_after_decrypt_val, crypto_read_counter_val]
    generalize packet_crypto.aes_decrypt o tls _ _ _ _ _ packet _ _ = r
    rcases r with ⟨_ | _, packet'⟩
    · rfl
    · exact l2_restore_val _ _ _

def crypto_layer2_decrypt_fragment (o : Openssl) (fake : Nat) (tls : Tls)
    (ctx : PacketCryptoCtx) (packet : Buf) (pkt_len : Nat) :
    Logged (Option (Nat × Nat × UInt8) × Buf) :=
  let enc_off := l2_frag_enc_start_offset tls.nonce_size
  if !ctx.initialized ∨ pkt_len < enc_off then pure (none, packet)
  else do
    match ← l2_has_fake_marker fake packet with
    | false => pure (none, packet)
    | true => do
      let magic ← byte packet (ETH_HEADER_SIZE + tls.nonce_size)
      if magic ≠ L2_FRAG_MAGIC then pure (none, packet)
      else do
        let tag ← read_frag_tag packet (ETH_HEADER_SIZE + tls.nonce_size + 1)
        let nonce ← crypto_read_counter packet tls.nonce_size
        match ← decrypt_in_place o tls ctx nonce unverified packet enc_off
            (size_sub pkt_len enc_off) with
        | (none, packet) => pure (none, packet)
        | (some enc_len, packet) => do
          copy_from enc_off enc_len
          pure (some (ETH_HEADER_SIZE + enc_len, tag),
            write packet ETH_HEADER_SIZE (read packet enc_off enc_len))

theorem crypto_layer2_decrypt_fragment_val (o : Openssl) (fake : Nat) (tls : Tls)
    (ctx : PacketCryptoCtx) (packet : Buf) (pkt_len : Nat) :
    (crypto_layer2_decrypt_fragment o fake tls ctx packet pkt_len).val =
      crypto_layer2.crypto_layer2_decrypt_fragment o fake tls ctx packet pkt_len := by
  unfold crypto_layer2_decrypt_fragment crypto_layer2.crypto_layer2_decrypt_fragment
  simp only
  split
  · rename_i h
    rw [if_pos (by rcases h with h | h <;> simp [h])]
    rfl
  rename_i hlen
  simp only [not_or, Nat.not_lt] at hlen
  rw [val_bind, l2_has_fake_marker_val]
  cases hm : crypto_layer2.l2_has_fake_marker fake packet with
  | false => simp
  | true =>
    simp only [val_bind, byte_val]
    by_cases h : packet (ETH_HEADER_SIZE + tls.nonce_size) ≠ L2_FRAG_MAGIC
    · rw [if_pos h, if_pos (Or.inr (Or.inr (Or.inr h)))]
      rfl
    rw [if_neg h, if_neg (by simpa [hlen] using h)]
    simp only [val_bind, size_sub_of_le hlen.2, decrypt_unverified_val, crypto_read_counter_val]
    generalize packet_crypto.decrypt_in_place o tls ctx _ _ packet _ _ = r
    rcases r with ⟨_ | enc_len, packet'⟩
    · rfl
    · rfl

/-! ## Layer 3 -/

def pkt_is_ipv4 (packet : Buf) (pkt_len : Nat) : Logged Bool :=
  if pkt_len < ETH_HEADER_SIZE + IPV4_HDR_SIZE then pure false
  else do
    let ethertype ← word packet 12
    pure (ethertype == 0x0800)

def ipv4_hdr_len_at (packet : Buf) (pkt_len l3_off : Nat) : Logged (Option Nat) :=
  if pkt_len < l3_off + 20 then pure none
  else do
    let version_ihl ← byte packet l3_off
    let ihl := version_ihl.toNat % 16 * 4
    pure (if ihl < 20 ∨ pkt_len < l3_off + ihl then none else some ihl)

/-- The nonce and the original protocol; the flag in the nonce is read too. -/
def crypto_read_l3_tunnel_header (packet : Buf) (tunnel_off nonce_size : Nat) :
    Logged (Bytes × UInt8) := do
  copy_from tunnel_off nonce_size
  load tunnel_off 1
  let orig_proto ← byte packet (tunnel_off + nonce_size + 1)
  pure (read packet tunnel_off nonce_size, orig_proto)

def verify_decrypted_payload (orig_proto : UInt8) (pkt : Buf) (off len : Nat) : Logged Bool :=
  if orig_proto = 6 ∨ orig_proto = 17 then
    if len < 4 then pure false
    else do
      let src_port ← word pkt off
      let dst_port ← word pkt (off + 2)
      pure (!(src_port == 0 && dst_port == 0))
  else pure true

/-- From the decrypted packet on: the payload is moved, the header is rewritten and, where a
segment is left, its checksum. -/
def l3_restore (tls : Tls) (packet : Buf) (pkt_len ip_hdr_len enc_len : Nat) (orig_proto : UInt8) :
    Logged (Option Nat × Buf) := do
  let tunnel_off := ETH_HEADER_SIZE + ip_hdr_len
  let enc_off := tunnel_off + packet_crypto_get_tunnel_hdr_size tls
  let total_overhead := packet_crypto_get_tunnel_hdr_size tls + tag_overhead tls
  copy_from enc_off enc_len
  let packet := write packet tunnel_off (read packet enc_off enc_len)
  let packet := write packet IPV4_PROTO_OFF [orig_proto]
  let old_totlen ← word packet IPV4_TOTLEN_OFF
  let packet ← patch_ipv4 packet ETH_HEADER_SIZE ip_hdr_len (old_totlen + 65536 - total_overhead)
  let dec_pkt_len := size_sub pkt_len total_overhead
  if tunnel_off < dec_pkt_len then do
    let packet ← fix_transport_checksum packet ip_hdr_len orig_proto
      (size_sub dec_pkt_len tunnel_off)
    pure (some dec_pkt_len, packet)
  else pure (some dec_pkt_len, packet)

def crypto_layer3_decrypt (o : Openssl) (tls : Tls) (ctx : PacketCryptoCtx) (packet : Buf)
    (pkt_len : Nat) : Logged (Option Nat × Buf) :=
  if !ctx.initialized ∨ pkt_len < crypto_layer3.MIN_ETH_PKT then pure (none, packet)
  else do
    match ← pkt_is_ipv4 packet pkt_len with
    | false => pure (some pkt_len, packet)
    | true => do
      match ← ipv4_hdr_len_at packet pkt_len ETH_HEADER_SIZE with
      | none => pure (some pkt_len, packet)
      | some ip_hdr_len =>
        let tunnel_off := ETH_HEADER_SIZE + ip_hdr_len
        let enc_off := tunnel_off + packet_crypto_get_tunnel_hdr_size tls
        if pkt_len < enc_off then pure (some pkt_len, packet)
        else do
          let type ← byte packet (tunnel_off + tls.nonce_size + 1)
          if type = CRYPTO_L3_FRAG_MAGIC then pure (some pkt_len, packet)
          else do
            let proto ← byte packet IPV4_PROTO_OFF
            if proto ≠ tls.fake_protocol then pure (some pkt_len, packet)
            else do
              let header ← crypto_read_l3_tunnel_header packet tunnel_off tls.nonce_size
              let packet := write packet IPV4_PROTO_OFF [header.2]
              match ← decrypt_in_place o tls ctx header.1 (verify_decrypted_payload header.2)
                  packet enc_off (size_sub pkt_len enc_off) with
              | (none, packet) => pure (none, packet)
              | (some enc_len, packet) => l3_restore tls packet pkt_len ip_hdr_len enc_len header.2

def crypto_layer3_decrypt_fragment (o : Openssl) (tls : Tls) (ctx : PacketCryptoCtx)
    (packet : Buf) (pkt_len : Nat) : Logged (Option (Nat × Nat × UInt8) × Buf) :=
  if !ctx.initialized then pure (none, packet)
  else do
    match ← pkt_is_ipv4 packet pkt_len with
    | false => pure (none, packet)
    | true => do
      match ← ipv4_hdr_len_at packet pkt_len ETH_HEADER_SIZE with
      | none => pure (none, packet)
      | some ip_hdr_len => do
        let tunnel_off := ETH_HEADER_SIZE + ip_hdr_len
        let tag_off := tunnel_off + packet_crypto_get_tunnel_hdr_size tls
        let enc_off := tag_off + FRAG_TAG_SIZE
        let proto ← byte packet IPV4_PROTO_OFF
        if proto ≠ tls.fake_protocol then pure (none, packet)
        else if pkt_len < enc_off then pure (none, packet)
        else do
          let type ← byte packet (tunnel_off + tls.nonce_size + 1)
          if type ≠ CRYPTO_L3_FRAG_MAGIC then pure (none, packet)
          else do
            let tag ← read_frag_tag packet tag_off
            let r ← open_tunnel_at o tls ctx packet pkt_len ETH_HEADER_SIZE ip_hdr_len tunnel_off
              enc_off
            pure (r.1.map (·, tag), r.2)

@[simp] theorem pkt_is_ipv4_val (packet : Buf) (pkt_len : Nat) :
    (pkt_is_ipv4 packet pkt_len).val = crypto_layer3.pkt_is_ipv4 packet pkt_len := by
  unfold pkt_is_ipv4 crypto_layer3.pkt_is_ipv4
  by_cases h : pkt_len < ETH_HEADER_SIZE + IPV4_HDR_SIZE
  · simp [h]
  · simp [h]

@[simp] theorem ipv4_hdr_len_at_val (packet : Buf) (pkt_len l3_off : Nat) :
    (ipv4_hdr_len_at packet pkt_len l3_off).val =
      crypto_layer3.ipv4_hdr_len_at packet pkt_len l3_off := by
  unfold ipv4_hdr_len_at crypto_layer3.ipv4_hdr_len_at
  split <;> rfl

@[simp] theorem crypto_read_l3_tunnel_header_val (packet : Buf) (tunnel_off nonce_size : Nat) :
    (crypto_read_l3_tunnel_header packet tunnel_off nonce_size).val =
      (read packet tunnel_off nonce_size, packet (tunnel_off + nonce_size + 1)) := rfl

theorem verify_decrypted_payload_val (orig_proto : UInt8) (pkt : Buf) (off len : Nat) :
    (verify_decrypted_payload orig_proto pkt off len).val =
      crypto_layer3.verify_decrypted_payload orig_proto (read pkt off len) := by
  unfold verify_decrypted_payload crypto_layer3.verify_decrypted_payload
  rw [length_read]
  split
  · split
    · rfl
    · simp only
      rw [be16_ofBytes_read _ _ _ _ (by omega), be16_ofBytes_read _ _ _ _ (by omega)]
      rfl
  · rfl

theorem l3_restore_val {tls : Tls} (packet : Buf) {pkt_len ip_hdr_len enc_len : Nat}
    (orig_proto : UInt8)
    (h : pkt_len = ETH_HEADER_SIZE + ip_hdr_len + packet_crypto_get_tunnel_hdr_size tls + enc_len +
      tag_overhead tls) :
    (l3_restore tls packet pkt_len ip_hdr_len enc_len orig_proto).val =
      (let tunnel_off := ETH_HEADER_SIZE + ip_hdr_len
      let total_overhead := packet_crypto_get_tunnel_hdr_size tls + tag_overhead tls
      let enc_off := tunnel_off + packet_crypto_get_tunnel_hdr_size tls
      let packet := write packet tunnel_off (read packet enc_off enc_len)
      let packet := write packet IPV4_PROTO_OFF [orig_proto]
      let packet := crypto_layer3.l3_patch_ipv4 packet ip_hdr_len
        (be16 packet IPV4_TOTLEN_OFF + 65536 - total_overhead)
      (some (pkt_len - total_overhead), crypto_layer3.fix_transport_checksum packet ip_hdr_len
        orig_proto (pkt_len - total_overhead - tunnel_off))) := by
  unfold l3_restore
  simp only [val_bind, patch_ipv4_val, word_val]
  rw [size_sub_of_le (show packet_crypto_get_tunnel_hdr_size tls + tag_overhead tls ≤ pkt_len by
    omega)]
  split
  · rename_i hlt
    rw [size_sub_of_le (by omega)]
    rfl
  · rename_i hlt
    -- with nothing behind the header there is no checksum
    rw [show pkt_len - (packet_crypto_get_tunnel_hdr_size tls + tag_overhead tls) -
      (ETH_HEADER_SIZE + ip_hdr_len) = 0 by omega]
    unfold crypto_layer3.fix_transport_checksum
    simp
    rfl

/-- What a successful decryption leaves of the length. -/
theorem decrypt_in_place_length {o : Openssl} {tls : Tls} {ctx : PacketCryptoCtx} {nonce : Bytes}
    {verify : Bytes → Bool} {pkt pkt' : Buf} {enc_off total_after enc_len : Nat}
    (h : packet_crypto.decrypt_in_place o tls ctx nonce verify pkt enc_off total_after =
      (some enc_len, pkt')) : enc_len + tag_overhead tls = total_after := by
  unfold packet_crypto.decrypt_in_place at h
  split at h
  · simp at h
  rename_i hlen
  simp only at h
  split at h
  · have henc := Option.some.inj (congrArg Prod.fst h)
    omega
  · simp at h

theorem crypto_layer3_decrypt_val (o : Openssl) (tls : Tls) (ctx : PacketCryptoCtx)
    (packet : Buf) (pkt_len : Nat) :
    (crypto_layer3_decrypt o tls ctx packet pkt_len).val =
      crypto_layer3.crypto_layer3_decrypt o tls ctx packet pkt_len := by
  unfold crypto_layer3_decrypt crypto_layer3.crypto_layer3_decrypt
  split
  · rfl
  rw [val_bind, pkt_is_ipv4_val]
  cases crypto_layer3.pkt_is_ipv4 packet pkt_len with
  | false => rfl
  | true =>
    simp only [val_bind, ipv4_hdr_len_at_val, Bool.not_true, Bool.false_eq_true, if_false]
    cases crypto_layer3.ipv4_hdr_len_at packet pkt_len ETH_HEADER_SIZE with
    | none => rfl
    | some ip_hdr_len =>
      simp only [val_ite, val_bind, val_pure, byte_val, crypto_layer3.l3_is_frag_tunnel, beq_iff_eq]
      split
      · rfl
      rename_i hlen
      split
      · rfl
      split
      · rfl
      rw [size_sub_of_le (by omega), decrypt_in_place_val o tls ctx _
        (verify_decrypted_payload_val _), crypto_read_l3_tunnel_header_val]
      dsimp only
      generalize hd : packet_crypto.decrypt_in_place o tls ctx _ _ _ _ _ = r
      rcases r with ⟨_ | enc_len, packet'⟩
      · rfl
      · have hl := decrypt_in_place_length hd
        exact l3_restore_val _ _ (by omega)

theorem crypto_layer3_decrypt_fragment_val (o : Openssl) (tls : Tls) (ctx : PacketCryptoCtx)
    (packet : Buf) (pkt_len : Nat) :
    (crypto_layer3_decrypt_fragment o tls ctx packet pkt_len).val =
      crypto_layer3.crypto_layer3_decrypt_fragment o tls ctx packet pkt_len := by
  unfold crypto_layer3_decrypt_fragment crypto_layer3.crypto_layer3_decrypt_fragment
  split
  · rename_i h
    rw [if_pos (Or.inl h)]
    rfl
  rename_i h
  rw [val_bind, pkt_is_ipv4_val]
  cases hp : crypto_layer3.pkt_is_ipv4 packet pkt_len with
  | false => simp
  | true =>
    rw [if_neg (by simpa using h)]
    simp only [val_bind, ipv4_hdr_len_at_val]
    cases crypto_layer3.ipv4_hdr_len_at packet pkt_len ETH_HEADER_SIZE with
    | none => rfl
    | some ip_hdr_len =>
      simp only [val_ite, val_bind, val_pure, byte_val, read_frag_tag_val]
      unfold crypto_layer3.l3_is_frag_tunnel
      split
      · rename_i hproto
        rw [if_pos (Or.inl hproto)]
      rename_i hproto
      split
      · rename_i hlen
        rw [if_pos (Or.inr (Or.inl hlen))]
      rename_i hlen
      rw [open_tunnel_at_val o tls ctx packet _ _ _ (by omega)]
      split
      · rename_i htype
        rw [if_pos (by simp [htype])]
      · rename_i htype
        rw [if_neg (by simp only [not_or]; exact ⟨hproto, hlen, by simpa using htype⟩)]

/-! ## Layer 4 -/

def crypto_eth_ipv4_offset (pkt : Buf) (pkt_len : Nat) : Logged (Option Nat) :=
  if pkt_len < 14 then pure none
  else do
    let et ← word pkt 12
    if et = 0x0800 then pure (some 14)
    else if et = 0x8100 then
      if pkt_len < 18 then pure none
      else do
        let et ← word pkt 16
        if et = 0x0800 then pure (some 18)
        else if et = 0x8100 ∧ 22 ≤ pkt_len then do
          let et ← word pkt 20
          pure (if et = 0x0800 then some 22 else none)
        else pure none
    else pure none

/-- The type byte and, when it is the magic, the first byte. -/
def l4_is_tunnel_header (pkt : Buf) (tunnel_off nonce_size : Nat) : Logged Bool := do
  let type ← byte pkt (tunnel_off + nonce_size + 1)
  if type ≠ CRYPTO_L4_TUNNEL_MAGIC then pure false
  else do
    let first ← byte pkt tunnel_off
    pure (decide (first.toNat < 128))

def crypto_layer4_decrypt (o : Openssl) (tls : Tls) (ctx : PacketCryptoCtx) (packet : Buf)
    (pkt_len : Nat) : Logged (Option Nat × Buf) :=
  if !ctx.initialized then pure (none, packet)
  else do
    match ← crypto_eth_ipv4_offset packet pkt_len with
    | none => pure (some pkt_len, packet)
    | some l3_off =>
      if pkt_len < l3_off + 20 then pure (none, packet)
      else do
        let ip_proto ← byte packet (l3_off + 9)
        if ip_proto ≠ 6 ∧ ip_proto ≠ 17 then pure (some pkt_len, packet)
        else do
          let version_ihl ← byte packet l3_off
          let ip_hdr_len := version_ihl.toNat % 16 * 4
          let tunnel_off := l3_off + ip_hdr_len + L4_WIRE_PORT_LEN
          let enc_off := tunnel_off + packet_crypto_get_tunnel_hdr_size tls
          if ip_hdr_len < 20 then pure (none, packet)
          else if pkt_len < enc_off then pure (some pkt_len, packet)
          else do
            match ← l4_is_tunnel_header packet tunnel_off tls.nonce_size with
            | false => pure (some pkt_len, packet)
            | true => open_tunnel_at o tls ctx packet pkt_len l3_off ip_hdr_len tunnel_off enc_off

def crypto_layer4_decrypt_fragment (o : Openssl) (tls : Tls) (ctx : PacketCryptoCtx)
    (packet : Buf) (pkt_len : Nat) : Logged (Option (Nat × Nat × UInt8) × Buf) :=
  if !ctx.initialized then pure (none, packet)
  else do
    match ← crypto_eth_ipv4_offset packet pkt_len with
    | none => pure (none, packet)
    | some l3_off =>
      if pkt_len < l3_off + 20 then pure (none, packet)
      else do
        let ip_proto ← byte packet (l3_off + 9)
        if ip_proto ≠ 6 ∧ ip_proto ≠ 17 then pure (none, packet)
        else do
          let version_ihl ← byte packet l3_off
          let ip_hdr_len := version_ihl.toNat % 16 * 4
          let tunnel_off := l3_off + ip_hdr_len + L4_WIRE_PORT_LEN
          let tag_off := tunnel_off + packet_crypto_get_tunnel_hdr_size tls
          let enc_off := tag_off + FRAG_TAG_SIZE
          if ip_hdr_len < 20 then pure (none, packet)
          else if pkt_len < enc_off then pure (none, packet)
          else do
            let type ← byte packet (tunnel_off + tls.nonce_size + 1)
            if type ≠ CRYPTO_L4_FRAG_MAGIC then pure (none, packet)
            else do
              let tag ← read_frag_tag packet tag_off
              let r ← open_tunnel_at o tls ctx packet pkt_len l3_off ip_hdr_len tunnel_off enc_off
              pure (r.1.map (·, tag), r.2)

@[simp] theorem crypto_eth_ipv4_offset_val (pkt : Buf) (pkt_len : Nat) :
    (crypto_eth_ipv4_offset pkt pkt_len).val = crypto_layer4.crypto_eth_ipv4_offset pkt pkt_len := by
  unfold crypto_eth_ipv4_offset crypto_layer4.crypto_eth_ipv4_offset
  simp only [val_ite, val_bind, val_pure, word_val]
  by_cases h : be16 pkt 16 = 0x8100 ∧ 22 ≤ pkt_len
  · simp only [h, true_and, and_self, if_true]
  · rw [if_neg h, if_neg fun h' : be16 pkt 16 = 0x8100 ∧ 22 ≤ pkt_len ∧ be16 pkt 20 = 0x0800 =>
      h ⟨h'.1, h'.2.1⟩]

@[simp] theorem l4_is_tunnel_header_val (pkt : Buf) (tunnel_off nonce_size : Nat) :
    (l4_is_tunnel_header pkt tunnel_off nonce_size).val =
      crypto_layer4.l4_is_tunnel_header pkt tunnel_off nonce_size := by
  unfold l4_is_tunnel_header crypto_layer4.l4_is_tunnel_header
  simp only [val_ite, val_bind, val_pure, byte_val]
  by_cases h : pkt (tunnel_off + nonce_size + 1) = CRYPTO_L4_TUNNEL_MAGIC
  · simp [h]
  · simp [h]

theorem crypto_layer4_decrypt_val (o : Openssl) (tls : Tls) (ctx : PacketCryptoCtx)
    (packet : Buf) (pkt_len : Nat) :
    (crypto_layer4_decrypt o tls ctx packet pkt_len).val =
      crypto_layer4.crypto_layer4_decrypt o tls ctx packet pkt_len := by
  unfold crypto_layer4_decrypt crypto_layer4.crypto_layer4_decrypt crypto_layer4.ip_hdr_len_at
  split
  · rfl
  rw [val_bind, crypto_eth_ipv4_offset_val]
  cases crypto_layer4.crypto_eth_ipv4_offset packet pkt_len with
  | none => rfl
  | some l3_off =>
    simp only [val_ite, val_bind, val_pure, byte_val, l4_is_tunnel_header_val]
    split
    · rfl
    split
    · rfl
    split
    · rfl
    split
    · rename_i hlen
      rw [if_pos (Or.inl hlen)]
    rename_i hlen
    split
    · rename_i hhdr
      rw [if_pos (by simp [hhdr])]
      rfl
    · rename_i hhdr
      rw [if_neg (by simp [hhdr]; omega)]
      exact open_tunnel_at_val o tls ctx packet _ _ _ (by omega)

theorem crypto_layer4_decrypt_fragment_val (o : Openssl) (tls : Tls) (ctx : PacketCryptoCtx)
    (packet : Buf) (pkt_len : Nat) :
    (crypto_layer4_decrypt_fragment o tls ctx packet pkt_len).val =
      crypto_layer4.crypto_layer4_decrypt_fragment o tls ctx packet pkt_len := by
  unfold crypto_layer4_decrypt_fragment crypto_layer4.crypto_layer4_decrypt_fragment
    crypto_layer4.ip_hdr_len_at
  split
  · rfl
  rw [val_bind, crypto_eth_ipv4_offset_val]
  cases crypto_layer4.crypto_eth_ipv4_offset packet pkt_len with
  | none => rfl
  | some l3_off =>
    simp only [val_ite, val_bind, val_pure, byte_val, read_frag_tag_val]
    split
    · rename_i h
      rw [if_pos (Or.inl h)]
    rename_i hhdr
    split
    · rename_i h
      rw [if_pos (Or.inr (Or.inl h))]
    rename_i hproto
    split
    · rename_i h
      rw [if_pos (Or.inr (Or.inr (Or.inl h)))]
    rename_i hihl
    split
    · rename_i h
      rw [if_pos (Or.inr (Or.inr (Or.inr (Or.inl h))))]
    rename_i hlen
    rw [open_tunnel_at_val o tls ctx packet _ _ _ (by omega)]
    split
    · rename_i h
      rw [if_pos (Or.inr (Or.inr (Or.inr (Or.inr h))))]
    · rename_i h
      rw [if_neg (by simp only [not_or]; exact ⟨hhdr, hproto, hihl, hlen, h⟩)]

end ne_ip.frame_access
