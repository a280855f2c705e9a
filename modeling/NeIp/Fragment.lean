-- Fragments (fragment.c): a packet that encryption would make too long goes out in
-- two encrypted halves, and a table of pending first halves puts them together again.
import NeIp.Config
import NeIp.CryptoLayer2
import NeIp.CryptoLayer3
import NeIp.CryptoLayer4

open byte_buf ne_ip.packet_crypto ne_ip.tunnel ne_ip.config ne_ip.crypto_layer2
open ne_ip.crypto_layer3 ne_ip.crypto_layer4

namespace ne_ip.fragment

def FRAG_MTU : Nat := 1500
def FRAG_TABLE_SIZE : Nat := 512
def FRAG_TIMEOUT_NS : Nat := 200 * 1000000

/-- The sizes of `data` in an entry, of `frag0_plain`, and of an output buffer. -/
def ENTRY_DATA_SIZE : Nat := 1600
def FRAG0_PLAIN_SIZE : Nat := 2048
def FRAG_OUT_SIZE : Nat := 2048
def REASSEMBLED_SIZE : Nat := 4096

/-- A subtraction of `uint32_t`. -/
def u32_sub (a b : Nat) : Nat := if b ≤ a then a - b else a + 2 ^ 32 - b

theorem u32_sub_of_le {a b : Nat} (h : b ≤ a) : u32_sub a b = a - b := if_pos h

/-- The id for a packet and the counter after it. -/
def frag_next_pkt_id (g_pkt_id_counter : Nat) : Nat × Nat :=
  (g_pkt_id_counter % 65536, g_pkt_id_counter + 1)

def frag_need_split (tls : Tls) (pkt_len : Nat) : Bool :=
  decide (FRAG_MTU < pkt_len + crypto_layer3_frag_meta_len tls)

def frag_need_split_l4 (tls : Tls) (pkt_len : Nat) : Bool :=
  decide (FRAG_MTU < pkt_len + (L4_WIRE_PORT_LEN + packet_crypto_get_tunnel_hdr_size tls +
    FRAG_TAG_SIZE + tag_overhead tls))

def frag_need_split_l2 (tls : Tls) (pkt_len : Nat) : Bool :=
  decide (FRAG_MTU < pkt_len + crypto_layer2_frag_meta_len tls)

/-- The header length of an IPv4 packet. -/
def frag_require_ipv4 (pkt : Buf) (pkt_len : Nat) : Option Nat :=
  let ihl := (pkt 14).toNat % 16 * 4
  if pkt_len < 14 + 20 ∨ be16 pkt 12 ≠ 0x0800 ∨ ihl < 20 ∨ pkt_len < 14 + ihl then none
  else some ihl

/-! ## The sender -/

/-- The two frames, `none` being -1, and the two counters after the call. -/
structure SplitResult where
  frags : Option ((Buf × Nat) × (Buf × Nat))
  counter : Nat
  pkt_id_counter : Nat

/-- What the three split functions do from the halves on: `hdr` and the first half of the
`app_len` bytes at `app_off` make the first fragment, the rest makes the second one.
`encrypt` is the `encrypt_fragment_single` of a layer. -/
def split_and_encrypt (encrypt : (counter : Nat) → (enc_plain : Bytes) → (pkt_id : Nat) →
      (frag_index : UInt8) → (out_buf : Buf) → EncResult) (counter pkt_id_counter : Nat)
    (pkt : Buf) (hdr : Bytes) (app_off app_len : Nat) (frag1 frag2 : Buf) : SplitResult :=
  let half1 := app_len / 2
  let half2 := app_len - half1
  let id := frag_next_pkt_id pkt_id_counter
  if FRAG0_PLAIN_SIZE < hdr.length + half1 then { frags := none, counter, pkt_id_counter := id.2 }
  else
    let r1 := encrypt counter (hdr ++ read pkt app_off half1) id.1 0 frag1
    match r1.ret with
    | none => { frags := none, counter := r1.counter, pkt_id_counter := id.2 }
    | some frag1_len =>
      let r2 := encrypt r1.counter (read pkt (app_off + half1) half2) id.1 1 frag2
      match r2.ret with
      | none => { frags := none, counter := r2.counter, pkt_id_counter := id.2 }
      | some frag2_len =>
        { frags := some ((r1.pkt, frag1_len), (r2.pkt, frag2_len))
          counter := r2.counter
          pkt_id_counter := id.2 }

/-- The split of layer 3. -/
def frag_split_and_encrypt (o : Openssl) (tls : Tls) (ctx : PacketCryptoCtx)
    (counter pkt_id_counter : Nat) (pkt : Buf) (pkt_len : Nat) (frag1 frag2 : Buf) :
    SplitResult :=
  if pkt_len < 14 + 20 + 8 then { frags := none, counter, pkt_id_counter }
  else
    match frag_require_ipv4 pkt pkt_len with
    | none => { frags := none, counter, pkt_id_counter }
    | some ip_hdr_len =>
      let ip_proto := pkt (14 + 9)
      let ip_payload := 14 + ip_hdr_len
      let ip_payload_len := pkt_len - 14 - ip_hdr_len
      if ip_proto ≠ 6 ∧ ip_proto ≠ 17 then { frags := none, counter, pkt_id_counter }
      else
        match get_transport_hdr_size pkt ip_payload ip_proto ip_payload_len with
        | none => { frags := none, counter, pkt_id_counter }
        | some transport_hdr_len =>
          let app_len := ip_payload_len - transport_hdr_len
          if app_len = 0 then { frags := none, counter, pkt_id_counter }
          else
            split_and_encrypt
              (fun counter enc_plain pkt_id frag_index out_buf =>
                crypto_layer3_encrypt_fragment_single o tls ctx counter (read pkt 0 14)
                  (read pkt 14 ip_hdr_len) enc_plain pkt_id frag_index out_buf FRAG_OUT_SIZE)
              counter pkt_id_counter pkt (read pkt ip_payload transport_hdr_len)
              (ip_payload + transport_hdr_len) app_len frag1 frag2

/-- The split of layer 4, which does not check that the frame holds its IPv4 header. -/
def frag_split_and_encrypt_l4 (o : Openssl) (tls : Tls) (ctx : PacketCryptoCtx)
    (counter pkt_id_counter : Nat) (pkt : Buf) (pkt_len : Nat) (frag1 frag2 : Buf) :
    SplitResult :=
  let ip_proto := pkt (14 + 9)
  let ip_hdr_len := (pkt 14).toNat % 16 * 4
  let transport_off := 14 + ip_hdr_len
  if pkt_len < 14 + 20 + 8 ∨ be16 pkt 12 ≠ 0x0800 ∨ (ip_proto ≠ 6 ∧ ip_proto ≠ 17) ∨
      ip_hdr_len < 20 then { frags := none, counter, pkt_id_counter }
  else
    match get_transport_hdr_size pkt transport_off ip_proto (u32_sub pkt_len transport_off) with
    | none => { frags := none, counter, pkt_id_counter }
    | some transport_hdr_len =>
      let app_off := transport_off + transport_hdr_len
      let app_len := u32_sub pkt_len app_off
      if app_len = 0 then { frags := none, counter, pkt_id_counter }
      else
        split_and_encrypt
          (fun counter enc_plain pkt_id frag_index out_buf =>
            crypto_layer4_encrypt_fragment_single o tls ctx counter (read pkt 0 14)
              (read pkt 14 ip_hdr_len) (read pkt transport_off L4_WIRE_PORT_LEN) enc_plain pkt_id
              frag_index out_buf FRAG_OUT_SIZE)
          counter pkt_id_counter pkt (read pkt transport_off transport_hdr_len) app_off app_len
          frag1 frag2

/-- The split of layer 2, which encrypts the IPv4 header too. -/
def frag_split_and_encrypt_l2 (o : Openssl) (fake : Nat) (tls : Tls) (ctx : PacketCryptoCtx)
    (counter pkt_id_counter : Nat) (pkt : Buf) (pkt_len : Nat) (frag1 frag2 : Buf) :
    SplitResult :=
  match frag_require_ipv4 pkt pkt_len with
  | none => { frags := none, counter, pkt_id_counter }
  | some ip_hdr_len =>
    let ip_proto := pkt (14 + 9)
    let ip_payload := 14 + ip_hdr_len
    let ip_payload_len := pkt_len - 14 - ip_hdr_len
    let split := fun transport_hdr_len =>
      let app_len := ip_payload_len - transport_hdr_len
      if app_len = 0 then { frags := none, counter, pkt_id_counter }
      else
        split_and_encrypt
          (fun counter enc_plain pkt_id frag_index out_buf =>
            crypto_layer2_encrypt_fragment_single o fake tls ctx counter (read pkt 0 14) enc_plain
              pkt_id frag_index out_buf FRAG_OUT_SIZE)
          counter pkt_id_counter pkt (read pkt 14 (ip_hdr_len + transport_hdr_len))
          (ip_payload + transport_hdr_len) app_len frag1 frag2
    if ip_proto = 6 ∨ ip_proto = 17 then
      match get_transport_hdr_size pkt ip_payload ip_proto ip_payload_len with
      | none => { frags := none, counter, pkt_id_counter }
      | some transport_hdr_len => split transport_hdr_len
    else split 0

/-! ## The receiver -/

/-- What the three `frag_is_fragment` functions do with the first policy that fits: the tag at
`tag_off`, when its index is 0 or 1. -/
def fragment_of (cfg : AppConfig) (fits : CryptoPolicy → Bool) (pkt : Buf)
    (tag_off : CryptoPolicy → Nat) :
    Option (Nat × UInt8) :=
  match cfg.policies.find? fits with
  | none => none
  | some cp =>
    let tag := read_frag_tag pkt (tag_off cp)
    if tag.2 ≤ 1 then some tag else none

theorem fragment_of_eq {cfg : AppConfig} {fits : CryptoPolicy → Bool} {pkt : Buf}
    {tag_off : CryptoPolicy → Nat} {cp : CryptoPolicy} {tag : Nat × UInt8}
    (hcp : cfg.policies.find? fits = some cp) (htag : read_frag_tag pkt (tag_off cp) = tag)
    (hidx : tag.2 ≤ 1) : fragment_of cfg fits pkt tag_off = some tag := by
  unfold fragment_of
  rw [hcp]
  dsimp only
  rw [htag, if_pos hidx]

/-- The id and the index of a layer 3 fragment. Where the tag is comes from the nonce size of
the thread, not from the one of the policy. -/
def frag_is_fragment (tls : Tls) (cfg : AppConfig) (pkt : Buf) (pkt_len : Nat) :
    Option (Nat × UInt8) :=
  match frag_require_ipv4 pkt pkt_len with
  | none => none
  | some ip_hdr_len =>
    let tunnel_off := 14 + ip_hdr_len
    let tag_off := tunnel_off + packet_crypto_get_tunnel_hdr_size tls
    if pkt (14 + 9) ≠ tls.fake_protocol ∨ pkt_len < tag_off + FRAG_TAG_SIZE then none
    else
      fragment_of cfg
        (fun cp => cp.action == .encrypt_l3 && cp.nonce_size != 0 &&
          decide (tunnel_off + cp.nonce_size + 1 < pkt_len) &&
          pkt (tunnel_off + cp.nonce_size + 1) == CRYPTO_L3_FRAG_MAGIC &&
          pkt (tunnel_off + cp.nonce_size) == cp.wire_id)
        pkt fun _ => tag_off

def frag_is_fragment_l4 (tls : Tls) (cfg : AppConfig) (pkt : Buf) (pkt_len : Nat) :
    Option (Nat × UInt8) :=
  let ip_proto := pkt (14 + 9)
  let ip_hdr_len := (pkt 14).toNat % 16 * 4
  let tunnel_off := 14 + ip_hdr_len + L4_WIRE_PORT_LEN
  let tag_off := tunnel_off + packet_crypto_get_tunnel_hdr_size tls
  if pkt_len < 14 + 20 + 8 ∨ be16 pkt 12 ≠ 0x0800 ∨ (ip_proto ≠ 6 ∧ ip_proto ≠ 17) ∨
      ip_hdr_len < 20 ∨ pkt_len < tag_off + FRAG_TAG_SIZE then none
  else
    fragment_of cfg
      (fun cp => cp.action == .encrypt_l4 && cp.nonce_size != 0 &&
        decide (tunnel_off + cp.nonce_size + 1 < pkt_len) &&
        pkt (tunnel_off + cp.nonce_size + 1) == CRYPTO_L4_FRAG_MAGIC &&
        pkt (tunnel_off + cp.nonce_size) == cp.wire_id)
      pkt fun _ => tag_off

/-- The only one of the three that does not look for the id of the policy. -/
def frag_is_fragment_l2 (fake : Nat) (cfg : AppConfig) (pkt : Buf) (pkt_len : Nat) :
    Option (Nat × UInt8) :=
  if pkt_len < 14 + 4 + 1 + FRAG_TAG_SIZE ∨ !l2_has_fake_marker fake pkt then none
  else
    fragment_of cfg
      (fun cp => cp.action == .encrypt_l2 && cp.nonce_size != 0 &&
        decide (14 + cp.nonce_size + 1 + FRAG_TAG_SIZE ≤ pkt_len) &&
        pkt (14 + cp.nonce_size) == L2_FRAG_MAGIC)
      pkt fun cp => 14 + cp.nonce_size + 1

/-- `struct frag_entry`. What `data` holds behind `data_len` is left from earlier entries. -/
structure FragEntry where
  valid : Bool
  pkt_id : Nat
  data : Buf
  data_len : Nat
  eth_hdr : Bytes
  ip_hdr : Bytes
  orig_proto : UInt8
  timestamp_ns : Nat
  data_le : data_len ≤ ENTRY_DATA_SIZE

/-- `struct frag_table`, by the index of the entry. -/
abbrev FragTable := Nat → FragEntry

def set_entry (ft : FragTable) (idx : Nat) (entry : FragEntry) : FragTable :=
  fun i => if i = idx then entry else ft i

theorem set_entry_self (ft : FragTable) (idx : Nat) (entry : FragEntry) :
    set_entry ft idx entry idx = entry := if_pos rfl

/-- `frag_table_init`. -/
def frag_table_init : FragTable := fun _ =>
  { valid := false
    pkt_id := 0
    data := fun _ => 0
    data_len := 0
    eth_hdr := List.replicate 14 0
    ip_hdr := []
    orig_proto := 0
    timestamp_ns := 0
    data_le := Nat.zero_le _ }

/-- `frag_table_gc` at the time `now`. The difference is one of `uint64_t`: a time before the
entry's is a long time after it. -/
def frag_table_gc (now : Nat) (ft : FragTable) : FragTable := fun i =>
  if (ft i).valid && decide (FRAG_TIMEOUT_NS < size_sub now (ft i).timestamp_ns) then
    { ft i with valid := false }
  else ft i

/-- `frag_store_pending`; -1 is `none`. -/
def frag_store_pending (entry : FragEntry) (pkt_id : Nat) (eth ip : Bytes) (orig_proto : UInt8)
    (pkt : Buf) (data_off data_len now : Nat) : Option FragEntry :=
  if h : data_len ≤ ENTRY_DATA_SIZE then
    some
      { valid := true
        pkt_id := pkt_id
        data := write entry.data 0 (read pkt data_off data_len)
        data_len := data_len
        eth_hdr := eth
        ip_hdr := ip
        orig_proto := orig_proto
        timestamp_ns := now
        data_le := h }
  else none

/-- What a reassembly returns: 0, -1, and 1 with the packet. -/
inductive Reassembled where
  | pending
  | failed
  | packet (out_buf : Buf) (out_len : Nat)

/-- The pending first half of a second one: it has to be there, and not too old. The table
comes without it when it was too old. -/
def take_pending (ft : FragTable) (idx pkt_id now : Nat) : Option FragEntry × FragTable :=
  let entry := ft idx
  if !entry.valid ∨ entry.pkt_id ≠ pkt_id then (none, ft)
  else if FRAG_TIMEOUT_NS < size_sub now entry.timestamp_ns then
    (none, set_entry ft idx { entry with valid := false })
  else (some entry, ft)

/-- The length of the transport header in a pending first half. -/
def restored_th (entry : FragEntry) (data_off : Nat) : Nat :=
  match get_transport_hdr_size entry.data data_off entry.orig_proto
      (entry.data_len - data_off) with
  | some n => n
  | none => if entry.orig_proto = 6 then 20 else 8

/-- The packet that layers 3 and 4 put together: the stored headers, the first half, and the
`second_len` bytes at `second_off`. -/
def join_halves (out_buf : Buf) (entry : FragEntry) (pkt : Buf) (second_off second_len : Nat) :
    Buf × Nat :=
  let off := 14 + entry.ip_hdr.length
  let out := write (write out_buf 0 entry.eth_hdr) 14 entry.ip_hdr
  let th := restored_th entry 0
  let first_app := entry.data_len - th
  let out := write out off (read entry.data 0 th)
  let out := write out (off + th) (read entry.data th first_app)
  let out := write out (off + th + first_app) (read pkt second_off second_len)
  let out_len := off + th + first_app + second_len
  (patch_ipv4 out 14 entry.ip_hdr.length (out_len - 14), out_len)

/-- Layer 3: the protocol of the packet is guessed from its first half. -/
def frag_try_reassemble (now : Nat) (ft : FragTable) (pkt : Buf) (pkt_len pkt_id : Nat)
    (frag_index : UInt8) (out_buf : Buf) : Reassembled × FragTable :=
  match frag_require_ipv4 pkt pkt_len with
  | none => (.failed, ft)
  | some ip_hdr_len =>
    let payload := 14 + ip_hdr_len
    let payload_len := pkt_len - 14 - ip_hdr_len
    let idx := pkt_id % FRAG_TABLE_SIZE
    if frag_index = 0 then
      let store := fun orig_proto =>
        match frag_store_pending (ft idx) pkt_id (read pkt 0 14) (read pkt 14 ip_hdr_len)
            orig_proto pkt payload payload_len now with
        | none => (.failed, ft)
        | some entry => (.pending, set_entry ft idx entry)
      if (get_transport_hdr_size pkt payload 6 payload_len).isSome then store 6
      else if (get_transport_hdr_size pkt payload 17 payload_len).isSome then store 17
      else (.failed, ft)
    else if frag_index = 1 then
      match take_pending ft idx pkt_id now with
      | (none, ft) => (.failed, ft)
      | (some entry, ft) =>
        let ft := set_entry ft idx { entry with valid := false }
        if REASSEMBLED_SIZE < entry.data_len + payload_len then (.failed, ft)
        else
          let entry := { entry with
            ip_hdr := entry.ip_hdr.set 9 entry.orig_proto }
          let r := join_halves out_buf entry pkt payload payload_len
          (.packet r.1 r.2, ft)
    else (.failed, ft)

/-- Layer 4: the ports stand before each half. -/
def frag_try_reassemble_l4 (now : Nat) (ft : FragTable) (pkt : Buf) (pkt_len pkt_id : Nat)
    (frag_index : UInt8) (out_buf : Buf) : Reassembled × FragTable :=
  if pkt_len < 14 + 20 ∨ be16 pkt 12 ≠ 0x0800 then (.failed, ft)
  else
    let ip_hdr_len := (pkt 14).toNat % 16 * 4
    let payload := 14 + ip_hdr_len
    let plain_len := u32_sub (u32_sub pkt_len 14) ip_hdr_len - L4_WIRE_PORT_LEN
    let idx := pkt_id % FRAG_TABLE_SIZE
    if frag_index = 0 then
      match frag_store_pending (ft idx) pkt_id (read pkt 0 14) (read pkt 14 ip_hdr_len)
          (pkt (14 + 9)) pkt (payload + L4_WIRE_PORT_LEN) plain_len now with
      | none => (.failed, ft)
      | some entry => (.pending, set_entry ft idx entry)
    else if frag_index = 1 then
      match take_pending ft idx pkt_id now with
      | (none, ft) => (.failed, ft)
      | (some entry, ft) =>
        let ft := set_entry ft idx { entry with valid := false }
        let total_plain := (entry.data_len + plain_len) % 2 ^ 32
        if total_plain < 8 ∨ REASSEMBLED_SIZE < total_plain then (.failed, ft)
        else
          let r := join_halves out_buf entry pkt (payload + L4_WIRE_PORT_LEN) plain_len
          (.packet r.1 r.2, ft)
    else (.failed, ft)

/-- Layer 2: the IPv4 header is the head of the first half. -/
def frag_try_reassemble_l2 (now : Nat) (ft : FragTable) (pkt : Buf) (pkt_len pkt_id : Nat)
    (frag_index : UInt8) (out_buf : Buf) : Reassembled × FragTable :=
  let inner := ETH_HEADER_SIZE
  let inner_len := pkt_len - ETH_HEADER_SIZE
  let idx := pkt_id % FRAG_TABLE_SIZE
  if pkt_len < ETH_HEADER_SIZE + 20 then (.failed, ft)
  else if frag_index = 0 then
    let ip_hdr_len := (pkt inner).toNat % 16 * 4
    if inner_len < 20 ∨ (pkt inner).toNat / 16 ≠ 4 ∨ ip_hdr_len < 20 ∨ inner_len < ip_hdr_len then
      (.failed, ft)
    else
      match frag_store_pending (ft idx) pkt_id (read pkt 0 14) (read pkt inner ip_hdr_len)
          (pkt (inner + 9)) pkt inner inner_len now with
      | none => (.failed, ft)
      | some entry => (.pending, set_entry ft idx entry)
  else if frag_index = 1 then
    match take_pending ft idx pkt_id now with
    | (none, ft) => (.failed, ft)
    | (some entry, ft) =>
      let ft := set_entry ft idx { entry with valid := false }
      if REASSEMBLED_SIZE < entry.data_len + inner_len then (.failed, ft)
      else
        let ip_hdr_len := entry.ip_hdr.length
        let out := write out_buf 0 entry.eth_hdr
        let out := write out ETH_HEADER_SIZE (read entry.data 0 ip_hdr_len)
        let th := if ip_hdr_len < entry.data_len then restored_th entry ip_hdr_len else 0
        let first_app := entry.data_len - ip_hdr_len - th
        let off := ETH_HEADER_SIZE + ip_hdr_len
        let out := write out off (read entry.data ip_hdr_len th)
        let out := write out (off + th) (read entry.data (ip_hdr_len + th) first_app)
        let out := write out (off + th + first_app) (read pkt inner inner_len)
        let out_len := off + th + first_app + inner_len
        let out := patch_ipv4 out ETH_HEADER_SIZE ip_hdr_len (out_len - ETH_HEADER_SIZE)
        -- the frame still has the fake ethertype
        (.packet (write out 12 [0x08, 0x00]) out_len, ft)
  else (.failed, ft)

/-! ## What a split gives -/

theorem frag_require_ipv4_some {pkt : Buf} {pkt_len ihl : Nat}
    (h : frag_require_ipv4 pkt pkt_len = some ihl) :
    be16 pkt 12 = 0x0800 ∧ (pkt 14).toNat % 16 * 4 = ihl ∧ 20 ≤ ihl ∧ 14 + ihl ≤ pkt_len := by
  unfold frag_require_ipv4 at h
  dsimp only at h
  split at h
  · simp at h
  · have hi := Option.some.inj h
    omega

theorem frag_require_ipv4_eq {pkt : Buf} {pkt_len ihl : Nat} (h4 : be16 pkt 12 = 0x0800)
    (hihl : (pkt 14).toNat % 16 * 4 = ihl) (h20 : 20 ≤ ihl) (hl : 14 + ihl ≤ pkt_len) :
    frag_require_ipv4 pkt pkt_len = some ihl := by
  unfold frag_require_ipv4
  dsimp only
  rw [hihl, if_neg (by omega)]

/-- Both halves are encrypted, the first one with the transport header before it. -/
theorem split_and_encrypt_some
    {encrypt : (counter : Nat) → (enc_plain : Bytes) → (pkt_id : Nat) → (frag_index : UInt8) →
      (out_buf : Buf) → EncResult}
    {counter pkt_id_counter app_off app_len : Nat} {pkt frag1 frag2 : Buf} {hdr : Bytes}
    {f1 f2 : Buf × Nat}
    (h : (split_and_encrypt encrypt counter pkt_id_counter pkt hdr app_off app_len frag1
      frag2).frags = some (f1, f2)) :
    hdr.length + app_len / 2 ≤ FRAG0_PLAIN_SIZE ∧
    (∃ r, r = encrypt counter (hdr ++ read pkt app_off (app_len / 2))
      (frag_next_pkt_id pkt_id_counter).1 0 frag1 ∧ r.ret = some f1.2 ∧ r.pkt = f1.1) ∧
    ∃ c r, r = encrypt c (read pkt (app_off + app_len / 2) (app_len - app_len / 2))
      (frag_next_pkt_id pkt_id_counter).1 1 frag2 ∧ r.ret = some f2.2 ∧ r.pkt = f2.1 := by
  unfold split_and_encrypt at h
  dsimp only at h
  split at h
  · simp at h
  rename_i hfit
  split at h
  · simp at h
  rename_i frag1_len h1
  split at h
  · simp at h
  rename_i frag2_len h2
  obtain ⟨rfl, rfl⟩ := Prod.mk.inj (Option.some.inj h)
  exact ⟨by omega, ⟨_, rfl, h1, rfl⟩, ⟨_, _, rfl, h2, rfl⟩⟩

/-- What a packet has from `off` on, in two halves. The first one is longer, by the headers. -/
structure Halves (pkt : Buf) (off pkt_len : Nat) (plain1 plain2 : Bytes) : Prop where
  fits : off ≤ pkt_len
  whole : plain1 ++ plain2 = read pkt off (pkt_len - off)
  second_le : plain2.length ≤ plain1.length
  first_le : plain1.length ≤ plain2.length + 120

theorem halves_read {pkt : Buf} {off m n1 n2 pkt_len : Nat} (hoff : off ≤ pkt_len) (hm : off + n1 = m)
    (hlen : m + n2 = pkt_len) (h2 : n2 ≤ n1) (h1 : n1 ≤ n2 + 120) :
    Halves pkt off pkt_len (read pkt off n1) (read pkt m n2) := by
  refine ⟨hoff, ?_, ?_, ?_⟩
  · rw [← hm, ← read_add, show n1 + n2 = pkt_len - off by omega]
  · rw [length_read, length_read]
    exact h2
  · rw [length_read, length_read]
    exact h1

section

variable {pkt : Buf} {off pkt_len : Nat} {plain1 plain2 : Bytes}

theorem Halves.length (h : Halves pkt off pkt_len plain1 plain2) :
    off + plain1.length + plain2.length = pkt_len := by
  have hlen := congrArg List.length h.whole
  have hfits := h.fits
  rw [List.length_append, length_read] at hlen
  omega

theorem Halves.eq_read (h : Halves pkt off pkt_len plain1 plain2) :
    plain1 = read pkt off plain1.length ∧
      plain2 = read pkt (off + plain1.length) plain2.length := by
  have hlen := h.length
  have hadd := read_add pkt off plain1.length plain2.length
  rw [show plain1.length + plain2.length = pkt_len - off by omega, ← h.whole] at hadd
  exact List.append_inj hadd (length_read _ _ _).symm

end

/-- The TCP or UDP packet that a split takes apart, up to its IPv4 header. -/
structure Splittable (pkt : Buf) (pkt_len ihl : Nat) : Prop where
  len : 14 + 20 + 8 ≤ pkt_len
  ipv4 : be16 pkt 12 = 0x0800
  proto : pkt (14 + 9) = 6 ∨ pkt (14 + 9) = 17
  ihl_eq : (pkt 14).toNat % 16 * 4 = ihl
  ihl_ge : 20 ≤ ihl

/-- The length of the plaintext of the first fragment. -/
def first_half_len (pkt : Buf) (pkt_len : Nat) : Nat :=
  let ip_hdr_len := (pkt 14).toNat % 16 * 4
  let ip_payload_len := pkt_len - 14 - ip_hdr_len
  match get_transport_hdr_size pkt (14 + ip_hdr_len) (pkt (14 + 9)) ip_payload_len with
  | some transport_hdr_len => transport_hdr_len + (ip_payload_len - transport_hdr_len) / 2
  | none => 0

/-- What a layer 3 split makes of a packet: two fragments of one id, the second one not much
longer than the first one. -/
theorem frag_split_and_encrypt_some {o : Openssl} (ho : o.Lawful) {tls : Tls}
    {ctx : PacketCryptoCtx} {counter pkt_id_counter : Nat} {pkt : Buf} {pkt_len : Nat}
    {frag1 frag2 : Buf} {f1 f2 : Buf × Nat} (hns : 4 ≤ tls.nonce_size)
    (h : (frag_split_and_encrypt o tls ctx counter pkt_id_counter pkt pkt_len frag1 frag2).frags =
      some (f1, f2)) :
    ∃ ihl plain1 plain2 c, Splittable pkt pkt_len ihl ∧
      L3Fragment o tls ctx counter pkt ihl plain1 (pkt_id_counter % 65536) 0 f1.1 f1.2 ∧
      L3Fragment o tls ctx c pkt ihl plain2 (pkt_id_counter % 65536) 1 f2.1 f2.2 ∧
      Halves pkt (14 + ihl) pkt_len plain1 plain2 ∧
      plain1.length = first_half_len pkt pkt_len ∧ 8 ≤ plain1.length ∧
      plain1.length ≤ FRAG0_PLAIN_SIZE ∧ plain2.length ≤ plain1.length ∧ 0 < plain2.length := by
  unfold frag_split_and_encrypt at h
  split at h
  · simp at h
  rename_i hlen
  split at h
  · simp at h
  rename_i ihl hihl
  obtain ⟨h4, hieq, h20, hhdr⟩ := frag_require_ipv4_some hihl
  dsimp only at h
  split at h
  · simp at h
  rename_i hproto
  split at h
  · simp at h
  rename_i th hth
  obtain ⟨hp, h8, hrem⟩ := get_transport_hdr_size_some hth
  have h60 := get_transport_hdr_size_le hth
  split at h
  · simp at h
  obtain ⟨hfit, ⟨r1, hr1, hret1, hpkt1⟩, ⟨c, r2, hr2, hret2, hpkt2⟩⟩ := split_and_encrypt_some h
  rw [hr1] at hret1
  rw [hr2] at hret2
  have hf1 := (crypto_layer3_encrypt_fragment_single_some ho hns hret1).2
  have hf2 := (crypto_layer3_encrypt_fragment_single_some ho hns hret2).2
  rw [← hr1, hpkt1] at hf1
  rw [← hr2, hpkt2] at hf2
  have hfirst : first_half_len pkt pkt_len = th + (pkt_len - 14 - ihl - th) / 2 := by
    unfold first_half_len
    dsimp only
    rw [hieq, hth]
  rw [length_read] at hfit
  rw [← read_add] at hf1
  refine ⟨ihl, _, _, c, ⟨by omega, h4, hp, hieq, h20⟩, hf1, hf2,
    halves_read hhdr (by omega) (by omega) (by omega) (by omega), ?_, ?_, ?_, ?_, ?_⟩ <;>
    simp only [length_read] <;> omega

theorem frag_split_and_encrypt_l4_some {o : Openssl} (ho : o.Lawful) {tls : Tls}
    {ctx : PacketCryptoCtx} {counter pkt_id_counter : Nat} {pkt : Buf} {pkt_len : Nat}
    {frag1 frag2 : Buf} {f1 f2 : Buf × Nat} (hns : 4 ≤ tls.nonce_size)
    (h : (frag_split_and_encrypt_l4 o tls ctx counter pkt_id_counter pkt pkt_len frag1
      frag2).frags = some (f1, f2)) :
    ∃ ihl plain1 plain2 c, Splittable pkt pkt_len ihl ∧
      L4Fragment o tls ctx counter pkt ihl plain1 (pkt_id_counter % 65536) 0 f1.1 f1.2 ∧
      L4Fragment o tls ctx c pkt ihl plain2 (pkt_id_counter % 65536) 1 f2.1 f2.2 ∧
      (14 + ihl ≤ pkt_len → Halves pkt (14 + ihl) pkt_len plain1 plain2) ∧
      plain1 = read pkt (14 + ihl) plain1.length ∧
      (get_transport_hdr_size pkt (14 + ihl) (pkt (14 + 9)) plain1.length).isSome = true := by
  unfold frag_split_and_encrypt_l4 at h
  dsimp only at h
  split at h
  · simp at h
  rename_i hhead
  split at h
  · simp at h
  rename_i th hth
  obtain ⟨hp, h8, hrem⟩ := get_transport_hdr_size_some hth
  have h60 := get_transport_hdr_size_le hth
  split at h
  · simp at h
  obtain ⟨-, ⟨r1, hr1, hret1, hpkt1⟩, ⟨c, r2, hr2, hret2, hpkt2⟩⟩ := split_and_encrypt_some h
  rw [hr1] at hret1
  rw [hr2] at hret2
  have hf1 := crypto_layer4_encrypt_fragment_single_some ho hns (by omega) hret1
  have hf2 := crypto_layer4_encrypt_fragment_single_some ho hns (by omega) hret2
  rw [← hr1, hpkt1] at hf1
  rw [← hr2, hpkt2] at hf2
  rw [← read_add] at hf1
  refine ⟨_, _, _, c, ⟨?_, ?_, hp, rfl, ?_⟩, hf1, hf2, ?_, ?_, ?_⟩
  · omega
  · by_contra h4
    exact hhead (Or.inr (Or.inl h4))
  · omega
  · intro hhdr
    rw [u32_sub_of_le hhdr] at hrem
    rw [u32_sub_of_le (by omega)]
    exact halves_read hhdr (by omega) (by omega) (by omega) (by omega)
  · rw [length_read]
  · rw [length_read, get_transport_hdr_size_shorter hth (Nat.le_add_right _ _)]
    rfl

/-- What a layer 2 split makes of a packet, the IPv4 header being part of the first half. -/
theorem frag_split_and_encrypt_l2_some {o : Openssl} (ho : o.Lawful) {fake : Nat} {tls : Tls}
    {ctx : PacketCryptoCtx} {counter pkt_id_counter : Nat} {pkt : Buf} {pkt_len : Nat}
    {frag1 frag2 : Buf} {f1 f2 : Buf × Nat} (hns : 4 ≤ tls.nonce_size)
    (h : (frag_split_and_encrypt_l2 o fake tls ctx counter pkt_id_counter pkt pkt_len frag1
      frag2).frags = some (f1, f2)) :
    ∃ ihl th plain1 plain2 c, frag_require_ipv4 pkt pkt_len = some ihl ∧
      L2Fragment o fake tls ctx counter pkt plain1 (pkt_id_counter % 65536) 0 f1.1 f1.2 ∧
      L2Fragment o fake tls ctx c pkt plain2 (pkt_id_counter % 65536) 1 f2.1 f2.2 ∧
      Halves pkt 14 pkt_len plain1 plain2 ∧
      plain1.length = ihl + th + (pkt_len - 14 - ihl - th) / 2 ∧
      (get_transport_hdr_size pkt (14 + ihl) (pkt (14 + 9)) (pkt_len - 14 - ihl) = some th ∨
        pkt (14 + 9) ≠ 6 ∧ pkt (14 + 9) ≠ 17 ∧ th = 0) := by
  unfold frag_split_and_encrypt_l2 at h
  split at h
  · simp at h
  rename_i ihl hihl
  obtain ⟨-, hieq, h20, -⟩ := frag_require_ipv4_some hihl
  dsimp only at h
  -- the two branches differ in the length of the transport header
  have hsplit : ∀ th, th ≤ 60 → (if pkt_len - 14 - ihl - th = 0 then
      ({ frags := none, counter, pkt_id_counter } : SplitResult)
      else split_and_encrypt (fun counter enc_plain pkt_id frag_index out_buf =>
          crypto_layer2_encrypt_fragment_single o fake tls ctx counter (read pkt 0 14) enc_plain
            pkt_id frag_index out_buf FRAG_OUT_SIZE)
        counter pkt_id_counter pkt (read pkt 14 (ihl + th)) (14 + ihl + th)
        (pkt_len - 14 - ihl - th) frag1 frag2).frags = some (f1, f2) →
      ∃ plain1 plain2 c,
        L2Fragment o fake tls ctx counter pkt plain1 (pkt_id_counter % 65536) 0 f1.1 f1.2 ∧
        L2Fragment o fake tls ctx c pkt plain2 (pkt_id_counter % 65536) 1 f2.1 f2.2 ∧
        Halves pkt 14 pkt_len plain1 plain2 ∧
        plain1.length = ihl + th + (pkt_len - 14 - ihl - th) / 2 := by
    intro th h60 h
    split at h
    · simp at h
    obtain ⟨-, ⟨r1, hr1, hret1, hpkt1⟩, ⟨c, r2, hr2, hret2, hpkt2⟩⟩ := split_and_encrypt_some h
    rw [hr1] at hret1
    rw [hr2] at hret2
    have hf1 := crypto_layer2_encrypt_fragment_single_some ho hns hret1
    have hf2 := crypto_layer2_encrypt_fragment_single_some ho hns hret2
    rw [← hr1, hpkt1, Nat.add_assoc, ← read_add] at hf1
    rw [← hr2, hpkt2] at hf2
    exact ⟨_, _, c, hf1, hf2, halves_read (by omega) (by omega) (by omega) (by omega) (by omega),
      by rw [length_read]⟩
  split at h
  · split at h
    · simp at h
    rename_i th hth
    obtain ⟨plain1, plain2, c, hf1, hf2, hhalves, hlen⟩ := hsplit th (get_transport_hdr_size_le hth) h
    exact ⟨ihl, th, plain1, plain2, c, hihl, hf1, hf2, hhalves, hlen, Or.inl hth⟩
  · rename_i hproto
    obtain ⟨plain1, plain2, c, hf1, hf2, hhalves, hlen⟩ := hsplit 0 (by omega) h
    rw [not_or] at hproto
    exact ⟨ihl, 0, plain1, plain2, c, hihl, hf1, hf2, hhalves, hlen,
      Or.inr ⟨hproto.1, hproto.2, rfl⟩⟩

/-! ## What the tables do with two halves -/

/-- A pending first half under this id that is not too old at the time `now`. -/
structure Pending (ft : FragTable) (pkt_id data_len stored_ns : Nat) : Prop where
  valid : (ft (pkt_id % FRAG_TABLE_SIZE)).valid = true
  id : (ft (pkt_id % FRAG_TABLE_SIZE)).pkt_id = pkt_id
  len : (ft (pkt_id % FRAG_TABLE_SIZE)).data_len = data_len
  stored : (ft (pkt_id % FRAG_TABLE_SIZE)).timestamp_ns = stored_ns

/-- The gc leaves what is not too old. -/
theorem Pending.gc {ft : FragTable} {pkt_id data_len stored_ns : Nat}
    (h : Pending ft pkt_id data_len stored_ns) {now : Nat} (hstored : stored_ns ≤ now)
    (hnow : now ≤ stored_ns + FRAG_TIMEOUT_NS) :
    Pending (frag_table_gc now ft) pkt_id data_len stored_ns := by
  have hkeep : frag_table_gc now ft (pkt_id % FRAG_TABLE_SIZE) = ft (pkt_id % FRAG_TABLE_SIZE) := by
    unfold frag_table_gc size_sub
    rw [h.stored, if_pos hstored, decide_eq_false (by omega), Bool.and_false,
      if_neg Bool.false_ne_true]
  exact ⟨hkeep ▸ h.valid, hkeep ▸ h.id, hkeep ▸ h.len, hkeep ▸ h.stored⟩

/-- A first half with eight bytes passes for UDP, if not for TCP; it waits when it fits into
an entry. -/
theorem frag_try_reassemble_first (now : Nat) (ft : FragTable) {pkt : Buf} {pkt_len ihl : Nat}
    (pkt_id : Nat) (out_buf : Buf) (hihl : frag_require_ipv4 pkt pkt_len = some ihl)
    (h8 : 8 ≤ pkt_len - 14 - ihl) :
    (pkt_len - 14 - ihl ≤ ENTRY_DATA_SIZE →
      ∃ ft', frag_try_reassemble now ft pkt pkt_len pkt_id 0 out_buf = (.pending, ft') ∧
        Pending ft' pkt_id (pkt_len - 14 - ihl) now) ∧
    (ENTRY_DATA_SIZE < pkt_len - 14 - ihl →
      frag_try_reassemble now ft pkt pkt_len pkt_id 0 out_buf = (.failed, ft)) := by
  have hudp : (get_transport_hdr_size pkt (14 + ihl) 17 (pkt_len - 14 - ihl)).isSome = true := by
    unfold get_transport_hdr_size
    rw [if_neg (by decide), if_pos rfl, if_neg (by omega)]
    rfl
  unfold frag_try_reassemble
  rw [hihl]
  dsimp only
  rw [if_pos rfl, hudp, if_pos rfl]
  constructor
  · intro hfit
    simp only [frag_store_pending, dif_pos hfit]
    split <;> exact ⟨_, rfl, ⟨by rw [set_entry_self], by rw [set_entry_self],
      by rw [set_entry_self], by rw [set_entry_self]⟩⟩
  · intro hfit
    simp only [frag_store_pending, dif_neg (Nat.not_le.mpr hfit), ite_self]

/-- A second half meets its pending first half and the packet is put together. -/
theorem frag_try_reassemble_second {now : Nat} {ft : FragTable} {pkt : Buf} {pkt_len ihl : Nat}
    {pkt_id data_len stored_ns : Nat} (out_buf : Buf)
    (hihl : frag_require_ipv4 pkt pkt_len = some ihl) (h : Pending ft pkt_id data_len stored_ns)
    (hstored : stored_ns ≤ now) (hnow : now ≤ stored_ns + FRAG_TIMEOUT_NS)
    (hfit : data_len + (pkt_len - 14 - ihl) ≤ REASSEMBLED_SIZE) :
    ∃ out n ft', frag_try_reassemble now ft pkt pkt_len pkt_id 1 out_buf = (.packet out n, ft') := by
  have htake : take_pending ft (pkt_id % FRAG_TABLE_SIZE) pkt_id now =
      (some (ft (pkt_id % FRAG_TABLE_SIZE)), ft) := by
    unfold take_pending size_sub
    dsimp only
    rw [h.valid, h.id, h.stored, if_neg (by simp), if_pos hstored, if_neg (by omega)]
  unfold frag_try_reassemble
  rw [hihl]
  dsimp only
  rw [if_neg (by decide), if_pos rfl, htake]
  dsimp only
  have hlen := h.len
  rw [if_neg (by omega)]
  exact ⟨_, _, _, rfl⟩

end ne_ip.fragment
