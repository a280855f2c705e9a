-- What the receive path touches of a frame before and around a decryption
-- (fragment.c, crypto_dispatch.c): the tests for a fragment, the parse of the
-- policy id and the tries. Without the log each function is that of its module.
import NeIp.CryptoDispatch
import NeIp.FrameAccess
import NeIp.Fragment

open byte_buf access_log ne_ip.packet_crypto ne_ip.config ne_ip.crypto_dispatch

namespace ne_ip.dispatch_access

open crypto_layer2 (L2_FRAG_MAGIC)
open crypto_layer3 (CRYPTO_L3_FRAG_MAGIC)
open crypto_layer4 (L4_WIRE_PORT_LEN CRYPTO_L4_TUNNEL_MAGIC CRYPTO_L4_FRAG_MAGIC)
open tunnel (FRAG_TAG_SIZE)
open frame_access (byte word byte_val word_val read_frag_tag read_frag_tag_val l2_has_fake_marker
  l2_has_fake_marker_val crypto_eth_ipv4_offset crypto_eth_ipv4_offset_val)

/-! ## Fragments -/

def frag_require_ipv4 (pkt : Buf) (pkt_len : Nat) : Logged (Option Nat) :=
  if pkt_len < 14 + 20 then pure none
  else do
    let ethertype ← word pkt 12
    if ethertype ≠ 0x0800 then pure none
    else do
      let version_ihl ← byte pkt 14
      let ihl := version_ihl.toNat % 16 * 4
      pure (if ihl < 20 ∨ pkt_len < 14 + ihl then none else some ihl)

/-- The test of one policy that layers 3 and 4 make, for packets and for fragments: the type
byte behind the nonce, then the policy id. -/
def tunnel_of_policy (action : PolicyAction) (magic : UInt8) (pkt : Buf)
    (pkt_len tunnel_off : Nat) (cp : CryptoPolicy) : Logged Bool :=
  if cp.action ≠ action ∨ cp.nonce_size = 0 then pure false
  else if pkt_len ≤ tunnel_off + cp.nonce_size + 1 then pure false
  else do
    let type ← byte pkt (tunnel_off + cp.nonce_size + 1)
    if type ≠ magic then pure false
    else do
      let policy_id ← byte pkt (tunnel_off + cp.nonce_size)
      pure (policy_id == cp.wire_id)

/-- The tag of the first policy that fits. -/
def fragment_of (cfg : AppConfig) (fits : CryptoPolicy → Logged Bool) (pkt : Buf)
    (tag_off : CryptoPolicy → Nat) : Logged (Option (Nat × UInt8)) := do
  match ← cfg.policies.findM? fits with
  | none => pure none
  | some cp => do
    let tag ← read_frag_tag pkt (tag_off cp)
    pure (if tag.2 ≤ 1 then some tag else none)

def frag_is_fragment (tls : Tls) (cfg : AppConfig) (pkt : Buf) (pkt_len : Nat) :
    Logged (Option (Nat × UInt8)) := do
  match ← frag_require_ipv4 pkt pkt_len with
  | none => pure none
  | some ip_hdr_len => do
    let tunnel_off := 14 + ip_hdr_len
    let tag_off := tunnel_off + packet_crypto_get_tunnel_hdr_size tls
    let proto ← byte pkt (14 + 9)
    if proto ≠ tls.fake_protocol then pure none
    else if pkt_len < tag_off + FRAG_TAG_SIZE then pure none
    else
      fragment_of cfg (tunnel_of_policy .encrypt_l3 CRYPTO_L3_FRAG_MAGIC pkt pkt_len tunnel_off)
        pkt fun _ => tag_off

def frag_is_fragment_l4 (tls : Tls) (cfg : AppConfig) (pkt : Buf) (pkt_len : Nat) :
    Logged (Option (Nat × UInt8)) :=
  if pkt_len < 14 + 20 + 8 then pure none
  else do
    let ether_type ← word pkt 12
    if ether_type ≠ 0x0800 then pure none
    else do
      let ip_proto ← byte pkt (14 + 9)
      if ip_proto ≠ 6 ∧ ip_proto ≠ 17 then pure none
      else do
        let version_ihl ← byte pkt 14
        let ip_hdr_len := version_ihl.toNat % 16 * 4
        let tunnel_off := 14 + ip_hdr_len + L4_WIRE_PORT_LEN
        let tag_off := tunnel_off + packet_crypto_get_tunnel_hdr_size tls
        if ip_hdr_len < 20 then pure none
        else if pkt_len < tag_off + FRAG_TAG_SIZE then pure none
        else
          fragment_of cfg (tunnel_of_policy .encrypt_l4 CRYPTO_L4_FRAG_MAGIC pkt pkt_len tunnel_off)
            pkt fun _ => tag_off

/-- The test of one policy that layer 2 makes. -/
def l2_fragment_of_policy (pkt : Buf) (pkt_len : Nat) (cp : CryptoPolicy) : Logged Bool :=
  if cp.action ≠ .encrypt_l2 ∨ cp.nonce_size = 0 then pure false
  else if pkt_len < 14 + cp.nonce_size + 1 + FRAG_TAG_SIZE then pure false
  else do
    let magic ← byte pkt (14 + cp.nonce_size)
    pure (magic == L2_FRAG_MAGIC)

def frag_is_fragment_l2 (fake : Nat) (cfg : AppConfig) (pkt : Buf) (pkt_len : Nat) :
    Logged (Option (Nat × UInt8)) :=
  if pkt_len < 14 + 4 + 1 + FRAG_TAG_SIZE then pure none
  else do
    match ← l2_has_fake_marker fake pkt with
    | false => pure none
    | true =>
      fragment_of cfg (l2_fragment_of_policy pkt pkt_len) pkt fun cp => 14 + cp.nonce_size + 1

@[simp] theorem frag_require_ipv4_val (pkt : Buf) (pkt_len : Nat) :
    (frag_require_ipv4 pkt pkt_len).val = fragment.frag_require_ipv4 pkt pkt_len := by
  unfold frag_require_ipv4 fragment.frag_require_ipv4
  simp only [val_ite, val_bind, val_pure, byte_val, word_val]
  by_cases h1 : pkt_len < 14 + 20
  · rw [if_pos h1, if_pos (Or.inl h1)]
  by_cases h2 : be16 pkt 12 ≠ 0x0800
  · rw [if_neg h1, if_pos h2, if_pos (Or.inr (Or.inl h2))]
  · simp only [h1, h2, if_false, false_or]

theorem tunnel_of_policy_val (action : PolicyAction) (magic : UInt8) (pkt : Buf)
    (pkt_len tunnel_off : Nat) (cp : CryptoPolicy) :
    (tunnel_of_policy action magic pkt pkt_len tunnel_off cp).val =
      (cp.action == action && cp.nonce_size != 0 &&
        decide (tunnel_off + cp.nonce_size + 1 < pkt_len) &&
        pkt (tunnel_off + cp.nonce_size + 1) == magic &&
        pkt (tunnel_off + cp.nonce_size) == cp.wire_id) := by
  unfold tunnel_of_policy
  simp only [val_ite, val_bind, val_pure, byte_val]
  split
  · rename_i h
    rcases h with h | h
    · simp [h]
    · simp [h]
  rename_i hact
  simp only [ne_eq, not_or, Decidable.not_not] at hact
  split
  · rename_i hlen
    rw [decide_eq_false (by omega)]
    simp
  rename_i hlen
  rw [decide_eq_true (by omega)]
  split
  · rename_i htype
    simp [htype]
  · rename_i htype
    simp only [ne_eq, Decidable.not_not] at htype
    simp [hact, htype]

theorem l2_fragment_of_policy_val (pkt : Buf) (pkt_len : Nat) (cp : CryptoPolicy) :
    (l2_fragment_of_policy pkt pkt_len cp).val =
      (cp.action == .encrypt_l2 && cp.nonce_size != 0 &&
        decide (14 + cp.nonce_size + 1 + FRAG_TAG_SIZE ≤ pkt_len) &&
        pkt (14 + cp.nonce_size) == L2_FRAG_MAGIC) := by
  unfold l2_fragment_of_policy
  simp only [val_ite, val_bind, val_pure, byte_val]
  split
  · rename_i h
    rcases h with h | h
    · simp [h]
    · simp [h]
  rename_i hact
  simp only [ne_eq, not_or, Decidable.not_not] at hact
  split
  · rename_i hlen
    rw [decide_eq_false (by omega)]
    simp
  · rename_i hlen
    rw [decide_eq_true (by omega)]
    simp [hact]

theorem fragment_of_val (cfg : AppConfig) (fits : CryptoPolicy → Logged Bool) (pkt : Buf)
    (tag_off : CryptoPolicy → Nat) : (fragment_of cfg fits pkt tag_off).val =
      fragment.fragment_of cfg (fun cp => (fits cp).val) pkt tag_off := by
  unfold fragment_of fragment.fragment_of
  rw [val_bind, val_findM?]
  cases cfg.policies.find? fun cp => (fits cp).val with
  | none => rfl
  | some cp => rfl

theorem frag_is_fragment_val (tls : Tls) (cfg : AppConfig) (pkt : Buf) (pkt_len : Nat) :
    (frag_is_fragment tls cfg pkt pkt_len).val = fragment.frag_is_fragment tls cfg pkt pkt_len := by
  unfold frag_is_fragment fragment.frag_is_fragment
  rw [val_bind, frag_require_ipv4_val]
  cases fragment.frag_require_ipv4 pkt pkt_len with
  | none => rfl
  | some ip_hdr_len =>
    simp only [val_ite, val_bind, val_pure, byte_val, fragment_of_val, tunnel_of_policy_val]
    by_cases h1 : pkt (14 + 9) ≠ tls.fake_protocol
    · rw [if_pos h1, if_pos (Or.inl h1)]
    · simp only [h1, if_false, false_or]

theorem frag_is_fragment_l4_val (tls : Tls) (cfg : AppConfig) (pkt : Buf) (pkt_len : Nat) :
    (frag_is_fragment_l4 tls cfg pkt pkt_len).val =
      fragment.frag_is_fragment_l4 tls cfg pkt pkt_len := by
  unfold frag_is_fragment_l4 fragment.frag_is_fragment_l4
  simp only [val_ite, val_bind, val_pure, byte_val, word_val, fragment_of_val, tunnel_of_policy_val]
  by_cases h1 : pkt_len < 14 + 20 + 8
  · rw [if_pos h1, if_pos (Or.inl h1)]
  by_cases h2 : be16 pkt 12 ≠ 0x0800
  · rw [if_neg h1, if_pos h2, if_pos (Or.inr (Or.inl h2))]
  by_cases h3 : pkt (14 + 9) ≠ 6 ∧ pkt (14 + 9) ≠ 17
  · rw [if_neg h1, if_neg h2, if_pos h3, if_pos (Or.inr (Or.inr (Or.inl h3)))]
  by_cases h4 : (pkt 14).toNat % 16 * 4 < 20
  · rw [if_neg h1, if_neg h2, if_neg h3, if_pos h4, if_pos (Or.inr (Or.inr (Or.inr (Or.inl h4))))]
  · simp only [h1, h2, h3, h4, if_false, false_or]

theorem frag_is_fragment_l2_val (fake : Nat) (cfg : AppConfig) (pkt : Buf) (pkt_len : Nat) :
    (frag_is_fragment_l2 fake cfg pkt pkt_len).val =
      fragment.frag_is_fragment_l2 fake cfg pkt pkt_len := by
  unfold frag_is_fragment_l2 fragment.frag_is_fragment_l2
  split
  · rename_i h
    rw [if_pos (Or.inl h)]
    rfl
  rename_i h
  rw [val_bind, l2_has_fake_marker_val]
  cases crypto_layer2.l2_has_fake_marker fake pkt with
  | false => simp
  | true =>
    rw [if_neg (by simpa using h)]
    dsimp only
    rw [fragment_of_val]
    simp only [l2_fragment_of_policy_val]

/-! ## The policy id on the wire -/

def crypto_l3_extract_policy_id (magic : UInt8) (tls : Tls) (cfg : AppConfig) (pkt : Buf)
    (pkt_len : Nat) : Logged (Option UInt8) :=
  if pkt_len < 14 + 20 then pure none
  else do
    let ethertype ← word pkt 12
    if ethertype ≠ 0x0800 then pure none
    else do
      let version_ihl ← byte pkt 14
      let ip_hdr_len := version_ihl.toNat % 16 * 4
      let tunnel_off := 14 + ip_hdr_len
      if ip_hdr_len < 20 ∨ pkt_len < 14 + ip_hdr_len + 1 then pure none
      else do
        let proto ← byte pkt (14 + 9)
        if proto ≠ (if tls.fake_protocol = 0 then 99 else tls.fake_protocol) then pure none
        else if pkt_len < tunnel_off + packet_crypto_get_tunnel_hdr_size tls then pure none
        else do
          let cp ← cfg.policies.findM? (tunnel_of_policy .encrypt_l3 magic pkt pkt_len tunnel_off)
          pure (cp.map (·.wire_id))

def crypto_l4_extract_policy_id_ipv4 (cfg : AppConfig) (pkt : Buf) (pkt_len : Nat) :
    Logged (Option (UInt8 × Nat)) := do
  match ← crypto_eth_ipv4_offset pkt pkt_len with
  | none => pure none
  | some l3_off =>
    if pkt_len < l3_off + 20 then pure none
    else do
      let version_ihl ← byte pkt l3_off
      let ip_hdr_len := version_ihl.toNat % 16 * 4
      let tunnel_off := l3_off + ip_hdr_len + L4_WIRE_PORT_LEN
      if ip_hdr_len < 20 then pure none
      else if pkt_len < l3_off + ip_hdr_len + 8 then pure none
      else do
        let proto ← byte pkt (l3_off + 9)
        if proto ≠ 6 ∧ proto ≠ 17 then pure none
        else if pkt_len ≤ tunnel_off then pure none
        else do
          let cp ← cfg.policies.findM?
            (tunnel_of_policy .encrypt_l4 CRYPTO_L4_TUNNEL_MAGIC pkt pkt_len tunnel_off)
          pure (cp.map fun cp => (cp.wire_id, cp.nonce_size))

theorem crypto_l3_extract_policy_id_val (magic : UInt8) (tls : Tls) (cfg : AppConfig) (pkt : Buf)
    (pkt_len : Nat) : (crypto_l3_extract_policy_id magic tls cfg pkt pkt_len).val =
      crypto_dispatch.crypto_l3_extract_policy_id magic tls cfg pkt pkt_len := by
  unfold crypto_l3_extract_policy_id crypto_dispatch.crypto_l3_extract_policy_id
    crypto_layer4.ip_hdr_len_at
  simp only [val_ite, val_bind, val_pure, byte_val, word_val, val_findM?, tunnel_of_policy_val]
  by_cases h1 : pkt_len < 14 + 20
  · rw [if_pos h1, if_pos (Or.inl h1)]
  by_cases h2 : be16 pkt 12 ≠ 0x0800
  · rw [if_neg h1, if_pos h2, if_pos (Or.inr (Or.inl h2))]
  by_cases h3 : (pkt 14).toNat % 16 * 4 < 20 ∨ pkt_len < 14 + (pkt 14).toNat % 16 * 4 + 1
  · rw [if_neg h1, if_neg h2, if_pos h3, if_pos]
    rcases h3 with h3 | h3
    · exact Or.inr (Or.inr (Or.inl h3))
    · exact Or.inr (Or.inr (Or.inr (Or.inl h3)))
  · have h3' := not_or.mp h3
    simp only [h1, h2, h3'.1, h3'.2, if_false, false_or]
    by_cases h4 : pkt (14 + 9) ≠ if tls.fake_protocol = 0 then 99 else tls.fake_protocol
    · rw [if_pos h4, if_pos (Or.inl h4)]
    · simp only [h4, if_false, false_or]

theorem crypto_l4_extract_policy_id_ipv4_val (cfg : AppConfig) (pkt : Buf) (pkt_len : Nat) :
    (crypto_l4_extract_policy_id_ipv4 cfg pkt pkt_len).val =
      crypto_dispatch.crypto_l4_extract_policy_id_ipv4 cfg pkt pkt_len := by
  unfold crypto_l4_extract_policy_id_ipv4 crypto_dispatch.crypto_l4_extract_policy_id_ipv4
    crypto_layer4.ip_hdr_len_at
  rw [val_bind, crypto_eth_ipv4_offset_val]
  cases crypto_layer4.crypto_eth_ipv4_offset pkt pkt_len with
  | none => rfl
  | some l3_off =>
    simp only [val_ite, val_bind, val_pure, byte_val, val_findM?, tunnel_of_policy_val]
    by_cases h1 : pkt_len < l3_off + 20
    · rw [if_pos h1, if_pos (Or.inl h1)]
    by_cases h2 : (pkt l3_off).toNat % 16 * 4 < 20
    · rw [if_neg h1, if_pos h2, if_pos (Or.inr (Or.inl h2))]
    by_cases h3 : pkt_len < l3_off + (pkt l3_off).toNat % 16 * 4 + 8
    · rw [if_neg h1, if_neg h2, if_pos h3, if_pos (Or.inr (Or.inr (Or.inl h3)))]
    by_cases h4 : pkt (l3_off + 9) ≠ 6 ∧ pkt (l3_off + 9) ≠ 17
    · rw [if_neg h1, if_neg h2, if_neg h3, if_pos h4, if_pos (Or.inr (Or.inr (Or.inr (Or.inl h4))))]
    · simp only [h1, h2, h3, h4, if_false, false_or]

/-! ## The tries -/

/-- A decrypt function with its log. -/
abbrev Decrypt := Tls → PacketCryptoCtx → Buf → Nat → Logged (Option Nat × Buf)

/-- The decrypt function without the log. -/
def result (decrypt : Decrypt) : crypto_dispatch.Decrypt :=
  fun tls ctx pkt pkt_len => (decrypt tls ctx pkt pkt_len).val

def try_policy (decrypt : Decrypt) (cp : CryptoPolicy) (ctx : PacketCryptoCtx) (tls : Tls)
    (pkt : Buf) (pkt_len : Nat) : Logged DispatchResult := do
  let tls := crypto_apply_from_policy cp tls
  match ← decrypt tls ctx pkt pkt_len with
  | (none, pkt) => pure { ok := false, pkt, pkt_len, tls }
  | (some new_len, pkt) =>
    pure (if new_len < pkt_len then { ok := true, pkt, pkt_len := new_len, tls }
      else { ok := false, pkt, pkt_len, tls })

def try_tables (decrypt : Decrypt) (t : PolicyTables) (action_layer : PolicyAction)
    (policy_id : UInt8) (accepts : CryptoPolicy → Bool) (tls : Tls) (pkt : Buf)
    (pkt_len : Nat) : Logged DispatchResult :=
  match lookup_policy_index t action_layer policy_id with
  | none => pure { ok := false, pkt, pkt_len, tls }
  | some pi =>
    match t.policies[pi]? with
    | none => pure { ok := false, pkt, pkt_len, tls }
    | some cp =>
      if t.ready pi && accepts cp then try_policy decrypt cp (t.ctx pi) tls pkt pkt_len
      else pure { ok := false, pkt, pkt_len, tls }

def try_current_then_prev (decrypt : Decrypt) (dctx : CryptoDispatchCtx)
    (action_layer : PolicyAction) (policy_id : UInt8) (accepts : CryptoPolicy → Bool) (tls : Tls)
    (pkt : Buf) (pkt_len : Nat) : Logged DispatchResult := do
  let r ← try_tables decrypt dctx.active action_layer policy_id accepts tls pkt pkt_len
  if r.ok then pure r
  else if dctx.prev_grace_active && !dctx.prev.policies.isEmpty then
    try_tables decrypt dctx.prev action_layer policy_id accepts r.tls r.pkt r.pkt_len
  else pure r

/-- `packet_decrypt`. -/
def packet_decrypt (o : Openssl) (fake : Nat) (encrypt_layer : Nat) : Decrypt :=
  fun tls ctx pkt pkt_len =>
    if encrypt_layer = 2 then frame_access.crypto_layer2_decrypt o fake tls ctx pkt pkt_len
    else if encrypt_layer = 3 then frame_access.crypto_layer3_decrypt o tls ctx pkt pkt_len
    else if encrypt_layer = 4 then frame_access.crypto_layer4_decrypt o tls ctx pkt pkt_len
    else pure (none, pkt)

/-- The packet is copied to the scratch buffer before each try and back after a failure. -/
def try_all_l2 (o : Openssl) (fake : Nat) (t : PolicyTables) (scratch_sz : Nat) (pkt : Buf)
    (pkt_len : Nat) : List (CryptoPolicy × Nat) → Tls → Logged DispatchResult
  | [], tls => pure { ok := false, pkt, pkt_len, tls }
  | (cp, pi) :: rest, tls =>
    if cp.action ≠ .encrypt_l2 ∨ !t.ready pi then
      try_all_l2 o fake t scratch_sz pkt pkt_len rest tls
    else if scratch_sz < pkt_len then pure { ok := false, pkt, pkt_len, tls }
    else do
      copy_from 0 pkt_len
      let r ← try_policy (frame_access.crypto_layer2_decrypt o fake) cp (t.ctx pi) tls pkt pkt_len
      if r.ok then pure r
      else do
        copy pkt_len
        try_all_l2 o fake t scratch_sz pkt pkt_len rest r.tls

/-- The L4 branch. It looks at the IPv4 header before the parse does, and does not ask first
whether the frame has one. -/
def decrypt_l4 (o : Openssl) (cfg : AppConfig) (dctx : CryptoDispatchCtx) (tls : Tls) (pkt : Buf)
    (pkt_len : Nat) : Logged DispatchResult := do
  match ← crypto_eth_ipv4_offset pkt pkt_len with
  | none => pure { ok := true, pkt, pkt_len, tls }
  | some l3_off => do
    let version_ihl ← byte pkt l3_off
    let ip_hdr_len := version_ihl.toNat % 16 * 4
    if ip_hdr_len < 20 then pure { ok := true, pkt, pkt_len, tls }
    else if pkt_len < l3_off + ip_hdr_len + 8 then pure { ok := true, pkt, pkt_len, tls }
    else do
      let ip_proto ← byte pkt (l3_off + 9)
      if ip_proto ≠ 6 ∧ ip_proto ≠ 17 then pure { ok := true, pkt, pkt_len, tls }
      else if pkt_len < l3_off + ip_hdr_len + 4 then pure { ok := true, pkt, pkt_len, tls }
      else do
        match ← crypto_l4_extract_policy_id_ipv4 cfg pkt pkt_len with
        | none => pure { ok := true, pkt, pkt_len, tls }
        | some (policy_id, nonce_size) =>
          try_current_then_prev (frame_access.crypto_layer4_decrypt o) dctx .encrypt_l4 policy_id
            (fun cp => cp.nonce_size != 0 && cp.nonce_size == nonce_size) tls pkt pkt_len

def crypto_decrypt_packet_auto_by_action (o : Openssl) (magic : UInt8) (fake : Nat)
    (crypto_enabled : Bool) (cfg : AppConfig) (dctx : CryptoDispatchCtx)
    (action_layer : PolicyAction) (tls : Tls) (pkt : Buf) (pkt_len scratch_sz : Nat) :
    Logged DispatchResult :=
  if !crypto_enabled then pure { ok := false, pkt, pkt_len, tls }
  else if cfg.policies = [] then do
    let tls := crypto_apply_default_from_cfg cfg tls
    match ← packet_decrypt o fake cfg.encrypt_layer tls dctx.base_ctx pkt pkt_len with
    | (none, pkt) => pure { ok := false, pkt, pkt_len, tls }
    | (some new_len, pkt) => pure { ok := true, pkt, pkt_len := new_len, tls }
  else
    match action_layer with
    | .encrypt_l3 => do
      match ← crypto_l3_extract_policy_id magic tls cfg pkt pkt_len with
      | none => pure { ok := true, pkt, pkt_len, tls }
      | some policy_id =>
        try_current_then_prev (frame_access.crypto_layer3_decrypt o) dctx .encrypt_l3 policy_id
          (fun _ => true) tls pkt pkt_len
    | .encrypt_l4 => decrypt_l4 o cfg dctx tls pkt pkt_len
    | .encrypt_l2 =>
      try_all_l2 o fake dctx.active scratch_sz pkt pkt_len cfg.policies.zipIdx tls
    | .bypass => pure { ok := false, pkt, pkt_len, tls }

theorem result_crypto_layer2_decrypt (o : Openssl) (fake : Nat) :
    result (frame_access.crypto_layer2_decrypt o fake) =
      crypto_layer2.crypto_layer2_decrypt o fake := by
  funext tls ctx pkt pkt_len
  exact frame_access.crypto_layer2_decrypt_val o fake tls ctx pkt pkt_len

theorem result_crypto_layer3_decrypt (o : Openssl) :
    result (frame_access.crypto_layer3_decrypt o) = crypto_layer3.crypto_layer3_decrypt o := by
  funext tls ctx pkt pkt_len
  exact frame_access.crypto_layer3_decrypt_val o tls ctx pkt pkt_len

theorem result_crypto_layer4_decrypt (o : Openssl) :
    result (frame_access.crypto_layer4_decrypt o) = crypto_layer4.crypto_layer4_decrypt o := by
  funext tls ctx pkt pkt_len
  exact frame_access.crypto_layer4_decrypt_val o tls ctx pkt pkt_len

theorem try_policy_val (decrypt : Decrypt) (cp : CryptoPolicy) (ctx : PacketCryptoCtx) (tls : Tls)
    (pkt : Buf) (pkt_len : Nat) : (try_policy decrypt cp ctx tls pkt pkt_len).val =
      crypto_dispatch.try_policy (result decrypt) cp ctx tls pkt pkt_len := by
  unfold try_policy crypto_dispatch.try_policy result
  dsimp only
  rw [val_bind]
  rcases (decrypt (crypto_apply_from_policy cp tls) ctx pkt pkt_len).val with ⟨_ | new_len, pkt'⟩
  · rfl
  · rfl

theorem try_tables_val (decrypt : Decrypt) (t : PolicyTables) (action_layer : PolicyAction)
    (policy_id : UInt8) (accepts : CryptoPolicy → Bool) (tls : Tls) (pkt : Buf) (pkt_len : Nat) :
    (try_tables decrypt t action_layer policy_id accepts tls pkt pkt_len).val =
      crypto_dispatch.try_tables (result decrypt) t action_layer policy_id accepts tls pkt
        pkt_len := by
  unfold try_tables crypto_dispatch.try_tables
  cases lookup_policy_index t action_layer policy_id with
  | none => rfl
  | some pi =>
    dsimp only
    cases t.policies[pi]? with
    | none => rfl
    | some cp =>
      dsimp only
      rw [val_ite, try_policy_val]
      rfl

theorem try_current_then_prev_val (decrypt : Decrypt) (dctx : CryptoDispatchCtx)
    (action_layer : PolicyAction) (policy_id : UInt8) (accepts : CryptoPolicy → Bool) (tls : Tls)
    (pkt : Buf) (pkt_len : Nat) :
    (try_current_then_prev decrypt dctx action_layer policy_id accepts tls pkt pkt_len).val =
      crypto_dispatch.try_current_then_prev (result decrypt) dctx action_layer policy_id accepts tls
        pkt pkt_len := by
  unfold try_current_then_prev crypto_dispatch.try_current_then_prev
  simp only [val_bind, val_ite, try_tables_val]
  rfl

theorem try_all_l2_val (o : Openssl) (fake : Nat) (t : PolicyTables) (scratch_sz : Nat)
    (pkt : Buf) (pkt_len : Nat) (l : List (CryptoPolicy × Nat)) (tls : Tls) :
    (try_all_l2 o fake t scratch_sz pkt pkt_len l tls).val =
      crypto_dispatch.try_all_l2 o fake t scratch_sz pkt pkt_len l tls := by
  induction l generalizing tls with
  | nil => rfl
  | cons c rest ih =>
    obtain ⟨cp, pi⟩ := c
    unfold try_all_l2 crypto_dispatch.try_all_l2
    simp only [val_bind, val_ite, try_policy_val, result_crypto_layer2_decrypt, ih]
    rfl

/-- What the L4 branch checks before the parse, the parse checks too. -/
theorem extract_none_of_check {cfg : AppConfig} {pkt : Buf} {pkt_len l3_off : Nat}
    (hoff : crypto_layer4.crypto_eth_ipv4_offset pkt pkt_len = some l3_off)
    (h : crypto_layer4.ip_hdr_len_at pkt l3_off < 20 ∨
      pkt_len < l3_off + crypto_layer4.ip_hdr_len_at pkt l3_off + 8 ∨
      (pkt (l3_off + 9) ≠ 6 ∧ pkt (l3_off + 9) ≠ 17)) :
    crypto_dispatch.crypto_l4_extract_policy_id_ipv4 cfg pkt pkt_len = none := by
  unfold crypto_dispatch.crypto_l4_extract_policy_id_ipv4
  rw [hoff]
  dsimp only
  rw [if_pos]
  rcases h with h | h | h
  · exact Or.inr (Or.inl h)
  · exact Or.inr (Or.inr (Or.inl h))
  · exact Or.inr (Or.inr (Or.inr (Or.inl h)))

theorem decrypt_l4_val (o : Openssl) (cfg : AppConfig) (dctx : CryptoDispatchCtx) (tls : Tls)
    (pkt : Buf) (pkt_len : Nat) : (decrypt_l4 o cfg dctx tls pkt pkt_len).val =
      match crypto_dispatch.crypto_l4_extract_policy_id_ipv4 cfg pkt pkt_len with
      | none => { ok := true, pkt, pkt_len, tls }
      | some (policy_id, nonce_size) =>
        crypto_dispatch.try_current_then_prev (crypto_layer4.crypto_layer4_decrypt o) dctx
          .encrypt_l4 policy_id (fun cp => cp.nonce_size != 0 && cp.nonce_size == nonce_size) tls
          pkt pkt_len := by
  unfold decrypt_l4
  rw [val_bind, crypto_eth_ipv4_offset_val]
  cases hoff : crypto_layer4.crypto_eth_ipv4_offset pkt pkt_len with
  | none =>
    unfold crypto_dispatch.crypto_l4_extract_policy_id_ipv4
    rw [hoff]
    rfl
  | some l3_off =>
    simp only [val_ite, val_bind, val_pure, byte_val, crypto_l4_extract_policy_id_ipv4_val]
    split
    · rename_i h
      rw [extract_none_of_check hoff (Or.inl h)]
    split
    · rename_i h
      rw [extract_none_of_check hoff (Or.inr (Or.inl h))]
    split
    · rename_i h
      rw [extract_none_of_check hoff (Or.inr (Or.inr h))]
    rename_i hlen _
    rw [if_neg (by omega)]
    cases crypto_dispatch.crypto_l4_extract_policy_id_ipv4 cfg pkt pkt_len with
    | none => rfl
    | some id =>
      dsimp only
      rw [try_current_then_prev_val, result_crypto_layer4_decrypt]

theorem packet_decrypt_val (o : Openssl) (fake encrypt_layer : Nat) :
    result (packet_decrypt o fake encrypt_layer) =
      crypto_dispatch.packet_decrypt o fake encrypt_layer := by
  funext tls ctx pkt pkt_len
  unfold result packet_decrypt crypto_dispatch.packet_decrypt
  simp only [val_ite, frame_access.crypto_layer2_decrypt_val,
    frame_access.crypto_layer3_decrypt_val, frame_access.crypto_layer4_decrypt_val]
  rfl

theorem crypto_decrypt_packet_auto_by_action_val (o : Openssl) (magic : UInt8) (fake : Nat)
    (crypto_enabled : Bool) (cfg : AppConfig) (dctx : CryptoDispatchCtx)
    (action_layer : PolicyAction) (tls : Tls) (pkt : Buf) (pkt_len scratch_sz : Nat) :
    (crypto_decrypt_packet_auto_by_action o magic fake crypto_enabled cfg dctx action_layer tls pkt
      pkt_len scratch_sz).val =
      crypto_dispatch.crypto_decrypt_packet_auto_by_action o magic fake crypto_enabled cfg dctx
        action_layer tls pkt pkt_len scratch_sz := by
  unfold crypto_decrypt_packet_auto_by_action crypto_dispatch.crypto_decrypt_packet_auto_by_action
  split
  · rfl
  split
  · rw [← packet_decrypt_val]
    unfold result
    dsimp only
    rw [val_bind]
    rcases (packet_decrypt o fake cfg.encrypt_layer (crypto_apply_default_from_cfg cfg tls)
      dctx.base_ctx pkt pkt_len).val with ⟨_ | new_len, pkt'⟩
    · rfl
    · rfl
  cases action_layer with
  | bypass => rfl
  | encrypt_l2 => exact try_all_l2_val o fake dctx.active scratch_sz pkt pkt_len _ tls
  | encrypt_l3 =>
    dsimp only
    rw [val_bind, crypto_l3_extract_policy_id_val]
    cases crypto_dispatch.crypto_l3_extract_policy_id magic tls cfg pkt pkt_len with
    | none => rfl
    | some policy_id =>
      dsimp only
      rw [try_current_then_prev_val, result_crypto_layer3_decrypt]
  | encrypt_l4 => exact decrypt_l4_val o cfg dctx tls pkt pkt_len

end ne_ip.dispatch_access
