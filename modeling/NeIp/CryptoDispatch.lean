-- The choice of the key for a received packet (crypto_dispatch.c): the policy id
-- is parsed from the wire, and the current and then the previous tables are tried.
import Mathlib.Data.List.Nodup
import NeIp.Config
import NeIp.CryptoLayer2
import NeIp.CryptoLayer3
import NeIp.CryptoLayer4

open byte_buf ne_ip.packet_crypto ne_ip.config ne_ip.crypto_layer2 ne_ip.crypto_layer3
open ne_ip.crypto_layer4

namespace ne_ip.crypto_dispatch

/-- One set of policies in use: `g_active_policies`, `g_policy_crypto_ctx`,
`g_policy_crypto_ctx_ready` and `g_policy_index_by_action_id`, or the four that begin with
`g_prev`. -/
structure PolicyTables where
  policies : List CryptoPolicy
  ctx : Nat → PacketCryptoCtx
  ready : Nat → Bool
  index_by_action_id : PolicyAction → UInt8 → Option Nat

/-- `struct crypto_dispatch_ctx`. -/
structure CryptoDispatchCtx where
  base_ctx : PacketCryptoCtx
  active : PolicyTables
  prev : PolicyTables
  prev_grace_active : Bool

/-- An index that the table gives is taken without a look at the policy it points to. -/
def lookup_policy_index (t : PolicyTables) (action_layer : PolicyAction) (policy_id : UInt8) :
    Option Nat :=
  match t.index_by_action_id action_layer policy_id with
  | some pi =>
    if pi < t.policies.length then some pi
    else t.policies.findIdx? fun cp => cp.action == action_layer && cp.wire_id == policy_id
  | none => t.policies.findIdx? fun cp => cp.action == action_layer && cp.wire_id == policy_id

/-- `magic` is `CRYPTO_L3_TUNNEL_MAGIC`, which has no definition in the repository. -/
def crypto_l3_extract_policy_id (magic : UInt8) (tls : Tls) (cfg : AppConfig) (pkt : Buf)
    (pkt_len : Nat) : Option UInt8 :=
  let ip_hdr_len := ip_hdr_len_at pkt 14
  let marker := if tls.fake_protocol = 0 then 99 else tls.fake_protocol
  let tunnel_off := 14 + ip_hdr_len
  if pkt_len < 14 + 20 ∨ be16 pkt 12 ≠ 0x0800 ∨ ip_hdr_len < 20 ∨
      pkt_len < 14 + ip_hdr_len + 1 ∨ pkt (14 + 9) ≠ marker ∨
      pkt_len < tunnel_off + packet_crypto_get_tunnel_hdr_size tls then none
  else
    (cfg.policies.find? fun cp =>
      cp.action == .encrypt_l3 && cp.nonce_size != 0 &&
        decide (tunnel_off + cp.nonce_size + 1 < pkt_len) &&
        pkt (tunnel_off + cp.nonce_size + 1) == magic &&
        pkt (tunnel_off + cp.nonce_size) == cp.wire_id).map (·.wire_id)

/-- The policy id and the nonce size of the first policy that fits. -/
def crypto_l4_extract_policy_id_ipv4 (cfg : AppConfig) (pkt : Buf) (pkt_len : Nat) :
    Option (UInt8 × Nat) :=
  match crypto_eth_ipv4_offset pkt pkt_len with
  | none => none
  | some l3_off =>
    let ip_hdr_len := ip_hdr_len_at pkt l3_off
    let tunnel_off := l3_off + ip_hdr_len + L4_WIRE_PORT_LEN
    if pkt_len < l3_off + 20 ∨ ip_hdr_len < 20 ∨ pkt_len < l3_off + ip_hdr_len + 8 ∨
        (pkt (l3_off + 9) ≠ 6 ∧ pkt (l3_off + 9) ≠ 17) ∨ pkt_len ≤ tunnel_off then none
    else
      (cfg.policies.find? fun cp =>
        cp.action == .encrypt_l4 && cp.nonce_size != 0 &&
          decide (tunnel_off + cp.nonce_size + 1 < pkt_len) &&
          pkt (tunnel_off + cp.nonce_size + 1) == CRYPTO_L4_TUNNEL_MAGIC &&
          pkt (tunnel_off + cp.nonce_size) == cp.wire_id).map
        fun cp => (cp.wire_id, cp.nonce_size)

/-- What a dispatch does: whether it returns 0, the packet with its length, and the thread. -/
structure DispatchResult where
  ok : Bool
  pkt : Buf
  pkt_len : Nat
  tls : Tls

/-- A decrypt function of one layer. -/
abbrev Decrypt := Tls → PacketCryptoCtx → Buf → Nat → Option Nat × Buf

/-- One decrypt with the settings of one policy. Only a shorter packet counts as decrypted;
the packet is overwritten in any case. -/
def try_policy (decrypt : Decrypt) (cp : CryptoPolicy) (ctx : PacketCryptoCtx) (tls : Tls)
    (pkt : Buf) (pkt_len : Nat) : DispatchResult :=
  let tls := crypto_apply_from_policy cp tls
  match decrypt tls ctx pkt pkt_len with
  | (none, pkt) => { ok := false, pkt, pkt_len, tls }
  | (some new_len, pkt) =>
    if new_len < pkt_len then { ok := true, pkt, pkt_len := new_len, tls }
    else { ok := false, pkt, pkt_len, tls }

/-- The try that the L3 and the L4 branch make with each of the two sets of tables.
`accepts` is the check of the nonce size that only L4 makes. -/
def try_tables (decrypt : Decrypt) (t : PolicyTables) (action_layer : PolicyAction)
    (policy_id : UInt8) (accepts : CryptoPolicy → Bool) (tls : Tls) (pkt : Buf)
    (pkt_len : Nat) : DispatchResult :=
  match lookup_policy_index t action_layer policy_id with
  | none => { ok := false, pkt, pkt_len, tls }
  | some pi =>
    match t.policies[pi]? with
    | none => { ok := false, pkt, pkt_len, tls }
    | some cp =>
      if t.ready pi && accepts cp then try_policy decrypt cp (t.ctx pi) tls pkt pkt_len
      else { ok := false, pkt, pkt_len, tls }

/-- The current tables and, during grace, the previous ones, on the same packet. -/
def try_current_then_prev (decrypt : Decrypt) (dctx : CryptoDispatchCtx)
    (action_layer : PolicyAction) (policy_id : UInt8) (accepts : CryptoPolicy → Bool) (tls : Tls)
    (pkt : Buf) (pkt_len : Nat) : DispatchResult :=
  let r := try_tables decrypt dctx.active action_layer policy_id accepts tls pkt pkt_len
  if r.ok then r
  else if dctx.prev_grace_active && !dctx.prev.policies.isEmpty then
    try_tables decrypt dctx.prev action_layer policy_id accepts r.tls r.pkt r.pkt_len
  else r

/-- `packet_encrypt`. -/
def packet_encrypt (o : Openssl) (fake : Nat) (encrypt_layer : Nat) (tls : Tls)
    (ctx : PacketCryptoCtx) (counter : Nat) (pkt : Buf) (pkt_len : Nat) : EncResult :=
  if encrypt_layer = 2 then crypto_layer2_encrypt o fake tls ctx counter pkt pkt_len
  else if encrypt_layer = 3 then crypto_layer3_encrypt o tls ctx counter pkt pkt_len
  else if encrypt_layer = 4 then crypto_layer4_encrypt o tls ctx counter pkt pkt_len
  else { ret := none, pkt, counter }

/-- `packet_decrypt`. -/
def packet_decrypt (o : Openssl) (fake : Nat) (encrypt_layer : Nat) : Decrypt :=
  fun tls ctx pkt pkt_len =>
    if encrypt_layer = 2 then crypto_layer2_decrypt o fake tls ctx pkt pkt_len
    else if encrypt_layer = 3 then crypto_layer3_decrypt o tls ctx pkt pkt_len
    else if encrypt_layer = 4 then crypto_layer4_decrypt o tls ctx pkt pkt_len
    else (none, pkt)

/-- The loop over all L2 policies, which puts the packet back from the scratch buffer after
each failure. -/
def try_all_l2 (o : Openssl) (fake : Nat) (t : PolicyTables) (scratch_sz : Nat) (pkt : Buf)
    (pkt_len : Nat) : List (CryptoPolicy × Nat) → Tls → DispatchResult
  | [], tls => { ok := false, pkt, pkt_len, tls }
  | (cp, pi) :: rest, tls =>
    if cp.action ≠ .encrypt_l2 ∨ !t.ready pi then
      try_all_l2 o fake t scratch_sz pkt pkt_len rest tls
    else if scratch_sz < pkt_len then { ok := false, pkt, pkt_len, tls }
    else
      let r := try_policy (crypto_layer2_decrypt o fake) cp (t.ctx pi) tls pkt pkt_len
      if r.ok then r else try_all_l2 o fake t scratch_sz pkt pkt_len rest r.tls

/-- With `ok`, an untouched packet means that it was not recognised. -/
def crypto_decrypt_packet_auto_by_action (o : Openssl) (magic : UInt8) (fake : Nat)
    (crypto_enabled : Bool) (cfg : AppConfig) (dctx : CryptoDispatchCtx)
    (action_layer : PolicyAction) (tls : Tls) (pkt : Buf) (pkt_len scratch_sz : Nat) :
    DispatchResult :=
  if !crypto_enabled then { ok := false, pkt, pkt_len, tls }
  else if cfg.policies = [] then
    let tls := crypto_apply_default_from_cfg cfg tls
    match packet_decrypt o fake cfg.encrypt_layer tls dctx.base_ctx pkt pkt_len with
    | (none, pkt) => { ok := false, pkt, pkt_len, tls }
    | (some new_len, pkt) => { ok := true, pkt, pkt_len := new_len, tls }
  else
    match action_layer with
    | .encrypt_l3 =>
      match crypto_l3_extract_policy_id magic tls cfg pkt pkt_len with
      | none => { ok := true, pkt, pkt_len, tls }
      | some policy_id =>
        try_current_then_prev (crypto_layer3_decrypt o) dctx .encrypt_l3 policy_id
          (fun _ => true) tls pkt pkt_len
    | .encrypt_l4 =>
      match crypto_l4_extract_policy_id_ipv4 cfg pkt pkt_len with
      -- the checks that come before the parse are among those of the parse
      | none => { ok := true, pkt, pkt_len, tls }
      | some (policy_id, nonce_size) =>
        try_current_then_prev (crypto_layer4_decrypt o) dctx .encrypt_l4 policy_id
          (fun cp => cp.nonce_size != 0 && cp.nonce_size == nonce_size) tls pkt pkt_len
    | .encrypt_l2 =>
      try_all_l2 o fake dctx.active scratch_sz pkt pkt_len cfg.policies.zipIdx tls
    | .bypass => { ok := false, pkt, pkt_len, tls }

/-! ## Tables that belong to a list of policies -/

/-- Every ready context is the one of its policy. -/
def CtxsOf (o : Openssl) (policies : List CryptoPolicy) (ctx : Nat → PacketCryptoCtx)
    (ready : Nat → Bool) : Prop :=
  ∀ pi cp, policies[pi]? = some cp → ready pi = true →
    ctx pi = init_ctx o cp.aes_bits cp.key.toList

/-- What `rebuild_crypto_runtime` makes of a list of policies: besides the contexts, an index
that points to policies of its action and id. -/
structure TablesOf (o : Openssl) (policies : List CryptoPolicy) (t : PolicyTables) : Prop where
  policies_eq : t.policies = policies
  ctx_eq : CtxsOf o policies t.ctx t.ready
  index_eq : ∀ a id pi, t.index_by_action_id a id = some pi →
    ∃ cp, policies[pi]? = some cp ∧ cp.action = a ∧ cp.wire_id = id

/-- No two policies of the list share a wire id. -/
def DistinctWireIds (policies : List CryptoPolicy) : Prop := (policies.map (·.wire_id)).Nodup

instance (policies : List CryptoPolicy) : Decidable (DistinctWireIds policies) :=
  inferInstanceAs (Decidable (List.Nodup _))

/-- Entries with one image are one entry when the images are distinct. -/
theorem index_eq_of_nodup_map {α β : Type} {f : α → β} {l : List α} (h : (l.map f).Nodup)
    {i j : Nat} {a b : α} (hi : l[i]? = some a) (hj : l[j]? = some b) (hab : f a = f b) :
    i = j := by
  obtain ⟨hil, hie⟩ := List.getElem?_eq_some_iff.mp hi
  obtain ⟨hjl, hje⟩ := List.getElem?_eq_some_iff.mp hj
  have hi' : i < (l.map f).length := by simpa using hil
  have hj' : j < (l.map f).length := by simpa using hjl
  have he : (l.map f)[i] = (l.map f)[j] := by simp [hie, hje, hab]
  exact h.getElem_inj_iff.mp he

theorem DistinctWireIds.index_eq {policies : List CryptoPolicy} (h : DistinctWireIds policies)
    {i j : Nat} {p q : CryptoPolicy} (hi : policies[i]? = some p) (hj : policies[j]? = some q)
    (hpq : p.wire_id = q.wire_id) : i = j :=
  index_eq_of_nodup_map h hi hj hpq

/-- The lookup of a policy's own action and id finds it, when the entries of the index have
their action and id. -/
theorem lookup_policy_index_of_index {t : PolicyTables} (hd : DistinctWireIds t.policies)
    (hidx : ∀ a id pi, t.index_by_action_id a id = some pi →
      ∃ cp, t.policies[pi]? = some cp ∧ cp.action = a ∧ cp.wire_id = id)
    {pi : Nat} {cp : CryptoPolicy} (hpi : t.policies[pi]? = some cp) :
    lookup_policy_index t cp.action cp.wire_id = some pi := by
  have hlt : pi < t.policies.length := (List.getElem?_eq_some_iff.mp hpi).1
  have hfind : (t.policies.findIdx? fun q => q.action == cp.action && q.wire_id == cp.wire_id) =
      some pi := by
    rw [List.findIdx?_eq_some_iff_getElem]
    refine ⟨hlt, ?_, ?_⟩
    · simp [(List.getElem?_eq_some_iff.mp hpi).2]
    · intro j hj hmatch
      simp only [Bool.and_eq_true, beq_iff_eq] at hmatch
      have := hd.index_eq (List.getElem?_eq_getElem (by omega)) hpi hmatch.2
      omega
  unfold lookup_policy_index
  split
  · rename_i pi' hentry
    obtain ⟨q, hq, -, hid⟩ := hidx _ _ _ hentry
    obtain rfl := hd.index_eq hq hpi hid
    rw [if_pos hlt]
  · exact hfind

theorem lookup_policy_index_eq {o : Openssl} {policies : List CryptoPolicy} {t : PolicyTables}
    (ht : TablesOf o policies t) (hd : DistinctWireIds policies) {pi : Nat} {cp : CryptoPolicy}
    (hpi : policies[pi]? = some cp) :
    lookup_policy_index t cp.action cp.wire_id = some pi := by
  obtain ⟨rfl, -, hidx⟩ := ht
  exact lookup_policy_index_of_index hd hidx hpi

/-- With a policy's own tables a try is a decrypt with that policy. -/
theorem try_tables_eq {o : Openssl} {policies : List CryptoPolicy} {t : PolicyTables}
    (ht : TablesOf o policies t) (hd : DistinctWireIds policies) {pi : Nat} {cp : CryptoPolicy}
    (hpi : policies[pi]? = some cp) (hr : t.ready pi = true) {accepts : CryptoPolicy → Bool}
    (ha : accepts cp = true) (decrypt : Decrypt) (tls : Tls) (pkt : Buf) (pkt_len : Nat) :
    try_tables decrypt t cp.action cp.wire_id accepts tls pkt pkt_len =
      try_policy decrypt cp (t.ctx pi) tls pkt pkt_len := by
  unfold try_tables
  rw [lookup_policy_index_eq ht hd hpi]
  dsimp only
  rw [ht.policies_eq, hpi]
  dsimp only
  rw [hr, ha]
  rfl

end ne_ip.crypto_dispatch
