-- What a receive thread takes a frame for after one history of packets and after
-- another: the crypto settings that the last packet leaves decide.
import NeIp.FragDelivery
import NeIp.Runs

open runs byte_buf ne_ip.packet_crypto ne_ip.config ne_ip.crypto_dispatch ne_ip.crypto_layer2
open ne_ip.crypto_layer3 ne_ip.crypto_layer4 ne_ip.fragment ne_ip.forwarder ne_ip.wan_queue
open ne_ip.db_runtime ne_ip.sample ne_ip.l3_wire ne_ip.frag_delivery

namespace ne_ip.wan_history

/-! ## The history of a thread -/

/-- A received packet, with what the thread finds when it takes it. -/
structure Arrival where
  env : WanEnv
  pkt : Buf
  pkt_len : Nat

/-- The thread handles a packet, or drops it. The tables of pending fragments are shared with
the other threads and with the gc, so nothing is said about them. -/
def Handles (w : WanThread) (r : Arrival) (w' : WanThread) : Prop :=
  Peer r.env.o r.env.rt ∧ w'.tls = (inbound_l3l4 r.env w r.pkt r.pkt_len).2.tls

/-! ## The answers -/

/-- What the four parsers say of a frame: the first of them before the thread has taken over
the settings of the frame's policy, the others after it. -/
structure Answers where
  inbound_policy_id : Option UInt8
  fragment : Option (Nat × UInt8)
  l3_policy_id : Option UInt8
  fragment_l4 : Option (Nat × UInt8)
  l4_policy_id : Option (UInt8 × Nat)

def answers (e : WanEnv) (tls : Tls) (pkt : Buf) (pkt_len : Nat) : Answers :=
  let inbound := apply_inbound_params e tls pkt pkt_len
  { inbound_policy_id := crypto_l3_extract_policy_id e.magic tls e.rt.fwd_cfg pkt pkt_len
    fragment := frag_is_fragment inbound e.rt.fwd_cfg pkt pkt_len
    l3_policy_id := crypto_l3_extract_policy_id e.magic inbound e.rt.fwd_cfg pkt pkt_len
    fragment_l4 := frag_is_fragment_l4 inbound e.rt.fwd_cfg pkt pkt_len
    l4_policy_id := crypto_l4_extract_policy_id_ipv4 e.rt.fwd_cfg pkt pkt_len }

/-! ## What a packet does to the settings -/

section Keeps

variable {P : Tls → Prop}

theorem receive_fragment_keeps {reass_buf : Buf} {resolved : Option (PacketCryptoCtx × Tls)}
    {decrypt_fragment : Tls → PacketCryptoCtx → Buf → Nat → Option (Nat × Nat × UInt8) × Buf}
    {try_reassemble : FragTable → Buf → Nat → Nat → UInt8 → Buf → Reassembled × FragTable}
    {ft : FragTable} {tls : Tls} {pkt : Buf} {pkt_len : Nat} (h : P tls)
    (hr : ∀ ctx tls', resolved = some (ctx, tls') → P tls') :
    P (receive_fragment reass_buf resolved decrypt_fragment try_reassemble ft tls pkt pkt_len).2.2 := by
  unfold receive_fragment
  split
  · exact h
  rename_i ctx tls'
  have hp := hr ctx tls' rfl
  split
  · exact hp
  split
  · exact hp
  · exact hp
  · exact hp

variable (hpol : ∀ cp tls, P tls → P (crypto_apply_from_policy cp tls))
include hpol

/-- What every policy and the defaults keep, a lookup of a policy keeps. -/
theorem resolve_policy_keeps {rt : Runtime} {now : Nat} {action : PolicyAction} {policy_id : UInt8}
    {accepts : CryptoPolicy → Bool} {tls tls' : Tls} {ctx : PacketCryptoCtx} (h : P tls)
    (hr : resolve_policy rt now action policy_id accepts tls = some (ctx, tls')) : P tls' := by
  obtain ⟨cp, -, rfl⟩ := resolve_policy_accepts hr
  exact hpol cp tls h

theorem try_policy_keeps (decrypt : Decrypt) (cp : CryptoPolicy) (ctx : PacketCryptoCtx) {tls : Tls}
    (pkt : Buf) (pkt_len : Nat) (h : P tls) :
    P (try_policy decrypt cp ctx tls pkt pkt_len).tls := by
  unfold try_policy
  dsimp only
  split
  · exact hpol _ _ h
  split
  · exact hpol _ _ h
  · exact hpol _ _ h

theorem try_tables_keeps (decrypt : Decrypt) (t : PolicyTables) (action_layer : PolicyAction)
    (policy_id : UInt8) (accepts : CryptoPolicy → Bool) {tls : Tls} (pkt : Buf) (pkt_len : Nat)
    (h : P tls) : P (try_tables decrypt t action_layer policy_id accepts tls pkt pkt_len).tls := by
  unfold try_tables
  split
  · exact h
  split
  · exact h
  split
  · exact try_policy_keeps hpol _ _ _ _ _ h
  · exact h

theorem try_current_then_prev_keeps (decrypt : Decrypt) (dctx : CryptoDispatchCtx)
    (action_layer : PolicyAction) (policy_id : UInt8) (accepts : CryptoPolicy → Bool) {tls : Tls}
    (pkt : Buf) (pkt_len : Nat) (h : P tls) :
    P (try_current_then_prev decrypt dctx action_layer policy_id accepts tls pkt pkt_len).tls := by
  have hact := try_tables_keeps hpol decrypt dctx.active action_layer policy_id accepts pkt pkt_len h
  unfold try_current_then_prev
  dsimp only
  split
  · exact hact
  split
  · exact try_tables_keeps hpol decrypt dctx.prev action_layer policy_id accepts _ _ hact
  · exact hact

theorem try_all_l2_keeps (o : Openssl) (fake : Nat) (t : PolicyTables) (scratch_sz : Nat) (pkt : Buf)
    (pkt_len : Nat) (policies : List (CryptoPolicy × Nat)) {tls : Tls} (h : P tls) :
    P (try_all_l2 o fake t scratch_sz pkt pkt_len policies tls).tls := by
  induction policies generalizing tls with
  | nil => exact h
  | cons q rest ih =>
    unfold try_all_l2
    split
    · exact ih h
    split
    · exact h
    have hq := try_policy_keeps hpol (crypto_layer2_decrypt o fake) q.1 (t.ctx q.2) pkt pkt_len h
    dsimp only
    split
    · exact hq
    · exact ih hq

variable {e : WanEnv} (hdef : ∀ tls, P tls → P (crypto_apply_default_from_cfg e.rt.fwd_cfg tls))
include hdef

theorem apply_inbound_params_keeps {tls : Tls} (h : P tls) (pkt : Buf) (pkt_len : Nat) :
    P (apply_inbound_params e tls pkt pkt_len) := by
  unfold apply_inbound_params
  split
  · split
    · rename_i ctx tls' hres
      obtain ⟨policy_id, -, hres⟩ := Option.bind_eq_some_iff.mp hres
      exact resolve_policy_keeps hpol h hres
    · exact hdef _ h
  · exact h

theorem decrypt_packet_auto_by_action_keeps (action_layer : PolicyAction) {tls : Tls} (h : P tls)
    (pkt : Buf) (pkt_len : Nat) :
    P (decrypt_packet_auto_by_action e action_layer tls pkt pkt_len).tls := by
  unfold decrypt_packet_auto_by_action crypto_decrypt_packet_auto_by_action
  split
  · exact h
  split
  · dsimp only
    split
    · exact hdef _ h
    · exact hdef _ h
  split
  · split
    · exact h
    · exact try_current_then_prev_keeps hpol _ _ _ _ _ _ _ h
  · split
    · exact h
    · exact try_current_then_prev_keeps hpol _ _ _ _ _ _ _ h
  · exact try_all_l2_keeps hpol _ _ _ _ _ _ _ h
  · exact h

theorem receive_l2_keeps {w : WanThread} (h : P w.tls) (pkt : Buf) (pkt_len : Nat) :
    P (receive_l2 e w pkt pkt_len).2.tls := by
  have hres : ∀ ctx tls', forwarder_resolve_l2_decrypt_ctx e.rt e.now_ms w.tls pkt =
      some (ctx, tls') → P tls' := by
    intro ctx tls' hr
    unfold forwarder_resolve_l2_decrypt_ctx at hr
    split at hr
    · rw [← (Prod.mk.inj (Option.some.inj hr)).2]
      exact hdef _ h
    · exact resolve_policy_keeps hpol h hr
  unfold receive_l2
  split
  · exact receive_fragment_keeps h hres
  · dsimp only
    unfold decrypt_packet_auto_l2
    split
    · exact h
    split
    · exact h
    split
    · exact h
    rename_i ctx tls' hr
    have hp := hres ctx tls' hr
    dsimp only
    split
    · exact hp
    · exact hp

theorem receive_l3_keeps {w : WanThread} (h : P w.tls) (pkt : Buf) (pkt_len : Nat) :
    P (receive_l3 e w pkt pkt_len).2.tls := by
  unfold receive_l3
  split
  · refine receive_fragment_keeps h fun ctx tls' hr => ?_
    unfold forwarder_resolve_l3_decrypt_ctx at hr
    split at hr
    · rw [← (Prod.mk.inj (Option.some.inj hr)).2]
      exact hdef _ h
    split at hr
    · simp at hr
    · exact resolve_policy_keeps hpol h hr
  · exact decrypt_packet_auto_by_action_keeps hpol hdef _ h _ _

theorem receive_l4_keeps {w : WanThread} (h : P w.tls) (pkt : Buf) (pkt_len : Nat) :
    P (receive_l4 e w pkt pkt_len).2.tls := by
  unfold receive_l4
  split
  · refine receive_fragment_keeps h fun ctx tls' hr => ?_
    unfold forwarder_resolve_l4_decrypt_ctx at hr
    split at hr
    · rw [← (Prod.mk.inj (Option.some.inj hr)).2]
      exact hdef _ h
    split at hr
    · simp at hr
    · exact resolve_policy_keeps hpol h hr
  · exact decrypt_packet_auto_by_action_keeps hpol hdef _ h _ _

/-- What every policy and the defaults keep of the settings, a received packet keeps. -/
theorem inbound_l3l4_keeps {w : WanThread} (h : P w.tls) (pkt : Buf) (pkt_len : Nat) :
    P (inbound_l3l4 e w pkt pkt_len).2.tls := by
  have happly := apply_inbound_params_keeps hpol hdef h pkt pkt_len
  -- the step of layer 2, when the frame has its marker
  have hmark : ∀ w : WanThread, P w.tls →
      P (if l2_has_fake_marker e.rt.fake_ethertype_ipv4 pkt then receive_l2 e w pkt pkt_len
        else (.packet pkt pkt_len, w)).2.tls := by
    intro w hw
    split
    · exact receive_l2_keeps hpol hdef hw _ _
    · exact hw
  unfold inbound_l3l4
  dsimp only
  have h2 := hmark { w with tls := apply_inbound_params e w.tls pkt pkt_len } happly
  split
  · rename_i pkt2 len2 w2 hr
    rw [hr] at h2
    split
    · exact h2
    have h3 := receive_l3_keeps hpol hdef h2 pkt2 len2
    split
    · rename_i pkt3 len3 w3 hr3
      rw [hr3] at h3
      exact receive_l4_keeps hpol hdef h3 _ _
    · exact h3
  · exact h2

end Keeps

theorem Handles.fake_protocol {w w' : WanThread} {r : Arrival} (h : Handles w r w')
    (hw : w.tls.fake_protocol = 99) : w'.tls.fake_protocol = 99 := by
  obtain ⟨hpeer, htls⟩ := h
  rw [htls]
  refine inbound_l3l4_keeps (P := fun tls => tls.fake_protocol = 99) ?_ ?_ hw r.pkt r.pkt_len
  · intro cp tls h
    unfold crypto_apply_from_policy
    dsimp only
    rw [h, if_neg fun hc => absurd hc.2 (by decide)]
  · intro tls _
    unfold crypto_apply_default_from_cfg
    dsimp only
    rw [if_pos hpeer.encrypt_layer, hpeer.fake_protocol]

/-- The receive thread looks for one fake protocol all its life. -/
theorem fake_protocol_after {start w : WanThread} {history : List Arrival}
    (h : Run Handles start history w) (hs : start.tls.fake_protocol = 99) : w.tls.fake_protocol = 99 :=
  h.invariant hs fun _ _ _ hw hstep => hstep.fake_protocol hw

/-! ## What the answers depend on -/

/-- Settings that the parsers do not tell apart. -/
structure Agree (a b : Tls) : Prop where
  nonce_size : a.nonce_size = b.nonce_size
  fake_protocol : a.fake_protocol = b.fake_protocol

variable {a b : Tls}

theorem Agree.extract (h : Agree a b) (magic : UInt8) (cfg : AppConfig) (pkt : Buf) (pkt_len : Nat) :
    crypto_l3_extract_policy_id magic a cfg pkt pkt_len =
      crypto_l3_extract_policy_id magic b cfg pkt pkt_len := by
  unfold crypto_l3_extract_policy_id packet_crypto_get_tunnel_hdr_size
  rw [h.nonce_size, h.fake_protocol]

theorem Agree.fragment (h : Agree a b) (cfg : AppConfig) (pkt : Buf) (pkt_len : Nat) :
    frag_is_fragment a cfg pkt pkt_len = frag_is_fragment b cfg pkt pkt_len := by
  unfold frag_is_fragment packet_crypto_get_tunnel_hdr_size
  rw [h.nonce_size, h.fake_protocol]

theorem Agree.fragment_l4 (h : Agree a b) (cfg : AppConfig) (pkt : Buf) (pkt_len : Nat) :
    frag_is_fragment_l4 a cfg pkt pkt_len = frag_is_fragment_l4 b cfg pkt pkt_len := by
  unfold frag_is_fragment_l4 packet_crypto_get_tunnel_hdr_size
  rw [h.nonce_size]

/-- Which policy is resolved does not depend on the thread. -/
theorem resolve_policy_map (rt : Runtime) (now : Nat) (action : PolicyAction) (policy_id : UInt8)
    (accepts : CryptoPolicy → Bool) : ∃ r : Option (PacketCryptoCtx × CryptoPolicy), ∀ tls,
      resolve_policy rt now action policy_id accepts tls =
        r.map fun q => (q.1, crypto_apply_from_policy q.2 tls) := by
  have hin : ∀ t : PolicyTables, ∃ r : Option (PacketCryptoCtx × CryptoPolicy), ∀ tls,
      resolve_in t action policy_id accepts tls =
        r.map fun q => (q.1, crypto_apply_from_policy q.2 tls) := by
    intro t
    unfold resolve_in
    split
    · exact ⟨none, fun _ => rfl⟩
    split
    · exact ⟨none, fun _ => rfl⟩
    split
    · exact ⟨some (_, _), fun _ => rfl⟩
    · exact ⟨none, fun _ => rfl⟩
  obtain ⟨r, hr⟩ := hin (dispatch_ctx rt now).active
  obtain ⟨rp, hrp⟩ := hin rt.prev
  unfold resolve_policy
  cases r with
  | some q =>
    refine ⟨some q, fun tls => ?_⟩
    rw [hr tls]
    rfl
  | none =>
    by_cases hg : prev_policy_grace_active rt now = true
    · refine ⟨rp, fun tls => ?_⟩
      rw [hr tls, if_pos hg, hrp tls]
      rfl
    · refine ⟨none, fun tls => ?_⟩
      rw [hr tls, if_neg hg]
      rfl

/-- When the first parse is the same, the thread takes over the same settings. -/
theorem apply_inbound_params_agree {e : WanEnv} (hpeer : Peer e.o e.rt)
    (hne : e.rt.fwd_cfg.policies ≠ []) (hfake : a.fake_protocol = b.fake_protocol) {pkt : Buf}
    {pkt_len : Nat} (hx : crypto_l3_extract_policy_id e.magic a e.rt.fwd_cfg pkt pkt_len =
      crypto_l3_extract_policy_id e.magic b e.rt.fwd_cfg pkt pkt_len) :
    Agree (apply_inbound_params e a pkt pkt_len) (apply_inbound_params e b pkt pkt_len) := by
  have hdef : Agree (crypto_apply_default_from_cfg e.rt.fwd_cfg a)
      (crypto_apply_default_from_cfg e.rt.fwd_cfg b) := by
    refine ⟨rfl, ?_⟩
    unfold crypto_apply_default_from_cfg
    dsimp only
    rw [hfake]
  unfold apply_inbound_params
  rw [hpeer.enabled, hpeer.layer, List.isEmpty_eq_false_iff.mpr hne, hx]
  simp only [beq_self_eq_true, Bool.not_false, Bool.and_self, if_true]
  cases hid : crypto_l3_extract_policy_id e.magic b e.rt.fwd_cfg pkt pkt_len with
  | none => exact hdef
  | some policy_id =>
    obtain ⟨r, hr⟩ := resolve_policy_map e.rt e.now_ms .encrypt_l3 policy_id fun _ => true
    simp only [Option.bind_some, hr]
    cases r with
    | none => exact hdef
    | some q =>
      refine ⟨rfl, ?_⟩
      unfold crypto_apply_from_policy
      simp only [Option.map_some]
      rw [hfake]

/-- The answers are the same as soon as the first one is. -/
theorem answers_eq_iff {e : WanEnv} (hpeer : Peer e.o e.rt)
    (hfake : a.fake_protocol = b.fake_protocol) (pkt : Buf) (pkt_len : Nat) :
    answers e a pkt pkt_len = answers e b pkt pkt_len ↔
      crypto_l3_extract_policy_id e.magic a e.rt.fwd_cfg pkt pkt_len =
        crypto_l3_extract_policy_id e.magic b e.rt.fwd_cfg pkt pkt_len := by
  refine ⟨fun h => congrArg Answers.inbound_policy_id h, fun hx => ?_⟩
  unfold answers
  dsimp only
  by_cases hne : e.rt.fwd_cfg.policies = []
  · -- without policies no parser finds one
    have hf : ∀ fits tag_off, fragment_of e.rt.fwd_cfg fits pkt tag_off = none := by
      intro fits tag_off
      unfold fragment_of
      rw [hne]
      rfl
    have h3 : ∀ tls, frag_is_fragment tls e.rt.fwd_cfg pkt pkt_len = none := by
      intro tls
      unfold frag_is_fragment
      split
      · rfl
      · simp only [hf, ite_self]
    have h4 : ∀ tls, frag_is_fragment_l4 tls e.rt.fwd_cfg pkt pkt_len = none := by
      intro tls
      unfold frag_is_fragment_l4
      simp only [hf, ite_self]
    have hl3 : ∀ tls, crypto_l3_extract_policy_id e.magic tls e.rt.fwd_cfg pkt pkt_len = none := by
      intro tls
      unfold crypto_l3_extract_policy_id
      simp only [hne, List.find?_nil, Option.map_none, ite_self]
    rw [h3, h3, h4, h4, hl3, hl3, hl3, hl3]
  · have hag := apply_inbound_params_agree hpeer hne hfake hx
    rw [hx, hag.fragment, hag.fragment_l4, hag.extract]

/-! ## When the first answer depends on the history -/

/-- The nonce size that is left is not larger than the one of an L3 policy. -/
def Covered (cfg : AppConfig) (nonce_size : Nat) : Prop :=
  ∀ q ∈ cfg.policies, q.action = .encrypt_l3 → q.nonce_size ≠ 0 → nonce_size ≤ q.nonce_size

/-- Then the length check that it makes is one that every policy makes too. -/
theorem extract_of_covered (magic : UInt8) {cfg : AppConfig} (hfake : a.fake_protocol = 99)
    (h : Covered cfg a.nonce_size) (pkt : Buf) (pkt_len : Nat) :
    crypto_l3_extract_policy_id magic a cfg pkt pkt_len =
      if pkt_len < 14 + 20 ∨ be16 pkt 12 ≠ 0x0800 ∨ ip_hdr_len_at pkt 14 < 20 ∨
        pkt_len < 14 + ip_hdr_len_at pkt 14 + 1 ∨ pkt (14 + 9) ≠ 99 then none
      else
        (cfg.policies.find? (fits magic pkt pkt_len (14 + ip_hdr_len_at pkt 14))).map (·.wire_id) := by
  have hH : packet_crypto_get_tunnel_hdr_size a = a.nonce_size + 2 := rfl
  unfold crypto_l3_extract_policy_id
  dsimp only
  rw [hfake, hH]
  simp only [show (99 : UInt8) ≠ 0 by decide, if_false]
  by_cases hbad : pkt_len < 14 + 20 ∨ be16 pkt 12 ≠ 0x0800 ∨ ip_hdr_len_at pkt 14 < 20 ∨
      pkt_len < 14 + ip_hdr_len_at pkt 14 + 1 ∨ pkt (14 + 9) ≠ 99
  · rw [if_pos hbad, if_pos (by tauto)]
  rw [if_neg hbad]
  by_cases hlen : pkt_len < 14 + ip_hdr_len_at pkt 14 + (a.nonce_size + 2)
  · rw [if_pos (by tauto), eq_comm, Option.map_eq_none_iff, List.find?_eq_none]
    intro q hq hfit
    unfold fits at hfit
    simp only [Bool.and_eq_true, beq_iff_eq, bne_iff_ne, decide_eq_true_eq] at hfit
    obtain ⟨⟨⟨⟨haction, hns⟩, hroom⟩, -⟩, -⟩ := hfit
    have := h q hq haction hns
    omega
  · rw [if_neg (by tauto)]
    rfl

/-- A frame that is only the header of an L3 policy. -/
def bareFrame (magic wire_id : UInt8) (nonce_size : Nat) : Buf := fun i =>
  if i = 12 then 0x08
  else if i = 14 then 0x45
  else if i = 23 then 99
  else if i = 34 + nonce_size then wire_id
  else if i = 35 + nonce_size then magic
  else 0

theorem bareFrame_headers (magic wire_id : UInt8) (nonce_size : Nat) :
    be16 (bareFrame magic wire_id nonce_size) 12 = 0x0800 ∧
    ip_hdr_len_at (bareFrame magic wire_id nonce_size) 14 = 20 ∧
    bareFrame magic wire_id nonce_size (14 + 9) = 99 ∧
    bareFrame magic wire_id nonce_size (34 + nonce_size) = wire_id ∧
    bareFrame magic wire_id nonce_size (34 + nonce_size + 1) = magic := by
  refine ⟨?_, ?_, by rfl, ?_, ?_⟩
  · unfold be16 bareFrame
    rw [if_pos rfl, if_neg (by omega), if_neg (by omega), if_neg (by omega), if_neg (by omega),
      if_neg (by omega)]
    rfl
  · unfold ip_hdr_len_at bareFrame
    rw [if_neg (by omega), if_pos rfl]
    rfl
  · unfold bareFrame
    rw [if_neg (by omega), if_neg (by omega), if_neg (by omega), if_pos rfl]
  · unfold bareFrame
    rw [if_neg (by omega), if_neg (by omega), if_neg (by omega), if_neg (by omega),
      if_pos (by omega)]

/-- Whether the parser knows it is a matter of the nonce size that is left. -/
theorem extract_bareFrame (magic : UInt8) {cfg : AppConfig} (hfake : a.fake_protocol = 99)
    {q : CryptoPolicy} (hq : q ∈ cfg.policies) (haction : q.action = .encrypt_l3)
    (hns : q.nonce_size ≠ 0) {pkt_len : Nat} (hlen : 34 + q.nonce_size + 2 ≤ pkt_len) :
    (crypto_l3_extract_policy_id magic a cfg (bareFrame magic q.wire_id q.nonce_size)
      pkt_len).isSome = decide (34 + a.nonce_size + 2 ≤ pkt_len) := by
  obtain ⟨h4, hihl, hproto, hid, hmagic⟩ := bareFrame_headers magic q.wire_id q.nonce_size
  have hH : packet_crypto_get_tunnel_hdr_size a = a.nonce_size + 2 := rfl
  unfold crypto_l3_extract_policy_id
  dsimp only
  rw [hfake, hH, h4, hihl, hproto]
  simp only [show (99 : UInt8) ≠ 0 by decide, if_false]
  by_cases h : 34 + a.nonce_size + 2 ≤ pkt_len
  · rw [if_neg (by simp; omega), Option.isSome_map, decide_eq_true h, List.find?_isSome]
    refine ⟨q, hq, ?_⟩
    simp only [haction, hid, hmagic, beq_self_eq_true, Bool.and_true, Bool.true_and,
      Bool.and_eq_true, bne_iff_ne, decide_eq_true_eq]
    exact ⟨hns, by omega⟩
  · rw [if_pos (by simp; omega), decide_eq_false h]
    rfl

/-- Two settings give every frame the same answers exactly when they have one nonce size, or
when no L3 policy has a smaller one. -/
theorem same_answers_iff {e : WanEnv} (hpeer : Peer e.o e.rt) (ha : a.fake_protocol = 99)
    (hb : b.fake_protocol = 99) :
    (∀ pkt pkt_len, answers e a pkt pkt_len = answers e b pkt pkt_len) ↔
      a.nonce_size = b.nonce_size ∨
        (Covered e.rt.fwd_cfg a.nonce_size ∧ Covered e.rt.fwd_cfg b.nonce_size) := by
  simp only [answers_eq_iff hpeer (ha.trans hb.symm)]
  constructor
  · intro h
    by_contra hc
    rw [not_or, not_and_or] at hc
    obtain ⟨hne, hc⟩ := hc
    -- the policy that is smaller than one of the two
    have hq : ∃ q ∈ e.rt.fwd_cfg.policies, q.action = .encrypt_l3 ∧ q.nonce_size ≠ 0 ∧
        (q.nonce_size < a.nonce_size ∨ q.nonce_size < b.nonce_size) := by
      unfold Covered at hc
      push Not at hc
      rcases hc with ⟨q, hq, haction, hns, hlt⟩ | ⟨q, hq, haction, hns, hlt⟩
      · exact ⟨q, hq, haction, hns, Or.inl hlt⟩
      · exact ⟨q, hq, haction, hns, Or.inr hlt⟩
    obtain ⟨q, hq, haction, hns, hlt⟩ := hq
    -- a frame that is long enough for the smaller one only
    have hframe := congrArg Option.isSome (h (bareFrame e.magic q.wire_id q.nonce_size)
      (36 + max q.nonce_size (min a.nonce_size b.nonce_size)))
    rw [extract_bareFrame e.magic ha hq haction hns (by omega),
      extract_bareFrame e.magic hb hq haction hns (by omega), decide_eq_decide] at hframe
    omega
  · rintro (hns | ⟨hca, hcb⟩) pkt pkt_len
    · exact Agree.extract ⟨hns, ha.trans hb.symm⟩ _ _ _ _
    · rw [extract_of_covered e.magic ha hca, extract_of_covered e.magic hb hcb]

/-- After any two histories of a receive thread its answers are the same for every frame,
exactly when both have left one nonce size, or none larger than the one of an L3 policy. -/
theorem a_history_does_not_matter_iff_no_policy_is_smaller_than_what_it_leaves {e : WanEnv}
    (hpeer : Peer e.o e.rt) {start w1 w2 : WanThread} (hs : start.tls.fake_protocol = 99)
    {history1 history2 : List Arrival} (h1 : Run Handles start history1 w1)
    (h2 : Run Handles start history2 w2) :
    (∀ pkt pkt_len, answers e w1.tls pkt pkt_len = answers e w2.tls pkt pkt_len) ↔
      w1.tls.nonce_size = w2.tls.nonce_size ∨
        (Covered e.rt.fwd_cfg w1.tls.nonce_size ∧ Covered e.rt.fwd_cfg w2.tls.nonce_size) :=
  same_answers_iff hpeer (fake_protocol_after h1 hs) (fake_protocol_after h2 hs)

/-! ## Two policies with nonces of two sizes -/

/-- Policy 7 of layer 3 with nonces of `n` bytes. -/
def ctrPolicy (n : Nat) : CryptoPolicy :=
  { samplePolicy 7 .encrypt_l3 with crypto_mode := .ctr, nonce_size := n }

/-- It stands behind policy 8 of layer 4, whose nonce size the defaults take. -/
def mixedDb (n8 n7 : Nat) : Db := fun id =>
  if id = 1 then
    some {
      lans := some [[0x6c, 0x61, 0x6e, 0x30]]
      wans := some [([0x77, 0x61, 0x6e, 0x30], 0, 100)]
      policies := some [{ samplePolicy 8 .encrypt_l4 with nonce_size := n8 }, ctrPolicy n7]
      policies_le := by
        intro ps h
        rw [← Option.some.inj h]
        exact show 2 ≤ MAX_CRYPTO_POLICIES by decide }
  else none

def mixedCfg (n8 n7 : Nat) : AppConfig := (build_merged_config (mixedDb n8 n7) [1]).getD {}

def mixedEnv (n8 n7 : Nat) : WanEnv where
  o := sampleOpenssl
  magic := 17
  rt := (init_crypto sampleOpenssl {} 1 (mixedCfg n8 n7) Runtime.boot).2
  now_ms := 2
  now_ns := 2000000
  reass_buf := fun _ => 0

theorem mixedEnv_peer (n8 n7 : Nat) : Peer (mixedEnv n8 n7).o (mixedEnv n8 n7).rt :=
  peer_of_merged (fun pi cp hpi => by simp [Runtime.boot] at hpi)
    (show build_merged_config (mixedDb n8 n7) [1] = some (mixedCfg n8 n7) from rfl)
    (List.cons_ne_nil _ _)
    (show init_crypto sampleOpenssl {} 1 (mixedCfg n8 n7) Runtime.boot =
      (true, (mixedEnv n8 n7).rt) from rfl)

/-- A packet leaves nonces of 4 bytes where the thread had 12, which are not more than the L3
policy has. -/
theorem a_packet_does_not_matter_with_nonces_of_12_bytes :
    ∃ w, Run Handles freshThread [⟨mixedEnv 4 12, ofBytes tcpPing, 58⟩] w ∧
      freshThread.tls.nonce_size = 12 ∧ w.tls.nonce_size = 4 ∧
      ∀ pkt pkt_len, answers (mixedEnv 4 12) freshThread.tls pkt pkt_len =
        answers (mixedEnv 4 12) w.tls pkt pkt_len := by
  have hrun : Run Handles freshThread [⟨mixedEnv 4 12, ofBytes tcpPing, 58⟩]
      (inbound_l3l4 (mixedEnv 4 12) freshThread (ofBytes tcpPing) 58).2 :=
    Run.single ⟨mixedEnv_peer 4 12, rfl⟩
  have hleft : (inbound_l3l4 (mixedEnv 4 12) freshThread (ofBytes tcpPing) 58).2.tls.nonce_size =
      4 := by decide +kernel
  have hcovered : Covered (mixedEnv 4 12).rt.fwd_cfg 12 ∧ Covered (mixedEnv 4 12).rt.fwd_cfg 4 := by
    unfold Covered
    decide +kernel
  refine ⟨_, hrun, rfl, hleft,
    (a_history_does_not_matter_iff_no_policy_is_smaller_than_what_it_leaves (mixedEnv_peer 4 12) rfl
      (Run.nil freshThread) hrun).mpr (Or.inr ⟨hcovered.1, ?_⟩)⟩
  rw [hleft]
  exact hcovered.2

/-- The header of `udpPing` without its data, encrypted under policy 7. -/
def shortFrame : EncResult :=
  crypto_layer3_encrypt sampleOpenssl (crypto_apply_from_policy (ctrPolicy 4) {})
    ((mixedEnv 16 4).rt.active.ctx 1) 0 (ofBytes udpPing) 42

/-- Any packet that names no L3 policy leaves the nonce size of policy 8. -/
theorem a_datagram_is_known_before_a_packet_and_unknown_after_it :
    ∃ w, Run Handles freshThread [⟨mixedEnv 16 4, ofBytes tcpPing, 58⟩] w ∧
      shortFrame.ret = some 48 ∧
      (answers (mixedEnv 16 4) freshThread.tls shortFrame.pkt 48).l3_policy_id = some 7 ∧
      (answers (mixedEnv 16 4) w.tls shortFrame.pkt 48).l3_policy_id = none :=
  ⟨(inbound_l3l4 (mixedEnv 16 4) freshThread (ofBytes tcpPing) 58).2,
    Run.single ⟨mixedEnv_peer 16 4, rfl⟩, by rfl, by decide +kernel, by decide +kernel⟩

end ne_ip.wan_history
