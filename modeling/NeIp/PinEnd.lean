-- The end of a connection and its pin (worker_thread in forwarder.c): a packet with FIN or RST
-- removes the entry of its flow at one place, which some of the packets that are sent jump over.
import NeIp.CleartextLeak
import NeIp.PinMap

open byte_buf ne_ip.packet_crypto ne_ip.config ne_ip.crypto_layer4 ne_ip.flow ne_ip.fragment
open ne_ip.forwarder ne_ip.worker ne_ip.policy_select ne_ip.tcp_policy_pin ne_ip.pin_reload
open ne_ip.pin_map ne_ip.sample ne_ip.cleartext_leak ne_ip.reassembly ne_ip.flow_table

namespace ne_ip.pin_end

def TH_FIN : UInt8 := 0x01
def TH_RST : UInt8 := 0x04

/-! ## The worker and the pins -/

def tcp_ipv4_tcp_flags (pkt : Buf) (pkt_len : Nat) : Option UInt8 :=
  match crypto_eth_ipv4_offset pkt pkt_len with
  | none => none
  | some l3_off =>
    if pkt_len < l3_off + 20 then none
    else if pkt (l3_off + 9) ≠ IPPROTO_TCP then none
    else
      let ip_hdr_len := ip_hdr_len_at pkt l3_off
      if ip_hdr_len < 20 then none
      else if pkt_len < l3_off + ip_hdr_len + 14 then none
      else some (pkt (l3_off + ip_hdr_len + 13))

/-- FIN or RST is set. -/
def ends_connection (pkt : Buf) (pkt_len : Nat) : Bool :=
  match tcp_ipv4_tcp_flags pkt pkt_len with
  | none => false
  | some tcp_flags => tcp_flags &&& (TH_FIN ||| TH_RST) != 0

/-- A flow with its addresses as the CPU loads them, which is how the pins have them. -/
def as_loaded (f : FlowKey) : FlowKey :=
  { f with src_ip := ntohl f.src_ip, dst_ip := ntohl f.dst_ip }

/-- The policy that the pin of a TCP flow names, or else the one that matches. -/
def pinned_or_selected (rt : Runtime) (now : Nat) (pins : PinTable) (local_idx : Nat)
    (f : FlowKey) :
    Option Nat :=
  (if f.protocol = IPPROTO_TCP then (tcp_policy_pin_lookup rt now (as_loaded f) pins).1
    else none).or (crypto_select_policy_for_local rt.fwd_cfg local_idx f)

/-- What the worker finds, with the pins as they are. -/
def with_pins (e : LanEnv) (now : Nat) (pins : PinTable) : LanEnv :=
  { e with select_policy := pinned_or_selected e.rt now pins }

/-- Whether the worker comes to its `tcp_policy_pin_remove`, past every jump. -/
def reaches_remove (e : LanEnv) (job : PacketJob) : Bool :=
  if !e.rt.crypto_enabled then (set_wan_l2_addrs e 0 (wan_of e job) job.pkt).isSome
  else
    match choose e job.local_idx (parse_flow job.pkt job.pkt_len) with
    | .drop => false
    | .bypass => false
    | .encrypt pi cp =>
      match layer_of cp.action, set_wan_l2_addrs e 0 (wan_of e job) job.pkt with
      | some l, some pkt =>
        let tls := crypto_apply_from_policy cp e.tls
        if l.need_split tls job.pkt_len then
          match (l.split e.o e.rt.fake_ethertype_ipv4 tls (e.rt.active.ctx pi) e.rt.nonce_counter
              e.pkt_id_counter pkt job.pkt_len e.frag1 e.frag2).frags with
          | none => false
          | some (f1, f2) =>
            (set_wan_l2_addrs e 1 (wan_of e job) f1.1).isSome &&
              (set_wan_l2_addrs e 2 (wan_of e job) f2.1).isSome
        else
          (encrypt_at e.o e.rt.fake_ethertype_ipv4 l tls (e.rt.active.ctx pi) e.rt.nonce_counter pkt
            job.pkt_len).ret.isSome
      | _, _ => false

/-- What becomes of the pins for a packet of a TCP flow: the lookup, the set of a policy that can be
used, and the remove where the worker comes to it. -/
def flow_pins (rt : Runtime) (now : Nat) (pins : PinTable) (local_idx : Nat) (f : FlowKey)
    (removes : Bool) : PinTable :=
  let looked_up := (tcp_policy_pin_lookup rt now (as_loaded f) pins).2
  match pinned_or_selected rt now pins local_idx f with
  | none => looked_up
  | some pi =>
    let pins := if pin_usable rt pi then
        tcp_policy_pin_set rt.crypto_enabled now (as_loaded f) pi looked_up
      else looked_up
    if removes then tcp_policy_pin_remove rt.crypto_enabled (as_loaded f) pins else pins

/-- The pins after the worker is done with a packet. -/
def worker_thread_pins (e : LanEnv) (now : Nat) (pins : PinTable) (job : PacketJob) : PinTable :=
  match parse_flow job.pkt job.pkt_len with
  | none => pins
  | some f =>
    if !e.rt.crypto_enabled ∨ f.protocol ≠ IPPROTO_TCP then pins
    else
      flow_pins e.rt now pins job.local_idx f
        (reaches_remove (with_pins e now pins) job && ends_connection job.pkt job.pkt_len)

/-! ## The jumps -/

/-- A jump to the release before anything is sent. -/
theorem sent_nil_of_not_reaches {e : LanEnv} {job : PacketJob} {pi : Nat} {cp : CryptoPolicy}
    (hon : e.rt.crypto_enabled = true)
    (hchoose : choose e job.local_idx (parse_flow job.pkt job.pkt_len) = .encrypt pi cp)
    (h : reaches_remove e job = false) : (worker_packet e job).sent = [] := by
  unfold reaches_remove at h
  unfold worker_packet
  rw [hon, hchoose] at h ⊢
  simp only [Bool.not_true, Bool.false_eq_true, if_false] at h ⊢
  cases hl : layer_of cp.action with
  | none => rfl
  | some l =>
    rw [hl] at h
    unfold send_encrypted
    dsimp only
    cases hset : set_wan_l2_addrs e 0 (wan_of e job) job.pkt with
    | none => rfl
    | some pkt =>
      rw [hset] at h
      dsimp only at h ⊢
      split at h
      · rename_i hsplit
        rw [if_pos hsplit]
        unfold send_split
        dsimp only
        generalize l.split e.o e.rt.fake_ethertype_ipv4 (crypto_apply_from_policy cp e.tls)
          (e.rt.active.ctx pi) e.rt.nonce_counter e.pkt_id_counter pkt job.pkt_len e.frag1
          e.frag2 = s at h ⊢
        rcases hfrags : s.frags with _ | ⟨f1, f2⟩
        · rfl
        · rw [hfrags] at h
          dsimp only at h ⊢
          rw [Bool.and_eq_false_iff] at h
          split
          · rename_i h1 h2
            rw [h1, h2] at h
            simp at h
          · rfl
      · rename_i hsplit
        rw [if_neg hsplit]
        unfold send_whole
        dsimp only
        rw [Option.isSome_eq_false_iff, Option.isNone_iff_eq_none] at h
        rw [h]
        rfl

/-! ## What is left of the pin -/

/-- No bucket has an entry of the flow. -/
def NoEntry (pins : PinTable) (f : FlowKey) : Prop := ∀ i, ∀ a ∈ pins i, key_ends a.key ≠ ends f

theorem noEntry_iff {pins : PinTable} {m : PinMap} (h : Represents pins m) {f : FlowKey} :
    NoEntry pins f ↔ m (ends f) = none := by
  constructor
  · intro hno
    cases hm : m (ends f) with
    | none => rfl
    | some v =>
      obtain ⟨i, a, ha, hends, -⟩ := h.mem_flow_iff.mp hm
      exact absurd hends (hno i a ha)
  · intro hm i a ha hends
    have hsome := h.mem_flow_iff.mpr ⟨i, a, ha, hends, rfl⟩
    rw [hm] at hsome
    simp at hsome

theorem noEntry_remove {pins : PinTable} {m : PinMap} (h : Represents pins m) (f : FlowKey) :
    NoEntry (tcp_policy_pin_remove true f pins) f := by
  have hrem := (h.step (.remove f)).2
  exact (noEntry_iff hrem).mpr (Function.update_self _ _ _)

/-- A lookup gives an index that can be used, or leaves no entry. -/
theorem lookup_usable_or_gone {rt : Runtime} {pins : PinTable} {m : PinMap}
    (hon : rt.crypto_enabled = true) (h : Represents pins m) (now : Nat) (f : FlowKey) :
    ∃ m', Represents (tcp_policy_pin_lookup rt now f pins).2 m' ∧
      match (tcp_policy_pin_lookup rt now f pins).1 with
      | some pi => pin_usable rt pi = true
      | none => m' (ends f) = none := by
  have hrt : { rt with crypto_enabled := true } = rt := by
    cases rt
    simp only at hon
    rw [hon]
  obtain ⟨hout, hnext⟩ := h.lookup rt now f
  dsimp only [PinCall.run] at hout hnext
  rw [hrt] at hout hnext
  refine ⟨_, hnext, ?_⟩
  rw [hout]
  dsimp only [PinCall.spec]
  cases hm : m (ends f) with
  | none => exact hm
  | some v =>
    dsimp only
    cases husable : pin_usable rt v.1 with
    | true =>
      rw [if_pos rfl]
      exact husable
    | false =>
      rw [if_neg Bool.false_ne_true]
      exact Function.update_self _ _ _

/-- An index that names a policy can be used if the policy bypasses, or has its context. -/
theorem pin_usable_of_policy {rt : Runtime} {pi : Nat} {cp : CryptoPolicy}
    (h : rt.fwd_cfg.policies[pi]? = some cp) :
    pin_usable rt pi = (cp.action == .bypass || rt.active.ready pi) := by
  have hpi : pi < MAX_CRYPTO_POLICIES :=
    (List.getElem?_eq_some_iff.mp h).1.trans_le rt.fwd_cfg.policies_le
  unfold pin_usable
  rw [h]
  simp [hpi]

theorem policy_of_pin_usable {rt : Runtime} {pi : Nat} (h : pin_usable rt pi = true) :
    pi < MAX_CRYPTO_POLICIES ∧ ∃ cp, rt.fwd_cfg.policies[pi]? = some cp := by
  unfold pin_usable at h
  split at h
  · simp at h
  · simp only [Bool.and_eq_true, decide_eq_true_eq] at h
    exact ⟨h.1, _, ‹_›⟩

/-- What the worker does with a packet that has a policy. -/
theorem choose_of_policy {e : LanEnv} {local_idx pi : Nat} {f : FlowKey} {cp : CryptoPolicy}
    (hsel : e.select_policy local_idx f = some pi) (hcp : e.rt.fwd_cfg.policies[pi]? = some cp) :
    choose e local_idx (some f) =
      if cp.action = .bypass then .bypass
      else if e.rt.active.ready pi then .encrypt pi cp else .bypass := by
  have hpi : pi < MAX_CRYPTO_POLICIES :=
    (List.getElem?_eq_some_iff.mp hcp).1.trans_le e.rt.fwd_cfg.policies_le
  unfold choose
  simp only [hsel, Option.bind_some, hcp, Option.map_some, hpi, true_and]

/-- What is left of the pin of the flow: one that was set stays where the remove is not reached. -/
theorem flow_pins_noEntry_iff {rt : Runtime} {now local_idx : Nat} {f : FlowKey} {pins : PinTable}
    {m : PinMap} (hon : rt.crypto_enabled = true) (htcp : f.protocol = IPPROTO_TCP)
    (h : Represents pins m) (removes : Bool) :
    NoEntry (flow_pins rt now pins local_idx f removes) (as_loaded f) ↔
      (removes = true ∨ ∀ pi, pinned_or_selected rt now pins local_idx f = some pi →
        pin_usable rt pi = false) := by
  obtain ⟨m', hrep, hlook⟩ := lookup_usable_or_gone hon h now (as_loaded f)
  unfold flow_pins pinned_or_selected
  rw [if_pos htcp, hon]
  dsimp only
  generalize tcp_policy_pin_lookup rt now (as_loaded f) pins = r at hrep hlook ⊢
  cases hpol : r.1.or (crypto_select_policy_for_local rt.fwd_cfg local_idx f) with
  | none =>
    obtain ⟨hnone, -⟩ := Option.or_eq_none_iff.mp hpol
    rw [hnone] at hlook
    simp only [reduceCtorEq, false_implies, implies_true, or_true, iff_true]
    exact (noEntry_iff hrep).mpr hlook
  | some pi =>
    have hcond : (removes = true ∨ ∀ pi', some pi = some pi' → pin_usable rt pi' = false) ↔
        (removes = true ∨ pin_usable rt pi = false) := by
      simp
    rw [hcond]
    dsimp only
    cases husable : pin_usable rt pi with
    | true =>
      -- the pin is set, and only the remove takes it away
      rw [if_pos rfl]
      have hset := hrep.set now (as_loaded f) (policy_of_pin_usable husable).1
      cases removes with
      | true =>
        simp only [if_true, true_or, iff_true]
        exact noEntry_remove hset (as_loaded f)
      | false =>
        simp only [Bool.false_eq_true, if_false, Bool.true_eq_false, or_self, iff_false]
        rw [noEntry_iff hset, Function.update_self]
        simp
    | false =>
      -- a pinned policy could be used, so the flow has no pin
      have hgone : m' (ends (as_loaded f)) = none := by
        cases hr : r.1 with
        | none =>
          rw [hr] at hlook
          exact hlook
        | some pi' =>
          rw [hr] at hlook hpol
          rw [Option.some_or] at hpol
          obtain rfl := Option.some.inj hpol
          exact absurd (husable.symm.trans hlook) Bool.false_ne_true
      simp only [Bool.false_eq_true, if_false, or_true, iff_true]
      split
      · exact noEntry_remove hrep (as_loaded f)
      · exact (noEntry_iff hrep).mpr hgone

/-- The end of a connection takes its pin away, in whatever state the calls have left the table,
exactly when the policy that the packet gets does not bypass. -/
theorem a_sent_end_of_a_connection_leaves_no_pin_iff_its_policy_does_not_bypass {e : LanEnv}
    {cs : List PinCall} {now : Nat} {job : PacketJob} {f : FlowKey}
    (hon : e.rt.crypto_enabled = true) (hflow : parse_flow job.pkt job.pkt_len = some f)
    (htcp : f.protocol = IPPROTO_TCP) (hend : ends_connection job.pkt job.pkt_len = true)
    (hsent : (worker_packet (with_pins e now (pins_after cs).2) job).sent ≠ []) :
    NoEntry (worker_thread_pins e now (pins_after cs).2 job) (as_loaded f) ↔
      ∀ pi cp, pinned_or_selected e.rt now (pins_after cs).2 job.local_idx f = some pi →
        e.rt.fwd_cfg.policies[pi]? = some cp → cp.action ≠ .bypass := by
  have hrep := (Represents.empty.run_calls cs).2
  change Represents (pins_after cs).2 _ at hrep
  generalize (pins_after cs).2 = pins at *
  unfold worker_thread_pins
  rw [hflow]
  dsimp only
  rw [if_neg (by simp [hon, htcp]), flow_pins_noEntry_iff hon htcp hrep, hend, Bool.and_true]
  constructor
  · rintro hor pi cp hpol hcp hbypass
    have husable : pin_usable e.rt pi = true := by
      rw [pin_usable_of_policy hcp, hbypass]
      rfl
    rcases hor with hreach | hno
    · have hchoose := choose_of_policy (e := with_pins e now pins) hpol hcp
      rw [if_pos hbypass, ← hflow] at hchoose
      unfold reaches_remove at hreach
      rw [hchoose] at hreach
      simp [with_pins, hon] at hreach
    · rw [hno pi hpol] at husable
      exact absurd husable Bool.false_ne_true
  · intro hact
    by_cases hno : ∀ pi, pinned_or_selected e.rt now pins job.local_idx f = some pi →
        pin_usable e.rt pi = false
    · exact Or.inr hno
    · -- a policy that can be used and does not bypass encrypts
      refine Or.inl ?_
      push Not at hno
      obtain ⟨pi, hpol, husable⟩ := hno
      rw [ne_eq, Bool.not_eq_false] at husable
      obtain ⟨-, cp, hcp⟩ := policy_of_pin_usable husable
      rw [pin_usable_of_policy hcp, beq_false_of_ne (hact pi cp hpol hcp), Bool.false_or] at husable
      have hchoose := choose_of_policy (e := with_pins e now pins) hpol hcp
      have hready : (with_pins e now pins).rt.active.ready pi = true := husable
      rw [if_neg (hact pi cp hpol hcp), if_pos hready, ← hflow] at hchoose
      by_contra hreach
      rw [Bool.not_eq_true] at hreach
      exact hsent (sent_nil_of_not_reaches hon hchoose hreach)

/-- A thread with one WAN and one policy. -/
def endEnv (action : PolicyAction) : LanEnv :=
  { l3Env with
    rt := (init_crypto sampleOpenssl {} 1
      { sampleCfg [samplePolicy 7 action] one_policy_le with
        wans := [{ ifname := [0x77, 0x61, 0x6e, 0x30] }]
        wans_le := one_interface_le } Runtime.boot).2 }

/-- `tcpPing` with FIN in the place of PSH. -/
def tcpFin : Bytes := tcpPing.set 47 0x11

def finFlow : FlowKey := ⟨0x0a000001, 0x0a000102, 40000, 80, 6⟩

theorem an_encrypted_fin_leaves_no_pin :
    NoEntry (worker_thread_pins (endEnv .encrypt_l3) 6 (pins_after [.set 5 webFlow 0]).2 (udpJob tcpFin))
      (as_loaded finFlow) := by
  refine (a_sent_end_of_a_connection_leaves_no_pin_iff_its_policy_does_not_bypass (f := finFlow)
    (by decide +kernel) (by decide +kernel) rfl (by decide +kernel) (by decide +kernel)).mpr ?_
  intro pi cp hpol hcp
  have hpol' : pinned_or_selected (endEnv .encrypt_l3).rt 6 (pins_after [.set 5 webFlow 0]).2 0
      finFlow = some 0 := by decide +kernel
  obtain rfl := Option.some.inj (hpol'.symm.trans hpol)
  obtain rfl := Option.some.inj
    (hcp.symm.trans (show _ = some (samplePolicy 7 .encrypt_l3) from rfl))
  decide

/-- A flow with a bypass policy is pinned at 5 s. Its FIN is sent at 6 s, and the pin is there
still, as new as the packet. -/
theorem a_fin_under_a_bypass_policy_keeps_its_pin :
    (endEnv .bypass).rt.crypto_enabled = true ∧
    parse_flow (ofBytes tcpFin) 58 = some finFlow ∧ finFlow.protocol = IPPROTO_TCP ∧
    ends_connection (ofBytes tcpFin) 58 = true ∧
    (worker_packet (with_pins (endEnv .bypass) 6 (pins_after [.set 5 webFlow 0]).2)
      (udpJob tcpFin)).sent =
      [[0x02, 0x01, 0x00, 0x00, 0x00, 0x02, 0x02, 0x01, 0x00, 0x00, 0x00, 0x01] ++ tcpFin.drop 12] ∧
    ¬NoEntry (worker_thread_pins (endEnv .bypass) 6 (pins_after [.set 5 webFlow 0]).2 (udpJob tcpFin))
      (as_loaded finFlow) := by
  have hpins : worker_thread_pins (endEnv .bypass) 6 (pins_after [.set 5 webFlow 0]).2 (udpJob tcpFin)
      (tcp_policy_pin_hash (pin_key webFlow)) = [⟨pin_key webFlow, 0, 6⟩] := by decide +kernel
  refine ⟨by decide +kernel, by decide +kernel, rfl, by decide +kernel, by decide +kernel, ?_⟩
  intro hno
  refine hno (tcp_policy_pin_hash (pin_key webFlow)) ⟨pin_key webFlow, 0, 6⟩ ?_ (by decide +kernel)
  rw [hpins]
  exact List.mem_singleton_self _

end ne_ip.pin_end
