-- The worker of the forwarder (worker_thread in forwarder.c): what it sends to the WAN
-- for one packet of its ring.
import NeIp.Flow
import NeIp.Forwarder
import NeIp.Reassembly

open byte_buf ne_ip.packet_crypto ne_ip.config ne_ip.crypto_layer2 ne_ip.crypto_layer3
open ne_ip.crypto_layer4 ne_ip.fragment ne_ip.reassembly ne_ip.forwarder ne_ip.flow

namespace ne_ip.worker

/-- `struct packet_job`, with the packet that it points to. -/
structure PacketJob where
  local_idx : Nat
  pkt : Buf
  pkt_len : Nat
  addr : Nat

/-- What a thread that sends to the WAN finds: the runtime, its own settings, the counter of
packet ids, and its two buffers for fragments. -/
structure LanEnv where
  o : Openssl
  rt : Runtime
  tls : Tls
  pkt_id_counter : Nat
  frag1 : Buf
  frag2 : Buf
  /-- `select_wan_idx_for_packet`, or without a flow `select_wan_idx_nonip_flow`. -/
  select_wan_idx : (local_idx : Nat) → Option FlowKey → Buf → (pkt_len : Nat) → Int
  /-- The index of the policy that `tcp_policy_pin_lookup` finds for a TCP flow, or else
  `select_crypto_policy_for_packet`. -/
  select_policy : (local_idx : Nat) → FlowKey → Option Nat
  /-- The two addresses that `wan_rewrite_dest_mac` has for an interface at its call `call`;
  `none` as long as ARP has no answer. -/
  wan_macs : (call wan_idx : Nat) → Option (Vector UInt8 12)
  /-- Whether the TX ring has room for the frame of the send `call`. -/
  tx_ok : (call : Nat) → Bool

/-- What a thread has done with a packet: the frames that the TX ring took, the two counters
of the forwarder, and what it leaves of the counters for nonces and ids and of its settings. -/
structure Outbound where
  sent : List Bytes := []
  sends : Nat := 0
  local_to_wan : Nat := 0
  total_dropped : Nat := 0
  nonce_counter : Nat
  pkt_id_counter : Nat
  tls : Tls

def Outbound.start (e : LanEnv) : Outbound where
  nonce_counter := e.rt.nonce_counter
  pkt_id_counter := e.pkt_id_counter
  tls := e.tls

def Outbound.drop (r : Outbound) : Outbound := { r with total_dropped := r.total_dropped + 1 }

/-- `interface_send_batch_queue` and the counter after it. -/
def Outbound.send (e : LanEnv) (r : Outbound) (pkt : Buf) (pkt_len : Nat) : Outbound :=
  if e.tx_ok r.sends then
    { r with
      sent := r.sent ++ [read pkt 0 pkt_len]
      sends := r.sends + 1
      local_to_wan := r.local_to_wan + 1 }
  else { r with sends := r.sends + 1, total_dropped := r.total_dropped + 1 }

def set_wan_l2_addrs (e : LanEnv) (call wan_idx : Nat) (pkt : Buf) : Option Buf :=
  if wan_idx < e.rt.fwd_cfg.wans.length then
    (e.wan_macs call wan_idx).map fun macs => write pkt 0 macs.toList
  else none

/-- The WAN interface of a packet, the first one when the selection gives none. -/
def wan_of (e : LanEnv) (job : PacketJob) : Nat :=
  let wan_idx :=
    e.select_wan_idx job.local_idx (parse_flow job.pkt job.pkt_len) job.pkt job.pkt_len
  if wan_idx < 0 ∨ (e.rt.fwd_cfg.wans.length : Int) ≤ wan_idx then 0 else wan_idx.toNat

/-! ## What to do with a packet -/

/-- A packet goes out as it is, under a policy, or not at all. -/
inductive Choice where
  | drop
  | bypass
  | encrypt (pi : Nat) (cp : CryptoPolicy)

/-- The choice of `worker_thread` when crypto is on. -/
def choose (e : LanEnv) (local_idx : Nat) : Option FlowKey → Choice
  | none => .bypass
  | some flow =>
    match (e.select_policy local_idx flow).bind fun pi =>
        (e.rt.fwd_cfg.policies[pi]?).map fun cp => (pi, cp) with
    | some (pi, cp) =>
      if cp.action = .bypass then .bypass
      else if pi < MAX_CRYPTO_POLICIES ∧ e.rt.active.ready pi then .encrypt pi cp
      else .bypass
    | none => if e.rt.fwd_cfg.policies = [] then .bypass else .drop

def layer_of : PolicyAction → Option Layer
  | .bypass => none
  | .encrypt_l2 => some .l2
  | .encrypt_l3 => some .l3
  | .encrypt_l4 => some .l4

/-- `crypto_layer2_encrypt`, `crypto_layer3_encrypt` and `crypto_layer4_encrypt`. -/
def encrypt_at (o : Openssl) (fake : Nat) : Layer → Tls → PacketCryptoCtx → (counter : Nat) →
    (pkt : Buf) → (pkt_len : Nat) → EncResult
  | .l2 => crypto_layer2_encrypt o fake
  | .l3 => crypto_layer3_encrypt o
  | .l4 => crypto_layer4_encrypt o

/-! ## The worker -/

def send_plain (e : LanEnv) (wan_idx : Nat) (job : PacketJob) : Outbound :=
  match set_wan_l2_addrs e 0 wan_idx job.pkt with
  | none => (Outbound.start e).drop
  | some pkt => (Outbound.start e).send e pkt job.pkt_len

/-- The two sends of a packet that is split, once both fragments have their addresses. -/
def send_split (e : LanEnv) (wan_idx : Nat) (l : Layer) (tls : Tls) (ctx : PacketCryptoCtx)
    (r : Outbound) (pkt : Buf) (pkt_len : Nat) : Outbound :=
  let s := l.split e.o e.rt.fake_ethertype_ipv4 tls ctx e.rt.nonce_counter e.pkt_id_counter pkt
    pkt_len e.frag1 e.frag2
  let r := { r with nonce_counter := s.counter, pkt_id_counter := s.pkt_id_counter }
  match s.frags with
  | none => r.drop
  | some (f1, f2) =>
    match set_wan_l2_addrs e 1 wan_idx f1.1, set_wan_l2_addrs e 2 wan_idx f2.1 with
    | some pkt1, some pkt2 => (r.send e pkt1 f1.2).send e pkt2 f2.2
    | _, _ => r.drop

/-- The send of a packet that is encrypted whole. -/
def send_whole (e : LanEnv) (r : Outbound) (s : EncResult) : Outbound :=
  let r := { r with nonce_counter := s.counter }
  match s.ret with
  | none => r.drop
  | some new_len => r.send e s.pkt new_len

/-- The part of `worker_thread` for a policy that encrypts, which the thread has taken over. -/
def send_encrypted (e : LanEnv) (wan_idx : Nat) (l : Layer) (tls : Tls) (ctx : PacketCryptoCtx)
    (job : PacketJob) : Outbound :=
  let r := { Outbound.start e with tls }
  match set_wan_l2_addrs e 0 wan_idx job.pkt with
  | none => r.drop
  | some pkt =>
    if l.need_split tls job.pkt_len then send_split e wan_idx l tls ctx r pkt job.pkt_len
    else
      send_whole e r
        (encrypt_at e.o e.rt.fake_ethertype_ipv4 l tls ctx e.rt.nonce_counter pkt job.pkt_len)

/-- The body of the loop of `worker_thread`, up to the release of the packet's frame. -/
def worker_packet (e : LanEnv) (job : PacketJob) : Outbound :=
  if !e.rt.crypto_enabled then send_plain e (wan_of e job) job
  else
    match choose e job.local_idx (parse_flow job.pkt job.pkt_len) with
    | .drop => (Outbound.start e).drop
    | .bypass => send_plain e (wan_of e job) job
    | .encrypt pi cp =>
      match layer_of cp.action with
      | none => (Outbound.start e).drop
      | some l =>
        send_encrypted e (wan_of e job) l (crypto_apply_from_policy cp e.tls) (e.rt.active.ctx pi) job

/-- The addresses that a job hands back at `release_local`. -/
def release_local (local_count : Nat) (job : PacketJob) : List Nat :=
  if job.local_idx < local_count then [job.addr] else []

/-! ## What a send adds -/

theorem sent_send (e : LanEnv) (r : Outbound) (pkt : Buf) (pkt_len : Nat) :
    (r.send e pkt pkt_len).sent =
      r.sent ++ if e.tx_ok r.sends then [read pkt 0 pkt_len] else [] := by
  unfold Outbound.send
  split
  · rfl
  · exact (List.append_nil _).symm

/-- Only the two addresses change. -/
theorem set_wan_l2_addrs_out {e : LanEnv} {call wan_idx : Nat} {pkt out : Buf}
    (h : set_wan_l2_addrs e call wan_idx pkt = some out) {i : Nat} (hi : 12 ≤ i) :
    out i = pkt i := by
  unfold set_wan_l2_addrs at h
  split at h
  · obtain ⟨macs, -, rfl⟩ := Option.map_eq_some_iff.mp h
    exact write_out _ _ _ _ (by rw [Vector.length_toList]; omega)
  · simp at h

/-- A buffer that a frame was copied to. -/
theorem copy_of_read {frame : Bytes} {out : Buf} {n : Nat} (h : frame = read out 0 n) (rest : Buf) :
    frame.length = n ∧ ∀ i, i < n → write rest 0 frame i = out i := by
  subst h
  refine ⟨length_read _ _ _, fun i hi => ?_⟩
  rw [write_read_in _ _ _ _ _ _ (Nat.zero_le i) (by omega), Nat.sub_zero, Nat.zero_add]

/-- The policy of a choice. -/
theorem choose_encrypt {e : LanEnv} {local_idx pi : Nat} {flow : Option FlowKey} {cp : CryptoPolicy}
    (h : choose e local_idx flow = .encrypt pi cp) :
    e.rt.fwd_cfg.policies[pi]? = some cp ∧ cp.action ≠ .bypass ∧ e.rt.active.ready pi = true := by
  cases flow with
  | none => simp [choose] at h
  | some flow =>
    unfold choose at h
    dsimp only at h
    split at h
    · rename_i pi' cp' hbind
      obtain ⟨pj, -, hmap⟩ := Option.bind_eq_some_iff.mp hbind
      obtain ⟨cp'', hcp, heq⟩ := Option.map_eq_some_iff.mp hmap
      obtain ⟨rfl, rfl⟩ := Prod.mk.inj heq
      split at h
      · simp at h
      rename_i hact
      split at h
      · rename_i hready
        obtain ⟨rfl, rfl⟩ := Choice.encrypt.inj h
        exact ⟨hcp, hact, hready.2⟩
      · simp at h
    · split at h
      · simp at h
      · simp at h

/-- A packet under a ready policy that encrypts. -/
structure ReadyPolicy (e : LanEnv) (job : PacketJob) (pi : Nat) (cp : CryptoPolicy) (l : Layer) :
    Prop where
  enabled : e.rt.crypto_enabled = true
  selected : (parse_flow job.pkt job.pkt_len).bind (e.select_policy job.local_idx) = some pi
  policy : e.rt.fwd_cfg.policies[pi]? = some cp
  layer : layer_of cp.action = some l
  ready : e.rt.active.ready pi = true
  initialized : (e.rt.active.ctx pi).initialized = true

theorem ReadyPolicy.worker_packet_eq {e : LanEnv} {job : PacketJob} {pi : Nat} {cp : CryptoPolicy}
    {l : Layer} (h : ReadyPolicy e job pi cp l) :
    worker_packet e job = send_encrypted e (wan_of e job) l (crypto_apply_from_policy cp e.tls)
      (e.rt.active.ctx pi) job := by
  obtain ⟨flow, hflow, hsel⟩ := Option.bind_eq_some_iff.mp h.selected
  have hpi : pi < MAX_CRYPTO_POLICIES :=
    (List.getElem?_eq_some_iff.mp h.policy).1.trans_le e.rt.fwd_cfg.policies_le
  have hact : cp.action ≠ .bypass := by
    intro hb
    have hl := h.layer
    rw [hb] at hl
    simp [layer_of] at hl
  have hchoose : choose e job.local_idx (some flow) = .encrypt pi cp := by
    unfold choose
    simp only [hsel, Option.bind_some, h.policy, Option.map_some]
    rw [if_neg hact, if_pos ⟨hpi, h.ready⟩]
  unfold worker_packet
  rw [h.enabled, hflow, hchoose]
  simp only [Bool.not_true, Bool.false_eq_true, if_false, h.layer]

end ne_ip.worker
