-- The bodies of the six receive loops (local_queue_thread_no_crypto and its siblings in
-- forwarder.c): what a thread does with one packet of its batch, and which addresses it
-- hands back for it before it hands back the batch.
import NeIp.CircularBuffer
import NeIp.WanQueue
import NeIp.Worker

open circular_buffer byte_buf ne_ip.packet_crypto ne_ip.config ne_ip.crypto_dispatch
open ne_ip.reassembly ne_ip.forwarder ne_ip.flow ne_ip.wan_queue ne_ip.worker

namespace ne_ip.queue_loops

def WORKER_RING_SIZE : Nat := 4096

/-! ## The LAN side -/

/-- The body of `local_queue_thread_no_crypto`. -/
def local_packet_no_crypto (e : LanEnv) (job : PacketJob) : Outbound :=
  send_plain e (wan_of e job) job

/-- `encrypt_packet_with_ctx`, with the layer that `packet_encrypt` finds. -/
def encrypt_packet_with_ctx (e : LanEnv) (encrypt_layer : Nat) (tls : Tls) (ctx : PacketCryptoCtx)
    (pkt : Buf) (pkt_len : Nat) : EncResult :=
  if !e.rt.crypto_enabled then { ret := some pkt_len, pkt, counter := e.rt.nonce_counter }
  else
    packet_encrypt e.o e.rt.fake_ethertype_ipv4 encrypt_layer tls ctx e.rt.nonce_counter pkt pkt_len

/-- The body of `local_queue_thread_l2`, which has the addresses before it has the policy. -/
def local_packet_l2 (e : LanEnv) (encrypt_layer : Nat) (job : PacketJob) : Outbound :=
  let wan_idx := wan_of e job
  let flow := parse_flow job.pkt job.pkt_len
  let r := Outbound.start e
  match set_wan_l2_addrs e 0 wan_idx job.pkt with
  | none => r.drop
  | some pkt =>
    match (flow.bind (e.select_policy job.local_idx)).bind fun pi =>
        (e.rt.fwd_cfg.policies[pi]?).map fun cp => (pi, cp) with
    | some (pi, cp) =>
      if cp.action = .encrypt_l2 ∧ pi < MAX_CRYPTO_POLICIES ∧ e.rt.active.ready pi = true then
        let tls := crypto_apply_from_policy cp e.tls
        let ctx := e.rt.active.ctx pi
        let r := { r with tls }
        if Layer.l2.need_split tls job.pkt_len then
          send_split e wan_idx .l2 tls ctx r pkt job.pkt_len
        else
          send_whole e r (encrypt_packet_with_ctx e encrypt_layer tls ctx pkt job.pkt_len)
      else r.send e pkt job.pkt_len
    | none =>
      if flow.isSome ∧ e.rt.fwd_cfg.policies ≠ [] then r.drop
      else
        send_whole e r (encrypt_packet_with_ctx e encrypt_layer e.tls e.rt.base_ctx pkt job.pkt_len)

/-- `g_worker_ring`. -/
abbrev WorkerRing : Type := Ring PacketJob WORKER_RING_SIZE

/-- The ring as `forwarder_run_l3` and `forwarder_run_l4` set it up. -/
def WorkerRing.start : WorkerRing where
  slots _ := { local_idx := 0, pkt := ofBytes [], pkt_len := 0, addr := 0 }
  head := 0
  tail := 0
  head_lt := by decide
  tail_lt := by decide

/-- The body of `local_queue_thread_l3l4`: the packet goes to the worker, or its address goes
back at once. -/
def local_packet_l3l4 (ring : WorkerRing) (job : PacketJob) : List Nat × WorkerRing :=
  match ring.push job with
  | some ring => ([], ring)
  | none => ([job.addr], ring)

/-! ## The WAN side -/

/-- What a thread that sends to the LAN finds: what it decrypts with, the queues of the LAN
interfaces, its own index, and what ARP and the TX rings have for it. -/
structure InboundEnv extends WanEnv where
  w : WanThread
  queue_count : (local_idx : Nat) → Nat
  wan_worker_index : Int
  tx_base : Nat
  /-- The two addresses that `local_rewrite_dest_mac` has for a host; `none` at an ARP miss. -/
  local_macs : (local_idx : Nat) → (dest_ip : UInt32) → Option (Vector UInt8 12)
  local_tx_ok : (local_idx tq : Nat) → Bool

/-- What a thread has done with a packet: the frame that a LAN interface got in a queue, the
counters, and the addresses that it has handed back. -/
structure Delivered where
  sent : Option (Nat × Nat × Bytes) := none
  wan_to_local : Nat := 0
  total_dropped : Nat := 0
  dropped_bad_ip : Nat := 0
  dropped_no_local_match : Nat := 0
  dropped_local_tx_fail : Nat := 0
  released : List Nat := []

def set_local_l2_addrs (e : InboundEnv) (local_idx : Nat) (dest_ip : UInt32) (pkt : Buf) :
    Option Buf :=
  if local_idx < e.rt.fwd_cfg.locals.length ∧ dest_ip ≠ 0 then
    (e.local_macs local_idx dest_ip).map fun macs => write pkt 0 macs.toList
  else none

/-- The queue of a LAN interface for a packet. -/
def local_tq (e : InboundEnv) (local_idx : Nat) (pkt : Buf) (pkt_len : Nat) : Nat :=
  let nq := if e.queue_count local_idx = 0 then 1 else e.queue_count local_idx
  match parse_flow pkt pkt_len with
  | some f => (flow_hash_local_tq f).toNat % nq
  | none => if 0 ≤ e.wan_worker_index then e.wan_worker_index.toNat % nq else e.tx_base % nq

/-- The end of the three loops, with the addresses that an ARP miss hands back. -/
def send_to_local (e : InboundEnv) (on_arp_miss : List Nat) (pkt : Buf) (pkt_len : Nat) :
    Delivered :=
  let dest_ip := get_dest_ip pkt pkt_len
  if dest_ip = 0 then { total_dropped := 1, dropped_bad_ip := 1 }
  else
    match config_find_local_for_ip e.rt.fwd_cfg dest_ip with
    | none => { total_dropped := 1, dropped_no_local_match := 1 }
    | some local_idx =>
      match set_local_l2_addrs e local_idx dest_ip pkt with
      | none => { total_dropped := 1, released := on_arp_miss }
      | some out =>
        let tq := local_tq e local_idx pkt pkt_len
        if e.local_tx_ok local_idx tq then
          { wan_to_local := 1, sent := some (local_idx, tq, read out 0 pkt_len) }
        else { total_dropped := 1, dropped_local_tx_fail := 1 }

/-- What follows the decryption. -/
def deliver (e : InboundEnv) : Inbound → Delivered
  | .dropped => { total_dropped := 1 }
  | .pending => {}
  | .packet pkt pkt_len => send_to_local e [] pkt pkt_len

/-- The body of `wan_queue_thread_no_crypto`. -/
def wan_packet_no_crypto (e : InboundEnv) (pkt : Buf) (pkt_len addr : Nat) : Delivered :=
  send_to_local e [addr] pkt pkt_len

/-- The body of `wan_queue_thread_l2`. -/
def wan_packet_l2 (e : InboundEnv) (pkt : Buf) (pkt_len : Nat) : Delivered × WanThread :=
  let r := receive_l2 e.toWanEnv e.w pkt pkt_len
  (deliver e r.1, r.2)

/-- The body of `wan_queue_thread_l3l4`. -/
def wan_packet_l3l4 (e : InboundEnv) (pkt : Buf) (pkt_len : Nat) : Delivered × WanThread :=
  let r := inbound_l3l4 e.toWanEnv e.w pkt pkt_len
  (deliver e r.1, r.2)

/-! ## The addresses that go back early -/

/-- The packet has a LAN, but ARP does not know its host. -/
def ArpMiss (e : InboundEnv) (pkt : Buf) (pkt_len : Nat) : Prop :=
  get_dest_ip pkt pkt_len ≠ 0 ∧
    ((config_find_local_for_ip e.rt.fwd_cfg (get_dest_ip pkt pkt_len)).any fun local_idx =>
      (set_local_l2_addrs e local_idx (get_dest_ip pkt pkt_len) pkt).isNone) = true

instance (e : InboundEnv) (pkt : Buf) (pkt_len : Nat) : Decidable (ArpMiss e pkt pkt_len) :=
  inferInstanceAs (Decidable (_ ∧ _))

theorem send_to_local_released (e : InboundEnv) (on_arp_miss : List Nat) (pkt : Buf)
    (pkt_len : Nat) :
    (send_to_local e on_arp_miss pkt pkt_len).released =
      if ArpMiss e pkt pkt_len then on_arp_miss else [] := by
  unfold send_to_local
  dsimp only
  split
  · rename_i hip
    rw [if_neg fun h : ArpMiss e pkt pkt_len => h.1 hip]
  rename_i hip
  split
  · rename_i hl
    rw [if_neg (by unfold ArpMiss; simp [hl])]
  rename_i local_idx hl
  split
  · rename_i hset
    rw [if_pos ⟨hip, by simp [hl, hset]⟩]
  · rename_i out hset
    have hno : ¬ArpMiss e pkt pkt_len := by
      unfold ArpMiss
      simp [hl, hset]
    rw [if_neg hno]
    split <;> rfl

/-- A loop that decrypts hands nothing back early. -/
theorem deliver_released (e : InboundEnv) (r : Inbound) : (deliver e r).released = [] := by
  cases r with
  | dropped => rfl
  | pending => rfl
  | packet pkt pkt_len =>
    unfold deliver
    rw [send_to_local_released, ite_self]

end ne_ip.queue_loops
