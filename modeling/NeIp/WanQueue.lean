-- What a WAN receive thread does with one packet before it looks for the LAN
-- (wan_queue_thread_l2, wan_queue_thread_l3l4 in forwarder.c).
import NeIp.Forwarder
import NeIp.Fragment

open byte_buf ne_ip.packet_crypto ne_ip.config ne_ip.crypto_dispatch ne_ip.crypto_layer2
open ne_ip.crypto_layer3 ne_ip.crypto_layer4 ne_ip.fragment ne_ip.forwarder

namespace ne_ip.wan_queue

/-- What a receive thread finds: the runtime, the two clocks, and what its buffer for
reassembled packets holds. -/
structure WanEnv where
  o : Openssl
  magic : UInt8
  rt : Runtime
  now_ms : Nat
  now_ns : Nat
  reass_buf : Buf
  scratch_sz : Nat := 8192

/-- The thread-local settings and the three tables of pending fragments. -/
structure WanThread where
  tls : Tls
  frag_l2 : FragTable
  frag_l3 : FragTable
  frag_l4 : FragTable

/-- What becomes of a received packet: it is dropped, it waits as the first half of another
one, or it goes on. -/
inductive Inbound where
  | dropped
  | pending
  | packet (pkt : Buf) (pkt_len : Nat)

def decrypt_packet_auto_l2 (e : WanEnv) (tls : Tls) (pkt : Buf) (pkt_len : Nat) :
    DispatchResult :=
  if !e.rt.crypto_enabled then { ok := false, pkt, pkt_len, tls }
  else if !l2_has_fake_marker e.rt.fake_ethertype_ipv4 pkt then { ok := true, pkt, pkt_len, tls }
  else
    match forwarder_resolve_l2_decrypt_ctx e.rt e.now_ms tls pkt with
    | none => { ok := false, pkt, pkt_len, tls }
    | some (ctx, tls) =>
      -- a policy of the index sets the encrypt layer to 2
      let layer := if e.rt.fwd_cfg.policies = [] then e.rt.fwd_cfg.encrypt_layer else 2
      match packet_decrypt e.o e.rt.fake_ethertype_ipv4 layer tls ctx pkt pkt_len with
      | (none, pkt) => { ok := false, pkt, pkt_len, tls }
      | (some new_len, pkt) => { ok := true, pkt, pkt_len := new_len, tls }

def decrypt_packet_auto_by_action (e : WanEnv) (action_layer : PolicyAction) (tls : Tls)
    (pkt : Buf) (pkt_len : Nat) : DispatchResult :=
  crypto_decrypt_packet_auto_by_action e.o e.magic e.rt.fake_ethertype_ipv4 e.rt.crypto_enabled
    e.rt.fwd_cfg (dispatch_ctx e.rt e.now_ms) action_layer tls pkt pkt_len e.scratch_sz

/-- What the branches for fragments do: resolve the context, decrypt, and put together. -/
def receive_fragment (reass_buf : Buf) (resolved : Option (PacketCryptoCtx × Tls))
    (decrypt_fragment : Tls → PacketCryptoCtx → Buf → Nat → Option (Nat × Nat × UInt8) × Buf)
    (try_reassemble : FragTable → Buf → Nat → Nat → UInt8 → Buf → Reassembled × FragTable)
    (ft : FragTable) (tls : Tls) (pkt : Buf) (pkt_len : Nat) : Inbound × FragTable × Tls :=
  match resolved with
  | none => (.dropped, ft, tls)
  | some (ctx, tls) =>
    match decrypt_fragment tls ctx pkt pkt_len with
    | (none, _) => (.dropped, ft, tls)
    | (some (nd, opid, ofidx), pkt) =>
      match try_reassemble ft pkt nd opid ofidx reass_buf with
      | (.pending, ft) => (.pending, ft, tls)
      | (.failed, ft) => (.dropped, ft, tls)
      | (.packet out reass_len, ft) => (.packet (write pkt 0 (read out 0 reass_len)) reass_len, ft, tls)

/-- A packet that a dispatch has decrypted goes on. -/
def inbound_of (r : DispatchResult) : Inbound := if r.ok then .packet r.pkt r.pkt_len else .dropped

def receive_l2 (e : WanEnv) (w : WanThread) (pkt : Buf) (pkt_len : Nat) : Inbound × WanThread :=
  match frag_is_fragment_l2 e.rt.fake_ethertype_ipv4 e.rt.fwd_cfg pkt pkt_len with
  | some _ =>
    let r := receive_fragment e.reass_buf
      (forwarder_resolve_l2_decrypt_ctx e.rt e.now_ms w.tls pkt)
      (crypto_layer2_decrypt_fragment e.o e.rt.fake_ethertype_ipv4)
      (frag_try_reassemble_l2 e.now_ns) w.frag_l2 w.tls pkt pkt_len
    (r.1, { w with frag_l2 := r.2.1, tls := r.2.2 })
  | none =>
    let r := decrypt_packet_auto_l2 e w.tls pkt pkt_len
    (inbound_of r, { w with tls := r.tls })

def receive_l3 (e : WanEnv) (w : WanThread) (pkt : Buf) (pkt_len : Nat) : Inbound × WanThread :=
  match frag_is_fragment w.tls e.rt.fwd_cfg pkt pkt_len with
  | some _ =>
    let r := receive_fragment e.reass_buf
      (forwarder_resolve_l3_decrypt_ctx e.magic e.rt e.now_ms w.tls pkt pkt_len)
      (crypto_layer3_decrypt_fragment e.o) (frag_try_reassemble e.now_ns) w.frag_l3 w.tls pkt
      pkt_len
    (r.1, { w with frag_l3 := r.2.1, tls := r.2.2 })
  | none =>
    let r := decrypt_packet_auto_by_action e .encrypt_l3 w.tls pkt pkt_len
    (inbound_of r, { w with tls := r.tls })

def receive_l4 (e : WanEnv) (w : WanThread) (pkt : Buf) (pkt_len : Nat) : Inbound × WanThread :=
  match frag_is_fragment_l4 w.tls e.rt.fwd_cfg pkt pkt_len with
  | some _ =>
    let r := receive_fragment e.reass_buf
      (forwarder_resolve_l4_decrypt_ctx e.rt e.now_ms w.tls pkt pkt_len)
      (crypto_layer4_decrypt_fragment e.o) (frag_try_reassemble_l4 e.now_ns) w.frag_l4 w.tls pkt
      pkt_len
    (r.1, { w with frag_l4 := r.2.1, tls := r.2.2 })
  | none =>
    let r := decrypt_packet_auto_by_action e .encrypt_l4 w.tls pkt pkt_len
    (inbound_of r, { w with tls := r.tls })

/-- The settings that `wan_queue_thread_l3l4` takes over before it decrypts: those of the L3
policy that the packet names, or the defaults. -/
def apply_inbound_params (e : WanEnv) (tls : Tls) (pkt : Buf) (pkt_len : Nat) : Tls :=
  if e.rt.crypto_enabled && e.rt.crypto_layer == 3 && !e.rt.fwd_cfg.policies.isEmpty then
    match (crypto_l3_extract_policy_id e.magic tls e.rt.fwd_cfg pkt pkt_len).bind fun policy_id =>
        resolve_policy e.rt e.now_ms .encrypt_l3 policy_id (fun _ => true) tls with
    | some (_, tls) => tls
    | none => crypto_apply_default_from_cfg e.rt.fwd_cfg tls
  else tls

/-- The packet part of `wan_queue_thread_l3l4` up to the plaintext. -/
def inbound_l3l4 (e : WanEnv) (w : WanThread) (pkt : Buf) (pkt_len : Nat) : Inbound × WanThread :=
  let w := { w with tls := apply_inbound_params e w.tls pkt pkt_len }
  let r :=
    if l2_has_fake_marker e.rt.fake_ethertype_ipv4 pkt then receive_l2 e w pkt pkt_len
    else (.packet pkt pkt_len, w)
  match r with
  | (.packet pkt pkt_len, w) =>
    if !e.rt.crypto_enabled then (.packet pkt pkt_len, w)
    else
      match receive_l3 e w pkt pkt_len with
      | (.packet pkt pkt_len, w) => receive_l4 e w pkt pkt_len
      | r => r
  | r => r

end ne_ip.wan_queue
