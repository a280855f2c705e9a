-- Two gateways and the network between them, which loses, repeats, delays and reorders
-- frames: what the far one hands to its LANs is what hosts gave to the near one.
import NeIp.L2Gateway
import NeIp.QueueLoops

open runs byte_buf ne_ip.packet_crypto ne_ip.tunnel ne_ip.config ne_ip.crypto_dispatch
open ne_ip.crypto_layer2 ne_ip.crypto_layer4 ne_ip.fragment ne_ip.forwarder ne_ip.flow
open ne_ip.wan_queue ne_ip.worker ne_ip.queue_loops ne_ip.reassembly ne_ip.split_round_trip
open ne_ip.l2_wire ne_ip.frag_delivery ne_ip.cleartext_leak ne_ip.l2_gateway ne_ip.sample

namespace ne_ip.l2_tunnel

/-! ## The two gateways -/

/-- Two gateways, each with the runtime of its last init. -/
structure Gateways where
  o : Openssl
  near : Runtime
  far : Runtime
  ns : Nat

/-- They use layer 2 alone, and the far one has every policy that the near one seals under. -/
structure Gateways.Paired (g : Gateways) : Prop where
  lawful : g.o.Lawful
  near : L2Gateway g.o g.near g.ns
  far : L2Gateway g.o g.far g.ns
  opens : ∀ p ctx, Seals g.near p ctx → ∃ pj q, Opens g.far p pj q

/-- The worker of the near gateway, what it was given and what it has sent, each frame with the
number of its packet; the tables and the receive threads of the far gateway, and what it has
handed to a LAN, with the queue. -/
structure State where
  nonce_counter : Nat
  pkt_id_counter : Nat
  tls : Tls
  given : List PacketJob
  wire : List (Nat × Bytes)
  frag_l2 : FragTable
  frag_l3 : FragTable
  frag_l4 : FragTable
  threads : Nat → Tls
  delivered : List (Nat × Nat × Bytes)

/-- Nothing was sent yet, and the far gateway has set up its tables. -/
structure State.Start (s : State) : Prop where
  given : s.given = []
  wire : s.wire = []
  frag_l2 : s.frag_l2 = frag_table_init
  threads : ∀ i, (s.threads i).evp_ok = true
  delivered : s.delivered = []

/-- The worker takes a packet; a copy of the frame number `frame` comes to a receive thread, in
a buffer that holds `rest` otherwise; the gc looks at the tables. The environments are what the
code meets there, the cipher contexts of its thread included, but for what the state has. -/
inductive Event where
  | send (env : LanEnv) (job : PacketJob)
  | arrive (env : InboundEnv) (thread frame : Nat) (rest : Buf)
  | gc (now : Nat)

/-- What the worker finds. -/
def Gateways.lan_env (g : Gateways) (s : State) (env : LanEnv) : LanEnv :=
  { env with
    o := g.o
    rt := { g.near with nonce_counter := s.nonce_counter }
    tls := { s.tls with gcm_enc := env.tls.gcm_enc }
    pkt_id_counter := s.pkt_id_counter }

/-- What a receive thread finds. -/
def Gateways.wan_env (g : Gateways) (s : State) (env : InboundEnv) (thread : Nat) : InboundEnv :=
  { env with
    o := g.o
    rt := g.far
    w :=
      { tls := { s.threads thread with gcm_dec := env.w.tls.gcm_dec }
        frag_l2 := s.frag_l2
        frag_l3 := s.frag_l3
        frag_l4 := s.frag_l4 } }

/-- A copy of frame number `frame` as a receive thread finds it. -/
def State.copy (s : State) (frame : Nat) (rest : Buf) : Option (Buf × Nat) :=
  (s.wire[frame]?).map fun f => (write rest 0 f.2, f.2.length)

def step (g : Gateways) (s : State) : Event → State
  | .send env job =>
    let r := worker_packet (g.lan_env s env) job
    { s with
      nonce_counter := r.nonce_counter
      pkt_id_counter := r.pkt_id_counter
      tls := r.tls
      given := s.given ++ [job]
      wire := s.wire ++ r.sent.map fun frame => (s.given.length, frame) }
  | .arrive env thread frame rest =>
    match s.copy frame rest with
    | none => s
    | some (pkt, pkt_len) =>
      let r := wan_packet_l3l4 (g.wan_env s env thread) pkt pkt_len
      { s with
        frag_l2 := r.2.frag_l2
        frag_l3 := r.2.frag_l3
        frag_l4 := r.2.frag_l4
        threads := fun i => if i = thread then r.2.tls else s.threads i
        delivered := s.delivered ++ r.1.sent.toList }
  | .gc now =>
    { s with
      frag_l2 := frag_table_gc now s.frag_l2
      frag_l3 := frag_table_gc now s.frag_l3
      frag_l4 := frag_table_gc now s.frag_l4 }

/-- The worker takes packets of hosts, none of which it makes look like a fragment, and it splits
no more than there are ids. Every call of AES-GCM that finds its key in the cache finds it in its
context too. -/
def Allowed (g : Gateways) (first : Nat) (s : State) : Event → Prop
  | .send env job =>
    HostPacket job.pkt job.pkt_len ∧ Unmistakable (g.lan_env s env) job ∧
      SealsInPlace (g.lan_env s env) job ∧ s.pkt_id_counter < first + 65536
  | .arrive env thread frame rest =>
    ∀ pkt pkt_len, s.copy frame rest = some (pkt, pkt_len) →
      OpensInPlace (g.wan_env s env thread).toWanEnv (g.wan_env s env thread).w.tls pkt
  | .gc _ => True

/-! ## A packet and its copies -/

/-- The packet of a host, behind any addresses. -/
def SamePacket (job : PacketJob) (out : Buf) : Prop :=
  ∀ i, 12 ≤ i → i < job.pkt_len → out i = job.pkt i

section

variable {job : PacketJob} {out : Buf}

theorem SamePacket.be16 (h : SamePacket job out) {off : Nat} (hoff : 12 ≤ off)
    (hlen : off + 1 < job.pkt_len) : be16 out off = be16 job.pkt off :=
  be16_congr (h off hoff (by omega)) (h (off + 1) (by omega) hlen)

theorem SamePacket.ip_at (h : SamePacket job out) {off : Nat} (hoff : 12 ≤ off)
    (hlen : off + 3 < job.pkt_len) : ip_at out off = ip_at job.pkt off := by
  unfold flow.ip_at
  rw [h.be16 hoff (by omega), h.be16 (Nat.le_add_right_of_le hoff) (by omega)]

theorem SamePacket.get_dest_ip (h : SamePacket job out) (h34 : 34 ≤ job.pkt_len) :
    get_dest_ip out job.pkt_len = get_dest_ip job.pkt job.pkt_len := by
  have hE : ETH_HEADER_SIZE = 14 := rfl
  unfold flow.get_dest_ip
  rw [h.be16 (show 12 ≤ 12 by omega) (by omega), h.ip_at (by omega) (by omega)]

theorem SamePacket.parse_flow (h : SamePacket job out) (h34 : 34 ≤ job.pkt_len)
    (h4 : byte_buf.be16 job.pkt 12 = 0x0800) :
    parse_flow out job.pkt_len = parse_flow job.pkt job.pkt_len := by
  have hoff : crypto_eth_ipv4_offset job.pkt job.pkt_len = some 14 := by
    unfold crypto_eth_ipv4_offset
    rw [if_neg (by omega), if_pos h4]
  have hoff' : crypto_eth_ipv4_offset out job.pkt_len = some 14 := by
    unfold crypto_eth_ipv4_offset
    rw [if_neg (by omega), if_pos ((h.be16 (by omega) (by omega)).trans h4)]
  have hihl : ip_hdr_len_at out 14 = ip_hdr_len_at job.pkt 14 := by
    unfold ip_hdr_len_at
    rw [h 14 (by omega) (by omega)]
  have hports : ∀ off, 14 ≤ off → off + 8 ≤ job.pkt_len →
      byte_buf.be16 out off = byte_buf.be16 job.pkt off ∧
        byte_buf.be16 out (off + 2) = byte_buf.be16 job.pkt (off + 2) := fun off h14 hlen =>
    ⟨h.be16 (by omega) (by omega), h.be16 (by omega) (by omega)⟩
  unfold flow.parse_flow
  rw [hoff, hoff']
  dsimp only
  rw [h.ip_at (show 12 ≤ 14 + 12 by omega) (by omega),
    h.ip_at (show 12 ≤ 14 + 16 by omega) (by omega),
    h (14 + 9) (by omega) (by omega), hihl]
  by_cases h20 : ip_hdr_len_at job.pkt 14 < 20
  · rw [if_pos h20, if_pos h20]
  by_cases htcp : job.pkt (14 + 9) = IPPROTO_TCP
  · by_cases hlen : job.pkt_len < 14 + ip_hdr_len_at job.pkt 14 + 20
    · rw [if_neg h20, if_neg h20, if_pos htcp, if_pos htcp, if_pos hlen, if_pos hlen]
    · rw [(hports _ (by omega) (by omega)).1, (hports _ (by omega) (by omega)).2]
  by_cases hudp : job.pkt (14 + 9) = IPPROTO_UDP
  · by_cases hlen : job.pkt_len < 14 + ip_hdr_len_at job.pkt 14 + 8
    · rw [if_neg h20, if_neg h20, if_neg htcp, if_neg htcp, if_pos hudp, if_pos hudp, if_pos hlen,
        if_pos hlen]
    · rw [(hports _ (by omega) (by omega)).1, (hports _ (by omega) (by omega)).2]
  · rw [if_neg h20, if_neg h20, if_neg htcp, if_neg htcp, if_neg hudp, if_neg hudp]

/-- A copy of a packet goes to the LAN that the packet would go to, as the same frame. -/
theorem send_to_local_congr (h : SamePacket job out) (h34 : 34 ≤ job.pkt_len)
    (h4 : byte_buf.be16 job.pkt 12 = 0x0800) (e : InboundEnv) (on_arp_miss : List Nat) :
    send_to_local e on_arp_miss out job.pkt_len =
      send_to_local e on_arp_miss job.pkt job.pkt_len := by
  have htq : ∀ local_idx, local_tq e local_idx out job.pkt_len =
      local_tq e local_idx job.pkt job.pkt_len := by
    intro local_idx
    unfold local_tq
    rw [h.parse_flow h34 h4]
  have hread : ∀ macs : Vector UInt8 12, read (write out 0 macs.toList) 0 job.pkt_len =
      read (write job.pkt 0 macs.toList) 0 job.pkt_len := by
    intro macs
    refine read_congr fun i _ hi => write_congr_at fun hout => h i ?_ (by omega)
    rw [Vector.length_toList] at hout
    omega
  unfold send_to_local
  rw [h.get_dest_ip h34]
  dsimp only
  split
  · rfl
  split
  · rfl
  rename_i local_idx _
  unfold set_local_l2_addrs
  by_cases hin : local_idx < e.rt.fwd_cfg.locals.length ∧ get_dest_ip job.pkt job.pkt_len ≠ 0
  · rw [if_pos hin, if_pos hin]
    cases e.local_macs local_idx (get_dest_ip job.pkt job.pkt_len) with
    | none => rfl
    | some macs =>
      simp only [Option.map_some]
      rw [htq, hread]
  · rw [if_neg hin, if_neg hin]

end

/-! ## What is on the wire and in the table -/

/-- A frame is what the worker made of the packet with its number. `splits` has the halves of
every packet that was split, by the number that it drew. -/
def Genuine (g : Gateways) (first : Nat) (splits : Nat → Parts) (given : List PacketJob)
    (drawn : Nat) (f : Nat × Bytes) : Prop :=
  ∃ job, given[f.1]? = some job ∧ HostPacket job.pkt job.pkt_len ∧
    (IsPlain job f.2 ∨ IsWhole g.o g.near g.ns job f.2 ∨
      ∃ n, first ≤ n ∧ n < drawn ∧ SplitOf (splits n) job n ∧
        (IsHalf g.o g.near (splits n).packet (splits n).plain1 (splits n).id 0 f.2 ∨
          ∃ packet, IsHalf g.o g.near packet (splits n).plain2 (splits n).id 1 f.2))

/-- The entry holds the first half of one of the packets that were split. -/
def Waits (first : Nat) (splits : Nat → Parts) (drawn : Nat) (entry : FragEntry) : Prop :=
  ∃ n, first ≤ n ∧ n < drawn ∧ (splits n).id = n % 65536 ∧ Holds .l2 (splits n) entry

structure Sound (g : Gateways) (first : Nat) (splits : Nat → Parts) (s : State) : Prop where
  ids : first ≤ s.pkt_id_counter ∧ s.pkt_id_counter ≤ first + 65536
  frames : ∀ f ∈ s.wire, Genuine g first splits s.given s.pkt_id_counter f
  table : ∀ i, (s.frag_l2 i).valid = true → Waits first splits s.pkt_id_counter (s.frag_l2 i)
  threads : ∀ i, (s.threads i).evp_ok = true

theorem Gateways.Paired.key {g : Gateways} (h : g.Paired) {p : CryptoPolicy} {ctx : PacketCryptoCtx}
    (hp : Seals g.near p ctx) : KeyOf g.o p ctx := by
  obtain ⟨-, pi, hpi, hready, rfl⟩ := hp
  exact congrArg PacketCryptoCtx.key_current (h.near.tables.ctx_eq pi p hpi hready)

/-- The nonce counter is no part of what a gateway is. -/
theorem gateway_with_counter {o : Openssl} {rt : Runtime} {ns : Nat} (h : L2Gateway o rt ns)
    (n : Nat) : L2Gateway o { rt with nonce_counter := n } ns :=
  ⟨⟨h.enabled, h.layer, h.encrypt_layer, h.fake_protocol, h.nonce_size, h.tables, h.indexed,
    h.distinct⟩, h.fake, h.policies, h.action, h.nonce_size_l2, h.nonce_ge, h.nonce_le⟩

section

variable {g : Gateways} {first : Nat} {splits splits' : Nat → Parts} {given : List PacketJob}
  {drawn drawn' : Nat}

/-- What was sent stays what it was when the worker goes on. -/
theorem Genuine.mono {f : Nat × Bytes} (h : Genuine g first splits given drawn f)
    (hs : ∀ n, n < drawn → splits' n = splits n) (hd : drawn ≤ drawn') (more : List PacketJob) :
    Genuine g first splits' (given ++ more) drawn' f := by
  obtain ⟨job, hjob, hhost, hkind⟩ := h
  refine ⟨job, ?_, hhost, ?_⟩
  · rw [List.getElem?_append_left (List.getElem?_eq_some_iff.mp hjob).1, hjob]
  · rcases hkind with hplain | hwhole | ⟨n, h1, h2, hsplit, hhalf⟩
    · exact Or.inl hplain
    · exact Or.inr (Or.inl hwhole)
    · refine Or.inr (Or.inr ⟨n, h1, by omega, ?_⟩)
      rw [hs n h2]
      exact ⟨hsplit, hhalf⟩

theorem Waits.mono {entry : FragEntry} (h : Waits first splits drawn entry)
    (hs : ∀ n, n < drawn → splits' n = splits n) (hd : drawn ≤ drawn') :
    Waits first splits' drawn' entry := by
  obtain ⟨n, h1, h2, hid, hholds⟩ := h
  refine ⟨n, h1, by omega, ?_⟩
  rw [hs n h2]
  exact ⟨hid, hholds⟩

/-- Two numbers of one window with one id are the same. -/
theorem number_of_id {n n' : Nat} (h1 : first ≤ n) (h2 : n < first + 65536) (h1' : first ≤ n')
    (h2' : n' < first + 65536) (h : n % 65536 = n' % 65536) : n = n' := by
  omega

/-! ## The near gateway -/

/-- The frames of a new packet are made of it. -/
theorem Sound.send {s : State} (hg : g.Paired) (h : Sound g first splits s) {env : LanEnv}
    {job : PacketJob} (ha : Allowed g first s (.send env job)) :
    ∃ splits', Sound g first splits' (step g s (.send env job)) := by
  obtain ⟨hhost, hu, hin, hids⟩ := ha
  have hsends := worker_sends (e := g.lan_env s env) hg.lawful (gateway_with_counter hg.near _)
    hhost hu hin
  have hge := h.ids.1
  have hlast : (s.given ++ [job])[s.given.length]? = some job := List.getElem?_concat_length
  -- what is kept, whatever the worker did
  have hkeep : ∀ {sent : List Bytes} {id : Nat} {splits' : Nat → Parts},
      (worker_packet (g.lan_env s env) job).sent = sent →
      (worker_packet (g.lan_env s env) job).pkt_id_counter = id →
      (∀ n, n < s.pkt_id_counter → splits' n = splits n) →
      s.pkt_id_counter ≤ id → id ≤ s.pkt_id_counter + 1 →
      (∀ frame ∈ sent, Genuine g first splits' (s.given ++ [job]) id (s.given.length, frame)) →
      Sound g first splits' (step g s (.send env job)) := by
    intro sent id splits' hsent hid hs hle hle' hnew
    refine ⟨?_, ?_, ?_, h.threads⟩
    · show first ≤ (worker_packet (g.lan_env s env) job).pkt_id_counter ∧
        (worker_packet (g.lan_env s env) job).pkt_id_counter ≤ first + 65536
      rw [hid]
      omega
    · intro f hf
      show Genuine g first splits' (s.given ++ [job])
        (worker_packet (g.lan_env s env) job).pkt_id_counter f
      rw [hid]
      rcases List.mem_append.mp hf with hold | hadd
      · exact (h.frames f hold).mono hs hle _
      · rw [hsent] at hadd
        obtain ⟨frame, hframe, rfl⟩ := List.mem_map.mp hadd
        exact hnew frame hframe
    · intro i hi
      show Waits first splits' (worker_packet (g.lan_env s env) job).pkt_id_counter (s.frag_l2 i)
      rw [hid]
      exact (h.table i hi).mono hs hle
  generalize hsent : (worker_packet (g.lan_env s env) job).sent = sent at hsends hkeep
  generalize hid : (worker_packet (g.lan_env s env) job).pkt_id_counter = id at hsends hkeep
  have hdrawn : (g.lan_env s env).pkt_id_counter = s.pkt_id_counter := rfl
  cases hsends with
  | nothing hdraw =>
    exact ⟨splits, hkeep rfl rfl (fun _ _ => rfl) (by omega) (by omega) (by simp)⟩
  | @plain frame hplain =>
    refine ⟨splits, hkeep rfl rfl (fun _ _ => rfl) (by omega) (by omega) fun frame' hf => ?_⟩
    obtain rfl := List.mem_singleton.mp hf
    exact ⟨job, hlast, hhost, Or.inl hplain⟩
  | @whole frame hwhole =>
    refine ⟨splits, hkeep rfl rfl (fun _ _ => rfl) (by omega) (by omega) fun frame' hf => ?_⟩
    obtain rfl := List.mem_singleton.mp hf
    exact ⟨job, hlast, hhost, Or.inr (Or.inl hwhole)⟩
  | @split p packet frame1 frame2 _ hsplit hhalf1 hhalf2 hsub =>
    refine ⟨fun n => if n = s.pkt_id_counter then p else splits n,
      hkeep rfl rfl (fun n hn => if_neg (by omega)) (by omega) (by omega) fun frame' hf => ?_⟩
    refine ⟨job, hlast, hhost, Or.inr (Or.inr ⟨s.pkt_id_counter, hge, by omega, ?_⟩)⟩
    dsimp only
    rw [if_pos rfl]
    refine ⟨hsplit, ?_⟩
    rcases List.mem_pair.mp (hsub.subset hf) with rfl | rfl
    · exact Or.inl hhalf1
    · exact Or.inr ⟨packet, hhalf2⟩

end

/-! ## The far gateway -/

/-- With this frame the far gateway has all of a packet: it is no fragment, or a second one whose
first one waits. -/
def Complete (e : WanEnv) (w : WanThread) (pkt : Buf) (pkt_len : Nat) : Bool :=
  match frag_is_fragment_l2 e.rt.fake_ethertype_ipv4 e.rt.fwd_cfg pkt pkt_len with
  | none => true
  | some (id, idx) =>
    idx == 1 && (take_pending w.frag_l2 (id % FRAG_TABLE_SIZE) id e.now_ns).1.isSome

/-- A receive thread gets the packet exactly when it is complete, and its table is as sound as
before. -/
structure Received (first : Nat) (splits : Nat → Parts) (drawn : Nat) (job : PacketJob)
    (complete : Bool) (r : Inbound × WanThread) : Prop where
  thread : r.2.tls.evp_ok = true
  table : ∀ i, (r.2.frag_l2 i).valid = true → Waits first splits drawn (r.2.frag_l2 i)
  packet : complete = true → ∃ out, r.1 = .packet out job.pkt_len ∧ SamePacket job out
  part : complete = false → r.1 = .pending ∨ r.1 = .dropped

section

variable {e : WanEnv} {ns first drawn : Nat} {splits : Nat → Parts} {job : PacketJob}
  {w : WanThread}

theorem marked_of_host (hjob : HostPacket job.pkt job.pkt_len) {pkt : Buf}
    (hpkt : SamePacket job pkt) : l2_has_fake_marker 0x88b5 pkt = false := by
  have hplain := hjob.plain
  have hlen := hplain.len
  unfold l2_has_fake_marker
  rw [hpkt 12 (by omega) (by omega), hplain.ethertype.1]
  decide

/-- A plain frame goes on as it is. -/
theorem received_plain (hr : L2Gateway e.o e.rt ns) (hjob : HostPacket job.pkt job.pkt_len)
    (hw : w.tls.evp_ok = true)
    (ht : ∀ i, (w.frag_l2 i).valid = true → Waits first splits drawn (w.frag_l2 i))
    {frame : Bytes} (h : IsPlain job frame) (rest : Buf) :
    Received first splits drawn job (Complete e w (write rest 0 frame) frame.length)
      (inbound_l3l4 e w (write rest 0 frame) frame.length) := by
  obtain ⟨pkt, hpkt, hframe⟩ := h
  obtain ⟨hlen, hcopy⟩ := copy_of_read hframe rest
  have hsame : SamePacket job (write rest 0 frame) := fun i h12 hi =>
    (hcopy i hi).trans (hpkt i h12)
  have hmark := marked_of_host hjob hsame
  have hcomplete : Complete e w (write rest 0 frame) frame.length = true := by
    unfold Complete frag_is_fragment_l2
    rw [hr.fake, hmark, if_pos (Or.inr (by decide))]
  rw [hr.inbound, hr.fake, hmark, hcomplete, hlen]
  exact ⟨hw, ht, fun _ => ⟨_, rfl, hsame⟩, by simp⟩

/-- A frame that is encrypted whole is opened. -/
theorem received_whole (ho : e.o.Lawful) (hr : L2Gateway e.o e.rt ns) {near : Runtime}
    (hopens : ∀ p ctx, Seals near p ctx → KeyOf e.o p ctx ∧ ∃ pj q, Opens e.rt p pj q)
    (hjob : HostPacket job.pkt job.pkt_len) (hw : w.tls.evp_ok = true)
    (ht : ∀ i, (w.frag_l2 i).valid = true → Waits first splits drawn (w.frag_l2 i))
    {frame : Bytes} (h : IsWhole e.o near ns job frame) (rest : Buf)
    (hkey : OpensInPlace e w.tls (write rest 0 frame)) :
    Received first splits drawn job (Complete e w (write rest 0 frame) frame.length)
      (inbound_l3l4 e w (write rest 0 frame) frame.length) := by
  have hE : ETH_HEADER_SIZE = 14 := rfl
  obtain ⟨p, tls, ctx, counter, pkt, out, hp, hpkt, henc, hf, haddrs, hm, hframe⟩ := h
  obtain ⟨hk, pj, q, hq⟩ := hopens p ctx hp
  obtain ⟨hlen, hcopy⟩ := copy_of_read hframe rest
  have hplain := l2Plain_readdressed hjob.plain hpkt
  have h34 := hplain.len
  have hns : (crypto_apply_from_policy p tls).nonce_size = ns := by
    rw [← hr.nonce_size_l2 q (List.mem_of_getElem? hq.policy) hq.same.action.2, hq.same.nonce_size]
    rfl
  have hf' := l2Frame_congr (c := write rest 0 frame) (by omega) hf (by rw [hns]; exact hcopy)
  have hm' : write rest 0 frame (ETH_HEADER_SIZE + ns) ≠ L2_FRAG_MAGIC := by
    rw [hcopy _ (by omega)]
    exact hm
  have hmark : l2_has_fake_marker 0x88b5 (write rest 0 frame) = true := by
    unfold l2_has_fake_marker
    rw [hf'.marker]
    decide
  obtain ⟨opened, hin, hout⟩ := receive_l2_of_frame ho hr hq hk hplain hf'
    (fun i hi => (hcopy i (by omega)).trans (haddrs i hi)) hm' henc (defaults e w) hw hkey
  have hcomplete : Complete e w (write rest 0 frame) frame.length = true := by
    unfold Complete
    rw [not_a_fragment_without_the_magic hr.nonce_size_l2 _ hm']
  rw [hr.inbound, hcomplete, hr.fake, hmark, if_pos rfl, hlen, hin]
  exact ⟨hw, ht, fun _ => ⟨opened, rfl, fun i h12 hi => (hout i hi).trans (hpkt i h12)⟩, by simp⟩

/-- What both halves of a packet have in common at the far gateway. -/
theorem received_half (ho : e.o.Lawful) (hr : L2Gateway e.o e.rt ns) {near : Runtime}
    (hopens : ∀ p ctx, Seals near p ctx → KeyOf e.o p ctx ∧ ∃ pj q, Opens e.rt p pj q)
    (hw : w.tls.evp_ok = true) {packet : Buf} {plain : Bytes} {id : Nat} {idx : UInt8}
    (hid : id % 65536 = id) (hidx : idx ≤ 1) {frame : Bytes}
    (h : IsHalf e.o near packet plain id idx frame) (rest : Buf)
    (hkey : OpensInPlace e w.tls (write rest 0 frame)) :
    frag_is_fragment_l2 e.rt.fake_ethertype_ipv4 e.rt.fwd_cfg (write rest 0 frame) frame.length =
      some (id, idx) ∧
    ∃ half tls, tls.evp_ok = true ∧ read half 14 plain.length = plain ∧
      (∀ i, i < 12 → half i = packet i) ∧
      ∀ r ft,
        frag_try_reassemble_l2 e.now_ns w.frag_l2 half (14 + plain.length) id idx e.reass_buf =
          (r, ft) →
        inbound_l3l4 e w (write rest 0 frame) frame.length =
          (inbound_of_reassembled half r, { w with frag_l2 := ft, tls }) := by
  obtain ⟨p, tls, ctx, counter, out, n, hp, henc, hf, h13, hframe⟩ := h
  obtain ⟨hk, pj, q, hq⟩ := hopens p ctx hp
  obtain ⟨hlen, hcopy⟩ := copy_of_read hframe rest
  have hf' := hf.congr hcopy
  have h13' : write rest 0 frame 13 = p.wire_id := by
    have hE : ETH_HEADER_SIZE = 14 := rfl
    have hn := hf.len
    rw [hcopy 13 (by omega), h13]
  have hfrag := frag_is_fragment_l2_eq hr hq hf' hidx
  rw [hid] at hfrag
  obtain ⟨half, hplain, hhead, hjoin⟩ := receive_l2_of_fragment ho hr hq hk hf' h13' hidx
    henc (defaults e w) hw hkey
  rw [hid] at hjoin
  refine ⟨by rw [hlen]; exact hfrag, half, crypto_apply_from_policy q (defaults e w).tls, hw,
    hplain, hhead, fun r ft hr' => ?_⟩
  rw [hr.inbound, hr.fake, hf'.marked, if_pos rfl, hlen, hjoin r ft hr']
  rfl

/-- A first half waits. -/
theorem received_first (ho : e.o.Lawful) (hr : L2Gateway e.o e.rt ns) {near : Runtime}
    (hopens : ∀ p ctx, Seals near p ctx → KeyOf e.o p ctx ∧ ∃ pj q, Opens e.rt p pj q)
    (hw : w.tls.evp_ok = true)
    (ht : ∀ i, (w.frag_l2 i).valid = true → Waits first splits drawn (w.frag_l2 i)) {n : Nat}
    (h1 : first ≤ n) (h2 : n < drawn) (hs : SplitOf (splits n) job n) {frame : Bytes}
    (h : IsHalf e.o near (splits n).packet (splits n).plain1 (splits n).id 0 frame) (rest : Buf)
    (hkey : OpensInPlace e w.tls (write rest 0 frame)) :
    Received first splits drawn job (Complete e w (write rest 0 frame) frame.length)
      (inbound_l3l4 e w (write rest 0 frame) frame.length) := by
  have hid : (splits n).id % 65536 = (splits n).id := by
    rw [hs.id, Nat.mod_mod]
  obtain ⟨hfrag, half, tls, htls, hplain, hhead, hjoin⟩ := received_half ho hr hopens hw hid
    (by decide) h rest hkey
  have hcomplete : Complete e w (write rest 0 frame) frame.length = false := by
    unfold Complete
    rw [hfrag]
    rfl
  have hopen : Opened .l2 (splits n) (splits n).plain1 half (14 + (splits n).plain1.length) :=
    ⟨rfl, hplain, fun i hi _ => hhead i hi⟩
  have hproto := first_proto_l2 hs.halves (wholeFrame_readdressed hs.whole hs.packet) hs.wf hs.sized
  have hle := hs.sized.first_le
  rcases try_reassemble_first hs.wf hopen e.now_ns w.frag_l2 e.reass_buf rfl with
    ⟨hno | hno, -⟩ | ⟨entry, hr', -, -, hholds⟩
  · exact absurd hno hproto
  · omega
  rw [hcomplete, hjoin _ _ hr']
  refine ⟨htls, fun i hi => ?_, by simp, fun _ => Or.inl rfl⟩
  dsimp only at hi ⊢
  unfold set_entry at hi ⊢
  split
  · exact ⟨n, h1, h2, hs.id, hholds⟩
  · rename_i hne
    rw [if_neg hne] at hi
    exact ht i hi

/-- A second half completes its packet, when the first one waits. -/
theorem received_second (ho : e.o.Lawful) (hr : L2Gateway e.o e.rt ns) {near : Runtime}
    (hopens : ∀ p ctx, Seals near p ctx → KeyOf e.o p ctx ∧ ∃ pj q, Opens e.rt p pj q)
    (hw : w.tls.evp_ok = true) (hdrawn : drawn ≤ first + 65536)
    (ht : ∀ i, (w.frag_l2 i).valid = true → Waits first splits drawn (w.frag_l2 i)) {n : Nat}
    (h1 : first ≤ n) (h2 : n < drawn) (hs : SplitOf (splits n) job n) {packet : Buf} {frame : Bytes}
    (h : IsHalf e.o near packet (splits n).plain2 (splits n).id 1 frame) (rest : Buf)
    (hkey : OpensInPlace e w.tls (write rest 0 frame)) :
    Received first splits drawn job (Complete e w (write rest 0 frame) frame.length)
      (inbound_l3l4 e w (write rest 0 frame) frame.length) := by
  have hid : (splits n).id % 65536 = (splits n).id := by
    rw [hs.id, Nat.mod_mod]
  obtain ⟨hfrag, half, tls, htls, hplain, hhead, hjoin⟩ := received_half ho hr hopens hw hid
    (by decide) h rest hkey
  have hcomplete : Complete e w (write rest 0 frame) frame.length =
      (take_pending w.frag_l2 ((splits n).id % FRAG_TABLE_SIZE) (splits n).id
        e.now_ns).1.isSome := by
    unfold Complete
    rw [hfrag]
    rfl
  -- the half with the addresses of the first one, which the table does not read
  let half' := write half 0 (read (splits n).packet 0 12)
  have hsame : ∀ i, 14 ≤ i → half i = half' i := fun i hi =>
    (write_out _ _ _ _ (by rw [length_read]; omega)).symm
  have hopen : Opened .l2 (splits n) (splits n).plain2 half' (14 + (splits n).plain2.length) := by
    refine ⟨rfl, ?_, fun i hi _ => ?_⟩
    · have hread : read half' 14 (splits n).plain2.length = read half 14 (splits n).plain2.length :=
        read_congr fun i hi _ => (hsame i hi).symm
      exact hread.trans hplain
    · show write half 0 (read (splits n).packet 0 12) i = (splits n).packet i
      rw [write_read_in _ _ _ _ _ _ (Nat.zero_le i) hi, Nat.sub_zero, Nat.zero_add]
  have hsecond := try_reassemble_second hs.wf hopen e.now_ns w.frag_l2 e.reass_buf rfl
  simp only [Layer.try_reassemble] at hsecond
  rw [← try_reassemble_l2_second_congr e.now_ns w.frag_l2 hsame] at hsecond
  generalize hr' : frag_try_reassemble_l2 e.now_ns w.frag_l2 half (14 + (splits n).plain2.length)
    (splits n).id 1 e.reass_buf = r at hsecond
  obtain ⟨joined, ft⟩ := r
  have hfrees : ∀ {ft : FragTable}, Frees w.frag_l2 ft → ∀ i, (ft i).valid = true →
      Waits first splits drawn (ft i) := by
    intro ft hf i hi
    rcases hf i with heq | hfree
    · rw [heq] at hi ⊢
      exact ht i hi
    · rw [hfree] at hi
      exact absurd hi Bool.false_ne_true
  rw [hcomplete, hjoin joined ft hr']
  rcases take_pending_cases w.frag_l2 ((splits n).id % FRAG_TABLE_SIZE) (splits n).id e.now_ns with
    ⟨ft', htake, hfree⟩ | ⟨htake, hvalid, hpkt⟩
  · obtain ⟨hfail, hft⟩ := hsecond.1 ft' htake
    dsimp only at hfail hft
    rw [htake, hfail]
    refine ⟨htls, ?_, by simp, fun _ => Or.inr rfl⟩
    rcases hft with rfl | rfl
    · exact hfrees hfree
    · exact ht
  -- what waits under the id of this half is the first half of the same packet
  obtain ⟨n', h1', h2', hid', hholds⟩ := ht _ hvalid
  obtain rfl : n' = n := number_of_id h1' (by omega) h1 (by omega) (by
    rw [← hid', ← hs.id, ← hholds.id, hpkt])
  rcases hsecond.2 htake hholds with ⟨hnot, -⟩ | ⟨-, out, ft', hout, hfree, hwhole⟩
  · exact absurd (hs.sized.fits .l2) hnot
  obtain ⟨rfl, rfl⟩ := Prod.mk.inj hout
  have hlen := whole_len_of hs.halves
  rw [htake, hlen]
  refine ⟨htls, hfrees hfree, fun _ => ⟨write half 0 (read out 0 job.pkt_len), rfl, ?_⟩, by simp⟩
  intro i h12 hi
  rw [write_read_in _ _ _ _ _ _ (Nat.zero_le i) (by omega), Nat.sub_zero, Nat.zero_add,
    hwhole i (by omega),
    whole_of hs.halves (wholeFrame_readdressed hs.whole hs.packet) fun hl => absurd rfl hl]
  exact hs.packet i h12

end

/-! ## Runs -/

/-- The frame is a packet of a host but for the two addresses, on the LAN that has its
destination. -/
def FromHost (g : Gateways) (given : List PacketJob) (d : Nat × Nat × Bytes) : Prop :=
  ∃ job ∈ given, d.2.2.length = job.pkt_len ∧ d.2.2.drop 12 = read job.pkt 12 (job.pkt_len - 12) ∧
    config_find_local_for_ip g.far.fwd_cfg (get_dest_ip job.pkt job.pkt_len) = some d.1

theorem drop_read (b : Buf) {m n : Nat} (h : m ≤ n) : (read b 0 n).drop m = read b m (n - m) := by
  have hadd := read_add b 0 m (n - m)
  rw [Nat.add_sub_of_le h, Nat.zero_add] at hadd
  rw [hadd, List.drop_left' (length_read _ _ _)]

theorem send_to_local_fromHost {g : Gateways} {e : InboundEnv} (he : e.rt = g.far)
    {given : List PacketJob} {job : PacketJob} (hjob : job ∈ given)
    (hhost : HostPacket job.pkt job.pkt_len) {on_arp_miss : List Nat} {d : Nat × Nat × Bytes}
    (h : (send_to_local e on_arp_miss job.pkt job.pkt_len).sent = some d) : FromHost g given d := by
  have hlen := hhost.plain.len
  unfold send_to_local at h
  dsimp only at h
  split at h
  · simp at h
  split at h
  · simp at h
  rename_i local_idx hlocal
  split at h
  · simp at h
  rename_i out hset
  split at h
  swap
  · simp at h
  obtain rfl := Option.some.inj h
  rw [he] at hlocal
  have hout : ∀ i, 12 ≤ i → out i = job.pkt i := by
    unfold set_local_l2_addrs at hset
    split at hset
    · obtain ⟨macs, -, rfl⟩ := Option.map_eq_some_iff.mp hset
      exact fun i hi => write_out _ _ _ _ (by rw [Vector.length_toList]; omega)
    · simp at hset
  refine ⟨job, hjob, length_read _ _ _, ?_, hlocal⟩
  dsimp only
  rw [drop_read _ (by omega)]
  exact read_congr fun i hi _ => hout i hi

/-- What a receive thread does with a copy that came. -/
theorem step_arrive (g : Gateways) {s : State} {frame : Nat} {rest pkt : Buf} {pkt_len : Nat}
    (hc : s.copy frame rest = some (pkt, pkt_len)) (env : InboundEnv) (thread : Nat) :
    step g s (.arrive env thread frame rest) =
      { s with
        frag_l2 := (wan_packet_l3l4 (g.wan_env s env thread) pkt pkt_len).2.frag_l2
        frag_l3 := (wan_packet_l3l4 (g.wan_env s env thread) pkt pkt_len).2.frag_l3
        frag_l4 := (wan_packet_l3l4 (g.wan_env s env thread) pkt pkt_len).2.frag_l4
        threads := fun i => if i = thread then
          (wan_packet_l3l4 (g.wan_env s env thread) pkt pkt_len).2.tls else s.threads i
        delivered := s.delivered ++
          (wan_packet_l3l4 (g.wan_env s env thread) pkt pkt_len).1.sent.toList } := by
  show (match s.copy frame rest with
    | none => s
    | some (pkt, pkt_len) => _) = _
  rw [hc]

section

variable {g : Gateways} {first : Nat} {splits : Nat → Parts} {s : State}

/-- What a receive thread makes of a copy of a frame. -/
theorem Sound.received (hg : g.Paired) (h : Sound g first splits s) {frame : Nat} {rest pkt : Buf}
    {pkt_len : Nat} (hc : s.copy frame rest = some (pkt, pkt_len)) {env : InboundEnv}
    {thread : Nat} (ha : Allowed g first s (.arrive env thread frame rest)) :
    ∃ f job, s.wire[frame]? = some f ∧ s.given[f.1]? = some job ∧ HostPacket job.pkt job.pkt_len ∧
      Received first splits s.pkt_id_counter job
        (Complete (g.wan_env s env thread).toWanEnv (g.wan_env s env thread).w pkt pkt_len)
        (inbound_l3l4 (g.wan_env s env thread).toWanEnv (g.wan_env s env thread).w pkt
          pkt_len) := by
  have hkey := ha pkt pkt_len hc
  obtain ⟨f, hf, heq⟩ := Option.map_eq_some_iff.mp hc
  obtain ⟨rfl, rfl⟩ := Prod.mk.inj heq
  obtain ⟨job, hjob, hhost, hkind⟩ := h.frames f (List.mem_of_getElem? hf)
  refine ⟨f, job, hf, hjob, hhost, ?_⟩
  have hopens : ∀ p ctx, Seals g.near p ctx → KeyOf g.o p ctx ∧ ∃ pj q, Opens g.far p pj q :=
    fun p ctx hp => ⟨hg.key hp, hg.opens p ctx hp⟩
  have hw := h.threads thread
  have hfar : L2Gateway (g.wan_env s env thread).toWanEnv.o (g.wan_env s env thread).toWanEnv.rt
      g.ns := hg.far
  rcases hkind with hplain | hwhole | ⟨n, h1, h2, hsplit, hfirst | ⟨packet, hsecond⟩⟩
  · exact received_plain hfar hhost hw h.table hplain rest
  · exact received_whole hg.lawful hfar hopens hhost hw h.table hwhole rest hkey
  · exact received_first hg.lawful hfar hopens hw h.table h1 h2 hsplit hfirst rest hkey
  · exact received_second hg.lawful hfar hopens hw h.ids.2 h.table h1 h2 hsplit hsecond rest hkey

/-- What is handed to a LAN for a copy of a frame: what would be handed to it for the packet
itself, if the packet is complete. -/
theorem Sound.delivered (hg : g.Paired) (h : Sound g first splits s) {frame : Nat} {rest pkt : Buf}
    {pkt_len : Nat} (hc : s.copy frame rest = some (pkt, pkt_len)) {env : InboundEnv}
    {thread : Nat} (ha : Allowed g first s (.arrive env thread frame rest)) :
    ∃ f job, s.wire[frame]? = some f ∧ s.given[f.1]? = some job ∧ HostPacket job.pkt job.pkt_len ∧
      (step g s (.arrive env thread frame rest)).delivered = s.delivered ++
        if Complete (g.wan_env s env thread).toWanEnv (g.wan_env s env thread).w pkt pkt_len then
          (send_to_local (g.wan_env s env thread) [] job.pkt job.pkt_len).sent.toList
        else [] := by
  obtain ⟨f, job, hf, hjob, hhost, hreceived⟩ := h.received hg hc ha
  refine ⟨f, job, hf, hjob, hhost, ?_⟩
  rw [step_arrive g hc]
  dsimp only
  congr 1
  unfold wan_packet_l3l4
  dsimp only
  split
  · rename_i hcomplete
    obtain ⟨out, hout, hsame⟩ := hreceived.packet hcomplete
    rw [hout]
    unfold deliver
    dsimp only
    rw [send_to_local_congr hsame hhost.plain.len (redirected_of_xdp hhost.redirected).ipv4]
  · rename_i hpart
    rcases hreceived.part (by simpa using hpart) with hr | hr
    · rw [hr]
      rfl
    · rw [hr]
      rfl

/-- A step of a run keeps the two gateways sound, and what it hands to a LAN is from a host. -/
theorem Sound.step (hg : g.Paired) (h : Sound g first splits s)
    (hd : ∀ d ∈ s.delivered, FromHost g s.given d) {e : Event} (ha : Allowed g first s e) :
    (∃ splits', Sound g first splits' (step g s e)) ∧
      ∀ d ∈ (l2_tunnel.step g s e).delivered, FromHost g (l2_tunnel.step g s e).given d := by
  cases e with
  | send env job =>
    refine ⟨h.send hg ha, fun d hdin => ?_⟩
    obtain ⟨job', hjob', hrest⟩ := hd d hdin
    exact ⟨job', List.mem_append_left _ hjob', hrest⟩
  | gc now =>
    refine ⟨⟨splits, h.ids, h.frames, fun i hi => ?_, h.threads⟩, hd⟩
    rcases frees_gc now s.frag_l2 i with heq | hfree
    · have hi' : (frag_table_gc now s.frag_l2 i).valid = true := hi
      show Waits first splits s.pkt_id_counter (frag_table_gc now s.frag_l2 i)
      rw [heq] at hi' ⊢
      exact h.table i hi'
    · exact absurd (hfree.symm.trans hi) Bool.false_ne_true
  | arrive env thread frame rest =>
    cases hc : s.copy frame rest with
    | none =>
      have hsame : l2_tunnel.step g s (.arrive env thread frame rest) = s := by
        show (match s.copy frame rest with
          | none => s
          | some (pkt, pkt_len) => _) = _
        rw [hc]
      rw [hsame]
      exact ⟨⟨splits, h⟩, hd⟩
    | some copy =>
      obtain ⟨pkt, pkt_len⟩ := copy
      obtain ⟨f, job, -, hjob, hhost, hreceived⟩ := h.received hg hc ha
      obtain ⟨f', job', -, hjob', hhost', hdel⟩ := h.delivered hg hc ha
      have hrest : l2_tunnel.step g s (.arrive env thread frame rest) =
          { s with
            frag_l2 := (inbound_l3l4 (g.wan_env s env thread).toWanEnv (g.wan_env s env thread).w
              pkt pkt_len).2.frag_l2
            frag_l3 := (l2_tunnel.step g s (.arrive env thread frame rest)).frag_l3
            frag_l4 := (l2_tunnel.step g s (.arrive env thread frame rest)).frag_l4
            threads := fun i => if i = thread then
              (inbound_l3l4 (g.wan_env s env thread).toWanEnv (g.wan_env s env thread).w pkt
                pkt_len).2.tls else s.threads i
            delivered := (l2_tunnel.step g s (.arrive env thread frame rest)).delivered } := by
        rw [step_arrive g hc]
        rfl
      rw [hrest]
      refine ⟨⟨splits, h.ids, h.frames, hreceived.table, fun i => ?_⟩, ?_⟩
      · dsimp only
        split
        · exact hreceived.thread
        · exact h.threads i
      · dsimp only
        rw [hdel]
        intro d hdin
        rcases List.mem_append.mp hdin with hold | hnew
        · exact hd d hold
        split at hnew
        · exact send_to_local_fromHost rfl (List.mem_of_getElem? hjob') hhost'
            (Option.mem_toList.mp hnew)
        · simp at hnew

/-- At the start there is nothing to say. -/
theorem State.Start.sound (h : s.Start) (splits : Nat → Parts) :
    Sound g s.pkt_id_counter splits s := by
  refine ⟨⟨Nat.le_refl _, Nat.le_add_right _ _⟩, ?_, fun i hi => ?_, h.threads⟩
  · rw [h.wire]
    simp
  · rw [h.frag_l2] at hi
    exact absurd hi Bool.false_ne_true

/-- After a run that only allowed steps make, the two gateways are sound. -/
theorem sound_after (hg : g.Paired) (h : s.Start) {es : List Event} {t : State}
    (hrun : Run (Guarded (Allowed g s.pkt_id_counter) fun s e t => step g s e = t) s es t) :
    (∃ splits, Sound g s.pkt_id_counter splits t) ∧ ∀ d ∈ t.delivered, FromHost g t.given d := by
  have hnone : Parts := ⟨ofBytes [], 0, [], [], 0⟩
  refine hrun.invariant (P := fun t => (∃ splits, Sound g s.pkt_id_counter splits t) ∧
    ∀ d ∈ t.delivered, FromHost g t.given d) ⟨⟨_, h.sound fun _ => hnone⟩, ?_⟩ ?_
  · rw [h.delivered]
    simp
  · rintro t e u ⟨⟨splits, ht⟩, hd⟩ ⟨ha, rfl⟩
    exact ht.step hg hd ha

end

/-! ## A network that loses a fragment -/

def l2Policy : CryptoPolicy := samplePolicy 7 .encrypt_l2

/-- Policy 7 between a WAN interface and the LAN 10.0.1.0/24. -/
def l2Cfg : AppConfig :=
  { sampleCfg [l2Policy] one_policy_le with
    locals :=
      [{ ifname := [0x6c, 0x61, 0x6e, 0x30], netmask := 0xffffff00, network := 0x0a000100 }]
    locals_le := one_interface_le
    wans := [{ ifname := [0x77, 0x61, 0x6e, 0x30] }]
    wans_le := one_interface_le }

def l2Runtime : Runtime := (init_crypto longOpenssl {} 1 l2Cfg Runtime.boot).2

/-- Two gateways with this runtime. -/
def twoGateways : Gateways where
  o := longOpenssl
  near := l2Runtime
  far := l2Runtime
  ns := 12

theorem l2Runtime_gateway : L2Gateway longOpenssl l2Runtime 12 where
  toPeer := by
    have hinit : init_crypto longOpenssl {} 1 l2Cfg Runtime.boot = (true, l2Runtime) :=
      Prod.ext (by decide +kernel) rfl
    refine peer_of_init ?_ hinit rfl rfl rfl ?_ (by simp [l2Cfg, sampleCfg, DistinctWireIds])
    · intro pi cp hpi
      simp [Runtime.boot] at hpi
    · intro cp hcp
      obtain rfl := Option.some.inj hcp
      rfl
  fake := by decide +kernel
  policies := by decide +kernel
  action := by decide +kernel
  nonce_size_l2 := by
    intro cp hcp _
    obtain rfl := List.mem_singleton.mp (show cp ∈ [l2Policy] from hcp)
    rfl
  nonce_ge := by decide
  nonce_le := by decide

theorem twoGateways_paired : twoGateways.Paired where
  lawful := longOpenssl_lawful
  near := l2Runtime_gateway
  far := l2Runtime_gateway
  opens _ _ h := h.opens

/-- Nothing has happened yet. -/
def quiet : State where
  nonce_counter := 0
  pkt_id_counter := 0
  tls := {}
  given := []
  wire := []
  frag_l2 := frag_table_init
  frag_l3 := frag_table_init
  frag_l4 := frag_table_init
  threads _ := {}
  delivered := []

theorem quiet_start : quiet.Start := ⟨rfl, rfl, rfl, fun _ => rfl, rfl⟩

def longJob : PacketJob := udpJob gcmDatagram

def l2LanEnv : LanEnv := { l3Env with o := longOpenssl, rt := l2Runtime }

/-- A receive thread whose LAN answers ARP and has room. -/
def l2WanEnv (now_ns : Nat) : InboundEnv where
  o := longOpenssl
  magic := 0
  rt := l2Runtime
  now_ms := 2
  now_ns := now_ns
  reass_buf _ := 0
  w := freshThread
  queue_count _ := 1
  wan_worker_index := 0
  tx_base := 0
  local_macs _ _ :=
    some #v[0x02, 0x02, 0x00, 0x00, 0x00, 0x02, 0x02, 0x02, 0x00, 0x00, 0x00, 0x01]
  local_tx_ok _ _ := true

/-- No thread has sealed or opened anything before. -/
theorem send_in_place (s : State) (job : PacketJob) :
    SealsInPlace (twoGateways.lan_env s l2LanEnv) job := by
  unfold SealsInPlace
  split
  · exact fun _ => GcmSide.inPlace_empty _ _
  · trivial

theorem arrive_allowed (s : State) (first now thread frame : Nat) (rest : Buf) :
    Allowed twoGateways first s (.arrive (l2WanEnv now) thread frame rest) :=
  fun _ _ _ _ _ _ _ _ _ => GcmSide.inPlace_empty _ _

theorem send_allowed {job : PacketJob} (hhost : HostPacket job.pkt job.pkt_len)
    (hu : Unmistakable (twoGateways.lan_env quiet l2LanEnv) job) :
    Allowed twoGateways 0 quiet (.send l2LanEnv job) :=
  ⟨hhost, hu, send_in_place _ _, show 0 < 0 + 65536 by decide⟩

theorem longJob_allowed : Allowed twoGateways 0 quiet (.send l2LanEnv longJob) :=
  send_allowed ⟨by decide +kernel, by decide +kernel, by decide +kernel, fun _ => by decide +kernel⟩
    (by decide +kernel)

/-- The second fragment comes first, and then the first one. -/
def outOfOrder : List Event :=
  [.arrive (l2WanEnv 3) 1 1 fun _ => 0, .arrive (l2WanEnv 4) 0 0 fun _ => 0, .gc 5]

def afterOutOfOrder : State :=
  outOfOrder.foldl (step twoGateways) (step twoGateways quiet (.send l2LanEnv longJob))

theorem run_outOfOrder :
    Run (Guarded (Allowed twoGateways quiet.pkt_id_counter) fun s e t => step twoGateways s e = t)
      quiet ([.send l2LanEnv longJob] ++ outOfOrder) afterOutOfOrder := by
  refine (Run.single ⟨longJob_allowed, rfl⟩).append ((Run.of_foldl _ outOfOrder _).guarded ?_)
  intro e he s
  simp only [outOfOrder, List.mem_cons, List.not_mem_nil, or_false] at he
  rcases he with rfl | rfl | rfl
  · exact arrive_allowed _ _ _ _ _ _
  · exact arrive_allowed _ _ _ _ _ _
  · trivial

/-! ## The tunnel -/

section

variable {g : Gateways} {s : State}

/-- Whatever the network does with the frames of 65536 split packets and any number of others,
each frame that the far gateway hands to a LAN is a packet that a host gave to the near one, byte
for byte behind the addresses, on the LAN of its destination. -/
theorem the_far_gateway_delivers_only_packets_of_hosts (hg : g.Paired) (h : s.Start)
    {es : List Event} {t : State}
    (hrun : Run (Guarded (Allowed g s.pkt_id_counter) fun s e t => step g s e = t) s es t) :
    ∀ d ∈ t.delivered, FromHost g t.given d :=
  (sound_after hg h hrun).2

theorem a_long_datagram_is_delivered_once_complete :
    ∃ t, Run (Guarded (Allowed twoGateways 0) fun s e t => step twoGateways s e = t) quiet
        ([.send l2LanEnv longJob] ++ outOfOrder ++ [.arrive (l2WanEnv 6) 1 1 fun _ => 0]) t ∧
      (t.delivered.map fun d => d.2.2.length) = [1480] ∧
      ∀ d ∈ t.delivered, FromHost twoGateways t.given d := by
  have hlast : Guarded (Allowed twoGateways quiet.pkt_id_counter)
      (fun s e t => step twoGateways s e = t) afterOutOfOrder
      (.arrive (l2WanEnv 6) 1 1 fun _ => 0) _ := ⟨arrive_allowed _ _ _ _ _ _, rfl⟩
  have hrun := run_outOfOrder.snoc hlast
  exact ⟨_, hrun, by decide +kernel,
    the_far_gateway_delivers_only_packets_of_hosts twoGateways_paired quiet_start hrun⟩

/-- After such a run a copy of any frame that was sent has a receive thread do what it would do
for the packet itself, when the frame is no fragment, or a second one whose first one waits and is
not too old; otherwise nothing is handed to a LAN. -/
theorem a_copy_of_a_frame_delivers_its_packet_iff_it_is_complete (hg : g.Paired) (h : s.Start)
    {es : List Event} {t : State}
    (hrun : Run (Guarded (Allowed g s.pkt_id_counter) fun s e t => step g s e = t) s es t)
    {frame : Nat} {rest pkt : Buf} {pkt_len : Nat} (hc : t.copy frame rest = some (pkt, pkt_len))
    {env : InboundEnv} {thread : Nat}
    (ha : Allowed g s.pkt_id_counter t (.arrive env thread frame rest)) :
    ∃ f job, t.wire[frame]? = some f ∧ t.given[f.1]? = some job ∧
      (step g t (.arrive env thread frame rest)).delivered = t.delivered ++
        if Complete (g.wan_env t env thread).toWanEnv (g.wan_env t env thread).w pkt pkt_len then
          (send_to_local (g.wan_env t env thread) [] job.pkt job.pkt_len).sent.toList
        else [] := by
  obtain ⟨⟨splits, ht⟩, -⟩ := sound_after hg h hrun
  obtain ⟨f, job, hf, hjob, -, hdel⟩ := ht.delivered hg hc ha
  exact ⟨f, job, hf, hjob, hdel⟩

theorem the_second_fragment_delivers_a_datagram :
    ∃ pkt pkt_len, afterOutOfOrder.copy 1 (fun _ => 0) = some (pkt, pkt_len) ∧
      Complete (l2WanEnv 6).toWanEnv (twoGateways.wan_env afterOutOfOrder (l2WanEnv 6) 1).w pkt
        pkt_len = true ∧
      ∃ f job, afterOutOfOrder.wire[1]? = some f ∧ afterOutOfOrder.given[f.1]? = some job ∧
        (step twoGateways afterOutOfOrder (.arrive (l2WanEnv 6) 1 1 fun _ => 0)).delivered =
          afterOutOfOrder.delivered ++
            (send_to_local (twoGateways.wan_env afterOutOfOrder (l2WanEnv 6) 1) [] job.pkt
              job.pkt_len).sent.toList := by
  have hsome : (afterOutOfOrder.copy 1 fun _ => 0).isSome = true := by decide +kernel
  obtain ⟨⟨pkt, pkt_len⟩, hc⟩ := Option.isSome_iff_exists.mp hsome
  have hcomplete : ((afterOutOfOrder.copy 1 fun _ => 0).all fun c =>
      Complete (l2WanEnv 6).toWanEnv (twoGateways.wan_env afterOutOfOrder (l2WanEnv 6) 1).w c.1
        c.2) = true := by decide +kernel
  rw [hc] at hcomplete
  obtain ⟨f, job, hf, hjob, hdel⟩ := a_copy_of_a_frame_delivers_its_packet_iff_it_is_complete
    twoGateways_paired quiet_start run_outOfOrder hc (arrive_allowed _ _ 6 1 1 _)
  refine ⟨pkt, pkt_len, hc, hcomplete, f, job, hf, hjob, ?_⟩
  rw [hdel]
  exact congrArg _ (if_pos hcomplete)

end

end ne_ip.l2_tunnel
