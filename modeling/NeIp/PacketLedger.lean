-- The ledger of the packets that the kernel receives: in which order the threads handle
-- them, and what the counters of the forwarder say about them (forwarder.c).
import NeIp.FrameRelease
import NeIp.CleartextLeak
import NeIp.FragDelivery
import NeIp.SplitRoundTrip

open runs circular_buffer byte_buf ne_ip.packet_crypto ne_ip.config ne_ip.reassembly
open ne_ip.forwarder ne_ip.flow ne_ip.wan_queue ne_ip.worker ne_ip.queue_loops ne_ip.frames
open ne_ip.frame_release ne_ip.sample ne_ip.crypto_layer3 ne_ip.frag_delivery
open ne_ip.split_round_trip

namespace ne_ip.packet_ledger

variable {setup : Setup}

/-! ## The ledger -/

/-- What a receive thread does with a packet: it sends or drops it, or it has it for the worker,
of whose ring `waiting` slots are taken. -/
inductive Fate where
  | handled (r : Outbound)
  | queued
  | refused (waiting : Nat)
  | delivered (w : Inbound) (d : Delivered)

structure Passed where
  iface : Iface
  pkt : Received
  fate : Fate

/-- The packets that the kernel has received, those that the receive threads have passed, and those
that the worker has handled, each oldest first. -/
structure Log where
  came : List (Iface × Received) := []
  passed : List Passed := []
  worked : List (PacketJob × Outbound) := []

def job_of (local_idx : Nat) (r : Received) : PacketJob where
  local_idx
  pkt := r.pkt
  pkt_len := r.pkt_len
  addr := r.addr

/-- A packet of a WAN after its decryption. -/
def wan_inbound (mode : Mode) (e : InboundEnv) (r : Received) : Inbound :=
  match mode with
  | .no_crypto => .packet r.pkt r.pkt_len
  | .l2 => (receive_l2 e.toWanEnv e.w r.pkt r.pkt_len).1
  | .l3l4 => (inbound_l3l4 e.toWanEnv e.w r.pkt r.pkt_len).1

def local_fate (mode : Mode) (e : LanEnv) (encrypt_layer : Nat) (ring : WorkerRing)
    (job : PacketJob) : Fate :=
  match mode with
  | .no_crypto => .handled (local_packet_no_crypto e job)
  | .l2 => .handled (local_packet_l2 e encrypt_layer job)
  | .l3l4 => if (ring.push job).isSome then .queued else .refused ring.contents.length

/-- The entry that a step makes. -/
def Log.add (setup : Setup) (s : State) (log : Log) : Event → Log
  | .deliver i k pkt pkt_len =>
    match (s.queues i).kernel[k]? with
    | some addr => { log with came := log.came ++ [(i, { pkt, pkt_len, addr })] }
    | none => log
  | .packet_local local_idx e encrypt_layer =>
    match (s.queues (.lan local_idx)).pc with
    | .batch _ (r :: _) =>
      let fate := local_fate setup.mode e encrypt_layer s.ring (job_of local_idx r)
      { log with passed := log.passed ++ [{ iface := .lan local_idx, pkt := r, fate }] }
    | _ => log
  | .packet_wan wan_idx e =>
    match (s.queues (.wan wan_idx)).pc with
    | .batch _ (r :: _) =>
      let fate := .delivered (wan_inbound setup.mode e r) (wan_packet setup.mode e r)
      { log with passed := log.passed ++ [{ iface := .wan wan_idx, pkt := r, fate }] }
    | _ => log
  | .work e =>
    match s.job with
    | some job => { log with worked := log.worked ++ [(job, worker_packet e job)] }
    | none => log
  | _ => log

/-- A step and its entry. -/
def LogStep (setup : Setup) (x : State × Log) (e : Event) (y : State × Log) : Prop :=
  Step setup x.1 e y.1 ∧ y.2 = x.2.add setup x.1 e

/-- Every run has a ledger. -/
theorem exists_log {es : List Event} {s : State}
    (h : Run (Step setup) (initial setup) es s) :
    ∃ log, Run (LogStep setup) (initial setup, {}) es (s, log) := by
  induction h with
  | nil => exact ⟨{}, Run.nil _⟩
  | snoc _ hstep ih =>
    obtain ⟨log, hlog⟩ := ih
    exact ⟨_, Run.snoc hlog ⟨hstep, rfl⟩⟩

/-! ## The packets of one interface -/

def Log.came_of (log : Log) (i : Iface) : List Received :=
  (log.came.filter (·.1 = i)).map (·.2)

def Log.passed_of (log : Log) (i : Iface) : List Received :=
  (log.passed.filter (·.iface = i)).map (·.pkt)

def Passed.queued_job (p : Passed) : Option PacketJob :=
  match p.iface, p.fate with
  | .lan local_idx, .queued => some (job_of local_idx p.pkt)
  | _, _ => none

/-- The jobs that the ring of the worker has taken so far. -/
def Log.queued (log : Log) : List PacketJob := log.passed.filterMap (·.queued_job)

/-- The packets of its batch that a thread has not reached. -/
def todo : Pc → List Received
  | .batch _ todo => todo
  | _ => []

def waiting (q : Queue) : List Received := todo q.pc ++ q.rx

@[simp] theorem came_of_concat (log : Log) (i j : Iface) (r : Received) :
    Log.came_of { log with came := log.came ++ [(i, r)] } j =
      log.came_of j ++ if i = j then [r] else [] := by
  unfold Log.came_of
  rw [List.filter_append, List.map_append, List.filter_singleton]
  by_cases h : i = j <;> simp [h]

@[simp] theorem passed_of_concat (log : Log) (p : Passed) (j : Iface) :
    Log.passed_of { log with passed := log.passed ++ [p] } j =
      log.passed_of j ++ if p.iface = j then [p.pkt] else [] := by
  unfold Log.passed_of
  rw [List.filter_append, List.map_append, List.filter_singleton]
  by_cases h : p.iface = j <;> simp [h]

theorem queued_concat (log : Log) (p : Passed) :
    Log.queued { log with passed := log.passed ++ [p] } = log.queued ++ p.queued_job.toList := by
  unfold Log.queued
  rw [List.filterMap_append]
  cases h : p.queued_job <;> simp [h]

theorem rx_hand (cap : Nat) (q : Queue) (addrs : List Nat) :
    (addrs.foldl (Queue.hand cap) q).rx = q.rx := by
  induction addrs generalizing q with
  | nil => rfl
  | cons addr addrs ih => exact ih _

theorem waiting_hand (cap : Nat) (q : Queue) (addrs : List Nat) :
    waiting (addrs.foldl (Queue.hand cap) q) = waiting q := by
  unfold waiting
  rw [pc_hand, rx_hand]

/-- What a step does to the line of an interface: some packets come to its end, some at its front
are passed. -/
structure Line (x y : State × Log) (j : Iface) (front back : List Received) : Prop where
  came : y.2.came_of j = x.2.came_of j ++ back
  passed : y.2.passed_of j = x.2.passed_of j ++ front
  waiting : waiting (x.1.queues j) ++ back = front ++ waiting (y.1.queues j)

theorem line_same {x y : State × Log} {j : Iface} (hcame : y.2.came_of j = x.2.came_of j)
    (hpassed : y.2.passed_of j = x.2.passed_of j)
    (hwaiting : waiting (y.1.queues j) = waiting (x.1.queues j)) : Line x y j [] [] := by
  refine ⟨?_, ?_, ?_⟩
  · rw [hcame, List.append_nil]
  · rw [hpassed, List.append_nil]
  · rw [hwaiting, List.append_nil, List.nil_append]

/-- A step at one queue. -/
theorem line_at {s s' : State} {log log' : Log} {i : Iface} {front back : List Received}
    (hother : ∀ j, j ≠ i → s'.queues j = s.queues j ∧ log'.came_of j = log.came_of j ∧
      log'.passed_of j = log.passed_of j)
    (hself : Line (s, log) (s', log') i front back) (j : Iface) :
    ∃ front back, Line (s, log) (s', log') j front back := by
  by_cases hji : j = i
  · rw [hji]
    exact ⟨front, back, hself⟩
  · obtain ⟨hqueue, hcame, hpassed⟩ := hother j hji
    refine ⟨[], [], line_same hcame hpassed ?_⟩
    dsimp only
    rw [hqueue]

/-- A step that leaves the ledger as it is. -/
theorem line_set {s : State} {log : Log} {i : Iface} {q : Queue}
    (hwaiting : waiting q = waiting (s.queues i)) (j : Iface) :
    ∃ front back, Line (s, log) (s.set i q, log) j front back := by
  refine line_at (i := i) (fun j hj => ⟨s.set_of_ne hj _, rfl, rfl⟩) (line_same rfl rfl ?_) j
  dsimp only
  rw [State.set_self, hwaiting]

/-- The next packet of a batch is passed. -/
theorem line_packet {s : State} {log : Log} {i : Iface} {addrs addrs' : List Nat} {r : Received}
    {rest : List Received} {fate : Fate} {ring : WorkerRing} {st : Stats}
    (hpc : (s.queues i).pc = .batch addrs (r :: rest)) (j : Iface) :
    ∃ front back, Line (s, log)
      ({ s.set i (addrs'.foldl (Queue.hand (setup.ring_size i))
          { s.queues i with pc := .batch addrs rest }) with ring, stats := st },
        { log with passed := log.passed ++ [{ iface := i, pkt := r, fate }] }) j front back := by
  refine line_at (i := i) ?_ (?_ : Line _ _ i [r] []) j
  · intro j hj
    refine ⟨s.set_of_ne hj _, rfl, ?_⟩
    rw [passed_of_concat, if_neg (Ne.symm hj), List.append_nil]
  · refine ⟨(List.append_nil _).symm, ?_, ?_⟩
    · dsimp only
      rw [passed_of_concat, if_pos rfl]
    · dsimp only
      rw [State.set_self, waiting_hand, List.append_nil]
      unfold waiting
      rw [hpc]
      rfl

theorem line_step {x y : State × Log} {e : Event} (h : LogStep setup x e y) (j : Iface) :
    ∃ front back, Line x y j front back := by
  obtain ⟨s, log⟩ := x
  obtain ⟨s', log'⟩ := y
  obtain ⟨hstep, hlog⟩ := h
  dsimp only at hstep hlog
  subst hlog
  cases step_cases hstep with
  | take hfill =>
    refine line_set ?_ j
    rfl
  | @deliver i k addr pkt pkt_len hk =>
    unfold Log.add
    dsimp only
    rw [hk]
    refine line_at (i := i) ?_ (?_ : Line _ _ i [] [{ pkt, pkt_len, addr }]) j
    · intro j hj
      refine ⟨s.set_of_ne hj _, ?_, rfl⟩
      rw [came_of_concat, if_neg (Ne.symm hj), List.append_nil]
    · refine ⟨?_, (List.append_nil _).symm, ?_⟩
      · dsimp only
        rw [came_of_concat, if_pos rfl]
      · dsimp only
        rw [State.set_self]
        exact List.append_assoc _ _ _
  | @recv i n hpc hthread =>
    refine line_set ?_ j
    unfold waiting
    rw [hpc]
    exact List.take_append_drop _ _
  | @packet_local local_idx addrs r rest e encrypt_layer d hpc hd =>
    unfold Log.add
    dsimp only
    rw [hpc]
    exact line_packet hpc j
  | @packet_wan wan_idx addrs r rest e hpc =>
    unfold Log.add
    dsimp only
    rw [hpc]
    exact line_packet hpc j
  | @batch_done i addrs hpc =>
    refine line_set ?_ j
    unfold waiting
    rw [hpc]
    split <;> rfl
  | @release_done i hpc =>
    refine line_set ?_ j
    unfold waiting
    rw [hpc]
    rfl
  | @release i addr rest hpc =>
    refine line_set ?_ j
    unfold waiting Queue.hand
    rw [hpc]
    rfl
  | dequeue hjob hpop => exact ⟨[], [], line_same rfl rfl rfl⟩
  | @work e job hjob =>
    unfold Log.add
    dsimp only
    rw [hjob]
    refine line_at (i := .lan job.local_idx) ?_ (line_same ?_ ?_ ?_) j
    · exact fun j hj => ⟨s.set_of_ne hj _, rfl, rfl⟩
    · rfl
    · rfl
    · dsimp only
      rw [State.set_self, waiting_hand]
  | stop => exact ⟨[], [], line_same rfl rfl rfl⟩

/-! ## The ring of the worker -/

/-- The jobs that the worker has handled, has, or will have, in the order of the ring. -/
def pipeline (x : State × Log) : List PacketJob :=
  x.2.worked.map (·.1) ++ x.1.job.toList ++ x.1.ring.contents

theorem local_packet_ring (mode : Mode) (e : LanEnv) (encrypt_layer : Nat) (ring : WorkerRing)
    (st : Stats) (local_idx : Nat) (r : Received) :
    let job := job_of local_idx r
    let fate := local_fate mode e encrypt_layer ring job
    (local_packet mode e encrypt_layer ring st job).2.1.contents = ring.contents ++
      (Passed.queued_job { iface := .lan local_idx, pkt := r, fate }).toList := by
  unfold local_packet local_fate Passed.queued_job
  cases mode with
  | no_crypto => exact (List.append_nil _).symm
  | l2 => exact (List.append_nil _).symm
  | l3l4 =>
    dsimp only
    unfold local_packet_l3l4
    cases hpush : ring.push (job_of local_idx r) with
    | none => exact (List.append_nil _).symm
    | some ring' => exact Ring.push_contents hpush

/-- A step keeps the order. -/
theorem pipeline_step {x y : State × Log} {e : Event} (h : LogStep setup x e y)
    (hx : pipeline x = x.2.queued) : pipeline y = y.2.queued := by
  obtain ⟨s, log⟩ := x
  obtain ⟨s', log'⟩ := y
  obtain ⟨hstep, hlog⟩ := h
  dsimp only at hstep hlog
  subst hlog
  unfold pipeline at *
  dsimp only at *
  cases step_cases hstep with
  | take hfill => exact hx
  | @deliver i k addr pkt pkt_len hk =>
    unfold Log.add
    dsimp only
    rw [hk]
    exact hx
  | recv hpc hthread => exact hx
  | @packet_local local_idx addrs r rest e encrypt_layer d hpc hd =>
    unfold Log.add
    dsimp only
    rw [hpc, ← hd]
    change log.worked.map (·.1) ++ s.job.toList ++ (local_packet setup.mode e encrypt_layer s.ring
      s.stats (job_of local_idx r)).2.1.contents = _
    rw [local_packet_ring, queued_concat, ← hx, List.append_assoc, List.append_assoc,
      List.append_assoc]
  | @packet_wan wan_idx addrs r rest e hpc =>
    unfold Log.add
    dsimp only
    rw [hpc]
    dsimp only
    rw [queued_concat]
    exact hx.trans (List.append_nil _).symm
  | batch_done hpc => exact hx
  | release_done hpc => exact hx
  | release hpc => exact hx
  | @dequeue job ring hjob hpop =>
    rw [hjob, Ring.pop_contents hpop] at hx
    change log.worked.map (·.1) ++ [job] ++ ring.contents = log.queued
    rw [← hx]
    simp
  | @work e job hjob =>
    unfold Log.add
    dsimp only
    rw [hjob] at hx ⊢
    change (log.worked ++ [(job, worker_packet e job)]).map (·.1) ++ [] ++ s.ring.contents =
      log.queued
    rw [← hx]
    simp
  | stop => exact hx

/-! ## What the counters count -/

/-- A packet that is sent as two fragments. -/
def halved (r : Outbound) : Bool := r.sends = 2

/-- A packet that waits for its other half. -/
def kept : Inbound → Bool
  | .pending => true
  | _ => false

def Fate.wan_frames : Fate → List Bytes
  | .handled r => r.sent
  | _ => []

def Fate.lan_frames : Fate → List (Nat × Nat × Bytes)
  | .delivered _ d => d.sent.toList
  | _ => []

def Fate.halved : Fate → Bool
  | .handled r => packet_ledger.halved r
  | _ => false

def Fate.kept : Fate → Bool
  | .delivered w _ => packet_ledger.kept w
  | _ => false

/-- The frames that the TX rings of the WANs have taken. -/
def Log.wan_frames (log : Log) : List Bytes :=
  log.passed.flatMap (·.fate.wan_frames) ++ log.worked.flatMap (·.2.sent)

def Log.lan_frames (log : Log) : List (Nat × Nat × Bytes) :=
  log.passed.flatMap (·.fate.lan_frames)

def Log.halved (log : Log) : Nat :=
  log.passed.countP (·.fate.halved) + log.worked.countP (packet_ledger.halved ·.2)

def Log.kept (log : Log) : Nat := log.passed.countP (·.fate.kept)

theorem countP_concat {α : Type*} (p : α → Bool) (xs : List α) (x : α) :
    (xs ++ [x]).countP p = xs.countP p + (p x).toNat := by
  rw [List.countP_append, List.countP_singleton]
  cases p x <;> rfl

/-- What a packet that is passed adds to the ledger. -/
theorem totals_passed (log : Log) (p : Passed) :
    let log' := { log with passed := log.passed ++ [p] }
    log'.wan_frames.length = log.wan_frames.length + p.fate.wan_frames.length ∧
      log'.lan_frames.length = log.lan_frames.length + p.fate.lan_frames.length ∧
      log'.kept = log.kept + p.fate.kept.toNat ∧
      log'.halved = log.halved + p.fate.halved.toNat := by
  unfold Log.wan_frames Log.lan_frames Log.kept Log.halved
  dsimp only
  simp only [List.flatMap_append, List.flatMap_singleton, List.length_append, countP_concat,
    true_and]
  omega

theorem totals_worked (log : Log) (job : PacketJob) (r : Outbound) :
    let log' := { log with worked := log.worked ++ [(job, r)] }
    log'.wan_frames.length = log.wan_frames.length + r.sent.length ∧
      log'.halved = log.halved + (packet_ledger.halved r).toNat := by
  unfold Log.wan_frames Log.halved
  dsimp only
  simp only [List.flatMap_append, List.flatMap_singleton, List.length_append, countP_concat]
  omega

/-- What a thread that sends to a WAN counts for one packet. -/
structure Counted (r : Outbound) : Prop where
  sent : r.local_to_wan = r.sent.length
  total : r.local_to_wan + r.total_dropped = 1 + (halved r).toNat

/-- Nothing sent or counted yet. -/
structure Unsent (r : Outbound) : Prop where
  sent : r.sent = []
  sends : r.sends = 0
  local_to_wan : r.local_to_wan = 0
  total_dropped : r.total_dropped = 0

theorem Unsent.drop {r : Outbound} (h : Unsent r) : Counted r.drop := by
  have hno : halved r.drop = false := by
    unfold halved Outbound.drop
    simp [h.sends]
  refine ⟨?_, ?_⟩
  · unfold Outbound.drop
    rw [h.sent, h.local_to_wan]
    rfl
  · rw [hno]
    unfold Outbound.drop
    rw [h.local_to_wan, h.total_dropped]
    rfl

/-- A send counts its frame or one drop. -/
theorem send_counts (e : LanEnv) {r : Outbound} (hsent : r.local_to_wan = r.sent.length) (pkt : Buf)
    (pkt_len : Nat) :
    (r.send e pkt pkt_len).local_to_wan = (r.send e pkt pkt_len).sent.length ∧
      (r.send e pkt pkt_len).sends = r.sends + 1 ∧
      (r.send e pkt pkt_len).local_to_wan + (r.send e pkt pkt_len).total_dropped =
        r.local_to_wan + r.total_dropped + 1 := by
  unfold Outbound.send
  split
  · refine ⟨?_, rfl, ?_⟩
    · simp [hsent]
    · dsimp only
      omega
  · exact ⟨hsent, rfl, rfl⟩

theorem Unsent.send {r : Outbound} (h : Unsent r) (e : LanEnv) (pkt : Buf) (pkt_len : Nat) :
    Counted (r.send e pkt pkt_len) := by
  have hsent : r.local_to_wan = r.sent.length := by rw [h.local_to_wan, h.sent]; rfl
  obtain ⟨h1, h2, h3⟩ := send_counts e hsent pkt pkt_len
  have hno : halved (r.send e pkt pkt_len) = false := by
    unfold halved
    rw [h2, h.sends]
    rfl
  refine ⟨h1, ?_⟩
  rw [h3, hno, h.local_to_wan, h.total_dropped]
  rfl

theorem Unsent.send_send {r : Outbound} (h : Unsent r) (e : LanEnv) (pkt1 pkt2 : Buf)
    (pkt1_len pkt2_len : Nat) : Counted ((r.send e pkt1 pkt1_len).send e pkt2 pkt2_len) := by
  have hsent : r.local_to_wan = r.sent.length := by rw [h.local_to_wan, h.sent]; rfl
  obtain ⟨h1, h2, h3⟩ := send_counts e hsent pkt1 pkt1_len
  obtain ⟨h4, h5, h6⟩ := send_counts e h1 pkt2 pkt2_len
  have hyes : halved ((r.send e pkt1 pkt1_len).send e pkt2 pkt2_len) = true := by
    unfold halved
    rw [h5, h2, h.sends]
    rfl
  refine ⟨h4, ?_⟩
  rw [h6, h3, hyes, h.local_to_wan, h.total_dropped]
  rfl

theorem unsent_start (e : LanEnv) (tls : Tls) : Unsent { Outbound.start e with tls } :=
  ⟨rfl, rfl, rfl, rfl⟩

theorem counted_plain (e : LanEnv) (wan_idx : Nat) (job : PacketJob) :
    Counted (send_plain e wan_idx job) := by
  have hstart := unsent_start e e.tls
  unfold send_plain
  split
  · exact hstart.drop
  · exact hstart.send e _ _

theorem counted_split {e : LanEnv} {r : Outbound} (h : Unsent r) (wan_idx : Nat) (l : Layer)
    (tls : Tls) (ctx : PacketCryptoCtx) (pkt : Buf) (pkt_len : Nat) :
    Counted (send_split e wan_idx l tls ctx r pkt pkt_len) := by
  unfold send_split
  dsimp only
  generalize l.split e.o e.rt.fake_ethertype_ipv4 tls ctx e.rt.nonce_counter e.pkt_id_counter pkt
    pkt_len e.frag1 e.frag2 = s
  have hr : Unsent { r with nonce_counter := s.counter, pkt_id_counter := s.pkt_id_counter } :=
    ⟨h.sent, h.sends, h.local_to_wan, h.total_dropped⟩
  split
  · exact hr.drop
  · split
    · exact hr.send_send e _ _ _ _
    · exact hr.drop

theorem counted_whole {e : LanEnv} {r : Outbound} (h : Unsent r) (s : EncResult) :
    Counted (send_whole e r s) := by
  have hr : Unsent { r with nonce_counter := s.counter } :=
    ⟨h.sent, h.sends, h.local_to_wan, h.total_dropped⟩
  unfold send_whole
  dsimp only
  split
  · exact hr.drop
  · exact hr.send e _ _

theorem counted_worker (e : LanEnv) (job : PacketJob) : Counted (worker_packet e job) := by
  have hstart := unsent_start e e.tls
  unfold worker_packet
  split
  · exact counted_plain e _ job
  split
  · exact hstart.drop
  · exact counted_plain e _ job
  · rename_i pi cp _
    split
    · exact hstart.drop
    · rename_i l _
      have htls := unsent_start e (crypto_apply_from_policy cp e.tls)
      unfold send_encrypted
      dsimp only
      split
      · exact htls.drop
      · split
        · exact counted_split htls _ _ _ _ _ _
        · exact counted_whole htls _

theorem counted_l2 (e : LanEnv) (encrypt_layer : Nat) (job : PacketJob) :
    Counted (local_packet_l2 e encrypt_layer job) := by
  have hstart := unsent_start e e.tls
  unfold local_packet_l2
  dsimp only
  split
  · exact hstart.drop
  split
  · rename_i cp _
    have htls := unsent_start e (crypto_apply_from_policy cp e.tls)
    split
    · split
      · exact counted_split htls _ _ _ _ _ _
      · exact counted_whole htls _
    · exact hstart.send e _ _
  · split
    · exact hstart.drop
    · exact counted_whole hstart _

/-- What a thread that sends to a LAN counts for one packet. -/
structure CountedIn (w : Inbound) (d : Delivered) : Prop where
  sent : d.wan_to_local = d.sent.toList.length
  total : d.wan_to_local + d.total_dropped + (kept w).toNat = 1
  causes : d.dropped_bad_ip + d.dropped_no_local_match + d.dropped_local_tx_fail ≤ d.total_dropped

theorem counted_send_to_local (e : InboundEnv) (on_arp_miss : List Nat) (pkt pkt' : Buf)
    (pkt_len pkt_len' : Nat) :
    CountedIn (.packet pkt pkt_len) (send_to_local e on_arp_miss pkt' pkt_len') := by
  unfold send_to_local
  dsimp only
  split
  · exact ⟨rfl, rfl, Nat.le_refl _⟩
  split
  · exact ⟨rfl, rfl, Nat.le_refl _⟩
  split
  · exact ⟨rfl, rfl, Nat.zero_le _⟩
  split
  · exact ⟨rfl, rfl, Nat.le_refl _⟩
  · exact ⟨rfl, rfl, Nat.le_refl _⟩

theorem counted_deliver (e : InboundEnv) (w : Inbound) : CountedIn w (deliver e w) := by
  cases w with
  | dropped => exact ⟨rfl, rfl, Nat.zero_le _⟩
  | pending => exact ⟨rfl, rfl, Nat.le_refl _⟩
  | packet pkt pkt_len => exact counted_send_to_local e [] _ _ _ _

theorem counted_wan (mode : Mode) (e : InboundEnv) (r : Received) :
    CountedIn (wan_inbound mode e r) (wan_packet mode e r) := by
  cases mode with
  | no_crypto => exact counted_send_to_local e _ _ _ _ _
  | l2 => exact counted_deliver e _
  | l3l4 => exact counted_deliver e _

/-- The counters before and after a packet is passed, with the number of packets that the worker has
or will have. -/
structure Counts (st : Stats) (n : Nat) (fate : Fate) (st' : Stats) (n' : Nat) : Prop where
  local_to_wan : st'.local_to_wan = st.local_to_wan + fate.wan_frames.length
  wan_to_local : st'.wan_to_local = st.wan_to_local + fate.lan_frames.length
  causes : st'.dropped_bad_ip + st'.dropped_no_local_match + st'.dropped_local_tx_fail +
    st.total_dropped ≤ st.dropped_bad_ip + st.dropped_no_local_match + st.dropped_local_tx_fail +
      st'.total_dropped
  total : st'.local_to_wan + st'.wan_to_local + st'.total_dropped + fate.kept.toNat + n' =
    st.local_to_wan + st.wan_to_local + st.total_dropped + n + 1 + fate.halved.toNat

theorem Counted.counts {r : Outbound} (h : Counted r) (st : Stats) (n : Nat) :
    Counts st n (.handled r) (st.outbound r) n := by
  have hsent := h.sent
  have htotal := h.total
  unfold Stats.outbound
  refine ⟨?_, rfl, ?_, ?_⟩
  · unfold Fate.wan_frames
    dsimp only
    omega
  · dsimp only
    omega
  · unfold Fate.kept Fate.halved
    dsimp only
    rw [Bool.toNat_false]
    omega

theorem CountedIn.counts {w : Inbound} {d : Delivered} (h : CountedIn w d) (st : Stats) (n : Nat) :
    Counts st n (.delivered w d) (st.delivered d) n := by
  have hsent := h.sent
  have htotal := h.total
  have hcauses := h.causes
  unfold Stats.delivered
  refine ⟨rfl, ?_, ?_, ?_⟩
  · unfold Fate.lan_frames
    dsimp only
    omega
  · dsimp only
    omega
  · unfold Fate.kept Fate.halved
    dsimp only
    rw [Bool.toNat_false]
    omega

theorem local_packet_counts (mode : Mode) (e : LanEnv) (encrypt_layer : Nat) (ring : WorkerRing)
    (st : Stats) (job : PacketJob) (n : Nat) :
    let d := local_packet mode e encrypt_layer ring st job
    Counts st (n + ring.contents.length) (local_fate mode e encrypt_layer ring job) d.2.2
      (n + d.2.1.contents.length) := by
  cases mode with
  | no_crypto => exact (counted_plain e (wan_of e job) job).counts st _
  | l2 => exact (counted_l2 e encrypt_layer job).counts st _
  | l3l4 =>
    unfold local_fate local_packet local_packet_l3l4
    dsimp only
    cases hpush : ring.push job with
    | none =>
      refine ⟨rfl, rfl, by dsimp only; omega, ?_⟩
      simp only [Option.isSome_none, Bool.false_eq_true, if_false, Fate.halved, Fate.kept,
        Bool.toNat_false, List.length_singleton]
      omega
    | some ring' =>
      refine ⟨rfl, rfl, by dsimp only; omega, ?_⟩
      simp only [Ring.push_contents hpush, Option.isSome_some, if_true, Fate.halved, Fate.kept,
        Bool.toNat_false, List.length_append, List.length_singleton, List.length_nil]
      omega

/-- The counters against the ledger, while `n` packets are with the worker. -/
structure Accounted (st : Stats) (n : Nat) (log : Log) : Prop where
  local_to_wan : st.local_to_wan = log.wan_frames.length
  wan_to_local : st.wan_to_local = log.lan_frames.length
  causes : st.dropped_bad_ip + st.dropped_no_local_match + st.dropped_local_tx_fail ≤
    st.total_dropped
  total : st.local_to_wan + st.wan_to_local + st.total_dropped + log.kept + n =
    log.passed.length + log.halved

def pending (s : State) : Nat := s.job.toList.length + s.ring.contents.length

theorem accounted_passed {st st' : Stats} {n n' : Nat} {log : Log} (h : Accounted st n log)
    {p : Passed} (hp : Counts st n p.fate st' n') :
    Accounted st' n' { log with passed := log.passed ++ [p] } := by
  obtain ⟨h1, h2, h3, h4⟩ := h
  obtain ⟨h5, h6, h7, h8⟩ := hp
  obtain ⟨h9, h10, h11, h12⟩ := totals_passed log p
  refine ⟨by omega, by omega, by omega, ?_⟩
  dsimp only at *
  rw [List.length_append, List.length_singleton]
  omega

/-- The worker is done with a job. -/
theorem accounted_worked {st : Stats} {n : Nat} {log : Log} (h : Accounted st (1 + n) log)
    {r : Outbound} (hr : Counted r) (job : PacketJob) :
    Accounted (st.outbound r) n { log with worked := log.worked ++ [(job, r)] } := by
  obtain ⟨h1, h2, h3, h4⟩ := h
  obtain ⟨h5, h6⟩ := hr
  obtain ⟨h7, h8⟩ := totals_worked log job r
  unfold Stats.outbound
  refine ⟨?_, h2, ?_, ?_⟩
  · dsimp only at *
    omega
  · dsimp only
    omega
  · dsimp only at *
    change _ + _ + _ + log.kept + n = log.passed.length + _
    omega

theorem accounted_step {x y : State × Log} {e : Event} (h : LogStep setup x e y)
    (hx : Accounted x.1.stats (pending x.1) x.2) : Accounted y.1.stats (pending y.1) y.2 := by
  obtain ⟨s, log⟩ := x
  obtain ⟨s', log'⟩ := y
  obtain ⟨hstep, hlog⟩ := h
  dsimp only at hstep hlog hx ⊢
  subst hlog
  cases step_cases hstep with
  | take hfill => exact hx
  | @deliver i k addr pkt pkt_len hk =>
    unfold Log.add
    dsimp only
    rw [hk]
    exact ⟨hx.local_to_wan, hx.wan_to_local, hx.causes, hx.total⟩
  | recv hpc hthread => exact hx
  | @packet_local local_idx addrs r rest e encrypt_layer d hpc hd =>
    subst hd
    unfold Log.add
    dsimp only
    rw [hpc]
    exact accounted_passed hx (local_packet_counts setup.mode e encrypt_layer s.ring s.stats
      (job_of local_idx r) _)
  | @packet_wan wan_idx addrs r rest e hpc =>
    unfold Log.add
    dsimp only
    rw [hpc]
    exact accounted_passed hx ((counted_wan setup.mode e r).counts s.stats _)
  | batch_done hpc => exact hx
  | release_done hpc => exact hx
  | release hpc => exact hx
  | @dequeue job ring hjob hpop =>
    have hpending : pending { s with job := some job, ring } = pending s := by
      unfold pending
      dsimp only
      rw [hjob, Ring.pop_contents hpop, List.length_cons]
      simp only [Option.toList_some, Option.toList_none, List.length_singleton, List.length_nil]
      omega
    rw [hpending]
    exact hx
  | @work e job hjob =>
    unfold Log.add
    dsimp only
    rw [hjob]
    unfold pending at hx
    rw [hjob] at hx
    have hpending : ∀ q stats, pending { s.set (.lan job.local_idx) q with job := none, stats } =
        s.ring.contents.length := fun _ _ => Nat.zero_add _
    rw [hpending]
    exact accounted_worked hx (counted_worker e job) job
  | stop => exact hx

/-! ## Every run -/

/-- A packet that a step passes, refused only when the ring is full. -/
theorem refused_step {x y : State × Log} {e : Event} (h : LogStep setup x e y) {p : Passed}
    (hp : p ∈ y.2.passed) :
    p ∈ x.2.passed ∨ ∀ n, p.fate = .refused n → n + 1 = WORKER_RING_SIZE := by
  obtain ⟨s, log⟩ := x
  obtain ⟨s', log'⟩ := y
  obtain ⟨hstep, hlog⟩ := h
  dsimp only at hstep hlog hp ⊢
  subst hlog
  cases step_cases hstep with
  | @deliver i k addr pkt pkt_len hk =>
    unfold Log.add at hp
    dsimp only at hp
    rw [hk] at hp
    exact Or.inl hp
  | @packet_local local_idx addrs r rest e encrypt_layer d hpc hd =>
    unfold Log.add at hp
    dsimp only at hp
    rw [hpc] at hp
    rcases List.mem_append.mp hp with hin | hnew
    · exact Or.inl hin
    · rw [List.mem_singleton.mp hnew]
      refine Or.inr fun n hn => ?_
      unfold local_fate at hn
      dsimp only at hn
      split at hn
      · simp at hn
      · simp at hn
      · split at hn
        · simp at hn
        · rename_i hpush
          rw [← Fate.refused.inj hn]
          exact (Ring.push_none_iff _ _).mp (Option.not_isSome_iff_eq_none.mp hpush)
  | @packet_wan wan_idx addrs r rest e hpc =>
    unfold Log.add at hp
    dsimp only at hp
    rw [hpc] at hp
    rcases List.mem_append.mp hp with hin | hnew
    · exact Or.inl hin
    · rw [List.mem_singleton.mp hnew]
      exact Or.inr fun n hn => by simp at hn
  | @work e job hjob =>
    unfold Log.add at hp
    dsimp only at hp
    rw [hjob] at hp
    exact Or.inl hp
  | take | recv | batch_done | release_done | release | dequeue | stop => exact Or.inl hp

/-- The jobs of a LAN are packets that its thread has passed, in this order. -/
theorem queued_sublist (ps : List Passed) (local_idx : Nat) :
    ((ps.filterMap (·.queued_job)).filter (·.local_idx = local_idx)).Sublist
      (((ps.filter (·.iface = .lan local_idx)).map (·.pkt)).map (job_of local_idx)) := by
  induction ps with
  | nil => exact List.Sublist.refl _
  | cons p ps ih =>
    obtain ⟨i, r, fate⟩ := p
    cases i with
    | wan wan_idx => simpa [Passed.queued_job] using ih
    | lan l =>
      by_cases hl : l = local_idx
      · subst hl
        cases fate with
        | queued => simpa [Passed.queued_job, job_of] using ih
        | _ =>
          simp only [Passed.queued_job, List.filterMap_cons, List.filter_cons, decide_true, if_true,
            List.map_cons]
          exact ih.cons _
      · cases fate <;> simpa [Passed.queued_job, job_of, hl] using ih

/-- The packets of every interface are in order, and so is the ring of the worker. -/
structure Ordered (x : State × Log) : Prop where
  line : ∀ i, x.2.came_of i = x.2.passed_of i ++ waiting (x.1.queues i)
  ring : pipeline x = x.2.queued
  refused : ∀ p ∈ x.2.passed, ∀ n, p.fate = .refused n → n + 1 = WORKER_RING_SIZE

theorem ring_initial (setup : Setup) : (initial setup).ring.contents = [] := by
  have h := jobs_initial setup
  unfold frame_release.jobs at h
  exact (List.append_eq_nil_iff.mp h).1

theorem ordered_initial (setup : Setup) : Ordered (initial setup, {}) := by
  refine ⟨fun i => rfl, ?_, fun p hp => ?_⟩
  · unfold pipeline
    dsimp only
    rw [ring_initial]
    rfl
  · simp at hp

theorem Ordered.step {x y : State × Log} {e : Event} (h : Ordered x) (hstep : LogStep setup x e y) :
    Ordered y := by
  refine ⟨fun i => ?_, pipeline_step hstep h.ring, fun p hp => ?_⟩
  · obtain ⟨front, back, hline⟩ := line_step hstep i
    rw [hline.came, hline.passed, h.line i, List.append_assoc, hline.waiting, List.append_assoc]
  · rcases refused_step hstep hp with hold | hnew
    · exact h.refused p hold
    · exact hnew

theorem ordered_run {es : List Event} {s : State} {log : Log}
    (hrun : Run (LogStep setup) (initial setup, {}) es (s, log)) : Ordered (s, log) :=
  hrun.invariant (P := Ordered) (ordered_initial setup) fun _ _ _ hx hstep => hx.step hstep

theorem accounted_run {es : List Event} {s : State} {log : Log}
    (hrun : Run (LogStep setup) (initial setup, {}) es (s, log)) :
    Accounted s.stats (pending s) log := by
  refine hrun.invariant (P := fun x => Accounted x.1.stats (pending x.1) x.2) ?_
    fun _ _ _ hx hstep => accounted_step hstep hx
  have hpending : pending (initial setup) = 0 := by
    unfold pending
    rw [ring_initial]
    rfl
  dsimp only
  rw [hpending]
  exact ⟨rfl, rfl, Nat.le_refl _, rfl⟩

/-- In any interleaving, each thread takes the packets of its interface in the order in which they
came, and so does the worker, which gets all but those that found its ring full. -/
theorem packets_are_handled_in_the_order_in_which_they_came {es : List Event} {s : State}
    {log : Log} (hrun : Run (LogStep setup) (initial setup, {}) es (s, log)) :
    (∀ i, log.came_of i = log.passed_of i ++ waiting (s.queues i)) ∧
      log.worked.map (·.1) ++ s.job.toList ++ s.ring.contents = log.queued ∧
      (∀ local_idx, ((log.worked.map (·.1) ++ s.job.toList ++ s.ring.contents).filter
        (·.local_idx = local_idx)).Sublist
          ((log.came_of (.lan local_idx)).map (job_of local_idx))) ∧
      ∀ p ∈ log.passed, ∀ n, p.fate = .refused n → n + 1 = WORKER_RING_SIZE := by
  have h := ordered_run hrun
  refine ⟨h.line, h.ring, fun local_idx => ?_, h.refused⟩
  have hring := h.ring
  unfold pipeline at hring
  dsimp only at hring
  rw [hring, h.line, List.map_append]
  exact (queued_sublist log.passed local_idx).trans (List.sublist_append_left _ _)

/-- In any interleaving, the counters are the numbers of frames that the TX rings took, and every
packet that a thread has passed is one of these, a drop, a first half, or with the worker. -/
theorem every_packet_is_counted_once {es : List Event} {s : State} {log : Log}
    (hrun : Run (LogStep setup) (initial setup, {}) es (s, log)) :
    s.stats.local_to_wan = log.wan_frames.length ∧ s.stats.wan_to_local = log.lan_frames.length ∧
      s.stats.dropped_bad_ip + s.stats.dropped_no_local_match + s.stats.dropped_local_tx_fail ≤
        s.stats.total_dropped ∧
      s.stats.local_to_wan + s.stats.wan_to_local + s.stats.total_dropped + log.kept + pending s =
        log.passed.length + log.halved := by
  obtain ⟨hsent, hdelivered, hcauses, htotal⟩ := accounted_run hrun
  exact ⟨hsent, hdelivered, hcauses, htotal⟩

/-! ## Two packets of a LAN -/

def lanSetup : Setup where
  mode := .l3l4
  local_count := 1
  ring_size _ := 2
  batch_size _ := 64
  frame_size _ := 4096
  frame_size_pos _ := Nat.succ_pos 4095

/-- A thread without crypto. -/
def plainEnv : LanEnv where
  o := cleartext_leak.l3Env.o
  rt := { Runtime.boot with fwd_cfg := cleartext_leak.l3Runtime.fwd_cfg }
  tls := {}
  pkt_id_counter := 0
  frag1 := ofBytes []
  frag2 := ofBytes []
  select_wan_idx _ _ _ _ := 0
  select_policy _ _ := none
  wan_macs := cleartext_leak.l3Env.wan_macs
  tx_ok _ := true

/-- The kernel receives two packets, the thread has both for the worker, and that handles the first
one. -/
def twoPackets : List Event :=
  [.take (.lan 0), .take (.lan 0), .deliver (.lan 0) 0 (ofBytes udpPing) 46,
    .deliver (.lan 0) 0 (ofBytes udpPing) 46, .recv (.lan 0) 2, .packet_local 0 plainEnv 3,
    .packet_local 0 plainEnv 3, .dequeue, .work plainEnv]

def logStep (setup : Setup) (x : State × Log) (e : Event) : Option (State × Log) :=
  (step setup x.1 e).map fun s => (s, x.2.add setup x.1 e)

theorem logStep_some {x y : State × Log} {e : Event} (h : logStep setup x e = some y) :
    LogStep setup x e y := by
  unfold logStep at h
  obtain ⟨s, hs, rfl⟩ := Option.map_eq_some_iff.mp h
  exact ⟨hs, rfl⟩

theorem the_second_packet_waits_behind_the_first : ∃ s log,
    Run (LogStep lanSetup) (initial lanSetup, {}) twoPackets (s, log) ∧
      log.worked.map (·.1.addr) = [0] ∧ s.ring.contents.map (·.addr) = [4096] ∧
      log.worked.map (·.1) ++ s.job.toList ++ s.ring.contents = log.queued := by
  have h : (twoPackets.foldlM (logStep lanSetup) (initial lanSetup, {})).map (fun x =>
      (x.2.worked.map (·.1.addr), x.1.ring.contents.map (·.addr))) = some ([0], [4096]) := by
    decide +kernel
  obtain ⟨⟨s, log⟩, hs, hout⟩ := Option.map_eq_some_iff.mp h
  obtain ⟨hworked, hring⟩ := Prod.mk.inj hout
  have hrun := (Run.of_foldlM hs).mono fun _ _ _ he => logStep_some he
  exact ⟨s, log, hrun, hworked, hring,
    (packets_are_handled_in_the_order_in_which_they_came hrun).2.1⟩

/-! ## Three packets of a LAN and three of a WAN -/

def gatewaySetup : Setup := { lanSetup with ring_size _ := 4 }

/-- A thread that finds no policy for a packet, although there is one. -/
def unmatchedEnv : LanEnv := { cleartext_leak.l3Env with select_policy _ _ := none }

/-- The halves of `udpPing`, as a peer sends them. -/
def halves : (Buf × Nat) × (Buf × Nat) :=
  (splitPing .encrypt_l3).frags.getD ((ofBytes [], 0), (ofBytes [], 0))

def peerEnv : WanEnv := sampleEnv CRYPTO_L3_FRAG_MAGIC .encrypt_l3

/-- A WAN thread that knows the policy of the peer and no LAN. -/
def halfEnv (w : WanThread) : InboundEnv where
  toWanEnv := peerEnv
  w := w
  queue_count _ := 1
  wan_worker_index := 0
  tx_base := 0
  local_macs _ _ := none
  local_tx_ok _ _ := true

/-- The worker sends a long packet in two fragments, drops the next one and has a third one before
it; the WAN thread keeps a half, drops the packet that the other half makes, and delivers a packet
that is not encrypted. -/
def bothSides : List Event :=
  [.take (.lan 0), .take (.lan 0), .take (.lan 0), .take (.wan 0), .take (.wan 0), .take (.wan 0),
    .deliver (.lan 0) 0 (ofBytes (longDatagram 0x61)) 1500,
    .deliver (.lan 0) 0 (ofBytes udpPing) 46, .deliver (.lan 0) 0 (ofBytes udpPing) 46,
    .deliver (.wan 0) 0 halves.1.1 halves.1.2, .deliver (.wan 0) 0 halves.2.1 halves.2.2,
    .deliver (.wan 0) 0 (ofBytes udpPing) 46,
    .recv (.lan 0) 3, .packet_local 0 cleartext_leak.l3Env 3,
    .packet_local 0 cleartext_leak.l3Env 3, .dequeue,
    .recv (.wan 0) 3, .packet_wan 0 (halfEnv freshThread), .work cleartext_leak.l3Env,
    .packet_wan 0 (halfEnv (inbound_l3l4 peerEnv freshThread halves.1.1 halves.1.2).2),
    .dequeue, .work unmatchedEnv, .packet_local 0 cleartext_leak.l3Env 3,
    .packet_wan 0 (wanEnv fun _ => some lanMacs)]

theorem six_packets_are_counted_once : ∃ s log,
    Run (LogStep gatewaySetup) (initial gatewaySetup, {}) bothSides (s, log) ∧
      log.passed.length = 6 ∧ log.halved = 1 ∧ log.kept = 1 ∧ pending s = 1 ∧
      s.stats.local_to_wan = 2 ∧ s.stats.wan_to_local = 1 ∧ s.stats.dropped_no_local_match = 1 ∧
      s.stats.total_dropped = 2 ∧
      s.stats.local_to_wan = log.wan_frames.length ∧ s.stats.wan_to_local = log.lan_frames.length ∧
      s.stats.dropped_bad_ip + s.stats.dropped_no_local_match + s.stats.dropped_local_tx_fail ≤
        s.stats.total_dropped ∧
      s.stats.local_to_wan + s.stats.wan_to_local + s.stats.total_dropped + log.kept + pending s =
        log.passed.length + log.halved := by
  have h : (bothSides.foldlM (logStep gatewaySetup) (initial gatewaySetup, {})).map (fun x =>
      [x.2.passed.length, x.2.halved, x.2.kept, pending x.1, x.1.stats.local_to_wan,
        x.1.stats.wan_to_local, x.1.stats.dropped_no_local_match, x.1.stats.total_dropped]) =
      some [6, 1, 1, 1, 2, 1, 1, 2] := by decide +kernel
  obtain ⟨⟨s, log⟩, hs, hout⟩ := Option.map_eq_some_iff.mp h
  simp only [List.cons.injEq, and_true] at hout
  obtain ⟨hpassed, hhalved, hkept, hpending, hwan, hlan, hnone, hdropped⟩ := hout
  have hrun := (Run.of_foldlM hs).mono fun _ _ _ he => logStep_some he
  exact ⟨s, log, hrun, hpassed, hhalved, hkept, hpending, hwan, hlan, hnone, hdropped,
    every_packet_is_counted_once hrun⟩

end ne_ip.packet_ledger
