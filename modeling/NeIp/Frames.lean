-- The frames of the receive queues on their way: from the fill ring through the kernel
-- into a batch of a receive thread, with the L3 and L4 loops on through the ring of the
-- worker, and back (forwarder.c, interface.c).
import NeIp.QueueLoops

open circular_buffer byte_buf ne_ip.flow ne_ip.wan_queue ne_ip.worker ne_ip.queue_loops

namespace ne_ip.frames

/-- The queue of a LAN or of a WAN interface, of which each has one. -/
inductive Iface where
  | lan (local_idx : Nat)
  | wan (wan_idx : Nat)
  deriving DecidableEq, Repr

/-- The loops that `forwarder_run` starts; those for L3 and L4 are the same. -/
inductive Mode where
  | no_crypto
  | l2
  | l3l4
  deriving DecidableEq, Repr

/-- What does not change while the threads run. -/
structure Setup where
  mode : Mode
  local_count : Nat
  ring_size : Iface → Nat
  batch_size : Iface → Nat
  frame_size : Iface → Nat
  frame_size_pos : ∀ i, 0 < frame_size i

/-- A descriptor of the RX ring, with the packet that it points to. -/
structure Received where
  pkt : Buf
  pkt_len : Nat
  addr : Nat

/-- Where a receive thread is: without a batch, at the packets of one that it has not
reached yet, or in the call that hands its addresses back. -/
inductive Pc where
  | idle
  | batch (addrs : List Nat) (todo : List Received)
  | release (addrs : List Nat)

/-- A queue and its thread. An address stands for its frame, without the headroom that the
kernel masks. -/
structure Queue where
  fill : List Nat
  /-- The frames that the kernel has taken to receive into. -/
  kernel : List Nat := []
  rx : List Received := []
  pc : Pc := .idle
  /-- All addresses that the thread has received so far. -/
  received : List Nat := []
  /-- All addresses that `interface_recv_release_single_queue` has been given so far. -/
  handed : List Nat := []

/-- The counters of `struct forwarder`. -/
structure Stats where
  local_to_wan : Nat := 0
  wan_to_local : Nat := 0
  total_dropped : Nat := 0
  dropped_bad_ip : Nat := 0
  dropped_no_local_match : Nat := 0
  dropped_local_tx_fail : Nat := 0

def Stats.outbound (st : Stats) (r : Outbound) : Stats :=
  { st with
    local_to_wan := st.local_to_wan + r.local_to_wan
    total_dropped := st.total_dropped + r.total_dropped }

def Stats.delivered (st : Stats) (d : Delivered) : Stats :=
  { st with
    wan_to_local := st.wan_to_local + d.wan_to_local
    total_dropped := st.total_dropped + d.total_dropped
    dropped_bad_ip := st.dropped_bad_ip + d.dropped_bad_ip
    dropped_no_local_match := st.dropped_no_local_match + d.dropped_no_local_match
    dropped_local_tx_fail := st.dropped_local_tx_fail + d.dropped_local_tx_fail }

/-- The queues, the ring of the worker, the job that it has taken from it, and the flag. -/
structure State where
  queues : Iface → Queue
  ring : WorkerRing := WorkerRing.start
  job : Option PacketJob := none
  stats : Stats := {}
  running : Bool := true

/-- The frames of a queue. -/
def umem_frames (setup : Setup) (i : Iface) : List Nat :=
  (List.range (setup.ring_size i)).map (· * setup.frame_size i)

/-- The state after `forwarder_init`: every frame is in the fill ring. -/
def initial (setup : Setup) : State where
  queues i := { fill := umem_frames setup i }

def State.set (s : State) (i : Iface) (q : Queue) : State :=
  { s with queues := Function.update s.queues i q }

@[simp] theorem State.set_self (s : State) (i : Iface) (q : Queue) : (s.set i q).queues i = q := by
  unfold State.set
  exact Function.update_self _ _ _

theorem State.set_of_ne (s : State) {i j : Iface} (h : j ≠ i) (q : Queue) :
    (s.set i q).queues j = s.queues j := by
  unfold State.set
  exact Function.update_of_ne h _ _

/-! ## The steps -/

/-- An address on its way into a fill ring, which drops it without room. -/
def push (cap : Nat) (fill : List Nat) (addr : Nat) : List Nat :=
  if fill.length < cap then fill ++ [addr] else fill

/-- `interface_recv_release_single_queue` at one address. -/
def Queue.hand (cap : Nat) (q : Queue) (addr : Nat) : Queue :=
  { q with
    fill := push cap q.fill addr
    handed := q.handed ++ [addr] }

/-- The thread of an interface exists. -/
def has_thread (setup : Setup) : Iface → Bool
  | .lan local_idx => decide (local_idx < setup.local_count)
  | .wan _ => true

/-- A loop hands its batch back at its end, but for those that leave it to the worker. -/
def hands_batch (mode : Mode) : Iface → Bool
  | .lan _ => mode != .l3l4
  | .wan _ => true

/-- What a WAN loop does with a packet. -/
def wan_packet (mode : Mode) (e : InboundEnv) (r : Received) : Delivered :=
  match mode with
  | .no_crypto => wan_packet_no_crypto e r.pkt r.pkt_len r.addr
  | .l2 => (wan_packet_l2 e r.pkt r.pkt_len).1
  | .l3l4 => (wan_packet_l3l4 e r.pkt r.pkt_len).1

/-- What a LAN loop does with a packet: the addresses that it hands back, the ring of the
worker and the counters. -/
def local_packet (mode : Mode) (e : LanEnv) (encrypt_layer : Nat) (ring : WorkerRing)
    (st : Stats) (job : PacketJob) : List Nat × WorkerRing × Stats :=
  match mode with
  | .no_crypto => ([], ring, st.outbound (local_packet_no_crypto e job))
  | .l2 => ([], ring, st.outbound (local_packet_l2 e encrypt_layer job))
  | .l3l4 =>
    let r := local_packet_l3l4 ring job
    (r.1, r.2, { st with total_dropped := st.total_dropped + r.1.length })

inductive Event where
  /-- The kernel takes the next frame of a fill ring. -/
  | take (i : Iface)
  /-- The kernel has received a packet into the `k`-th of its frames. -/
  | deliver (i : Iface) (k : Nat) (pkt : Buf) (pkt_len : Nat)
  /-- A thread receives a batch of `n` packets. -/
  | recv (i : Iface) (n : Nat)
  /-- A thread handles the next packet of its batch. -/
  | packet_local (local_idx : Nat) (e : LanEnv) (encrypt_layer : Nat)
  | packet_wan (wan_idx : Nat) (e : InboundEnv)
  /-- A thread is done with its batch, or hands the next address of it back. -/
  | next (i : Iface)
  /-- The worker takes a job, and handles it. -/
  | dequeue
  | work (e : LanEnv)
  /-- `forwarder_stop`. -/
  | stop

def step (setup : Setup) (s : State) : Event → Option State
  | .take i =>
    let q := s.queues i
    match q.fill with
    | [] => none
    | addr :: rest => some (s.set i { q with fill := rest, kernel := q.kernel ++ [addr] })
  | .deliver i k pkt pkt_len =>
    let q := s.queues i
    match q.kernel[k]? with
    | none => none
    | some addr =>
      if q.rx.length < setup.ring_size i then
        some (s.set i { q with
          kernel := q.kernel.eraseIdx k
          rx := q.rx ++ [{ pkt, pkt_len, addr }] })
      else none
  | .recv i n =>
    let q := s.queues i
    match q.pc with
    | .idle =>
      if s.running = true ∧ has_thread setup i = true ∧ 0 < n ∧ n ≤ setup.batch_size i ∧
          n ≤ q.rx.length then
        let rcvd := q.rx.take n
        let addrs := rcvd.map (·.addr)
        some (s.set i { q with
          rx := q.rx.drop n
          pc := .batch addrs rcvd
          received := q.received ++ addrs })
      else none
    | _ => none
  | .packet_local local_idx e encrypt_layer =>
    let q := s.queues (.lan local_idx)
    match q.pc with
    | .batch addrs (r :: todo) =>
      let job : PacketJob := { local_idx, pkt := r.pkt, pkt_len := r.pkt_len, addr := r.addr }
      let d := local_packet setup.mode e encrypt_layer s.ring s.stats job
      let q := d.1.foldl (Queue.hand (setup.ring_size (.lan local_idx)))
        { q with pc := .batch addrs todo }
      some { s.set (.lan local_idx) q with ring := d.2.1, stats := d.2.2 }
    | _ => none
  | .packet_wan wan_idx e =>
    let q := s.queues (.wan wan_idx)
    match q.pc with
    | .batch addrs (r :: todo) =>
      let d := wan_packet setup.mode e r
      let q := d.released.foldl (Queue.hand (setup.ring_size (.wan wan_idx)))
        { q with pc := .batch addrs todo }
      some { s.set (.wan wan_idx) q with stats := s.stats.delivered d }
    | _ => none
  | .next i =>
    let q := s.queues i
    match q.pc with
    | .batch addrs [] =>
      some (s.set i { q with pc := if hands_batch setup.mode i then .release addrs else .idle })
    | .release [] => some (s.set i { q with pc := .idle })
    | .release (addr :: rest) =>
      some (s.set i (Queue.hand (setup.ring_size i) { q with pc := .release rest } addr))
    | _ => none
  | .dequeue =>
    if s.running = true ∧ s.job.isNone = true then
      s.ring.pop.map fun r => { s with job := some r.1, ring := r.2 }
    else none
  | .work e =>
    match s.job with
    | none => none
    | some job =>
      let i := Iface.lan job.local_idx
      let q := (release_local setup.local_count job).foldl (Queue.hand (setup.ring_size i))
        (s.queues i)
      some { s.set i q with job := none, stats := s.stats.outbound (worker_packet e job) }
  | .stop => some { s with running := false }

def Step (setup : Setup) (s : State) (e : Event) (s' : State) : Prop := step setup s e = some s'

/-- The steps, each with what it finds. -/
inductive Stepped (setup : Setup) (s : State) : Event → State → Prop
  | take {i : Iface} {addr : Nat} {rest : List Nat} (hfill : (s.queues i).fill = addr :: rest) :
      Stepped setup s (.take i)
        (s.set i { s.queues i with fill := rest, kernel := (s.queues i).kernel ++ [addr] })
  | deliver {i : Iface} {k addr : Nat} (pkt : Buf) (pkt_len : Nat)
      (hk : (s.queues i).kernel[k]? = some addr) :
      Stepped setup s (.deliver i k pkt pkt_len)
        (s.set i { s.queues i with
          kernel := (s.queues i).kernel.eraseIdx k
          rx := (s.queues i).rx ++ [{ pkt, pkt_len, addr }] })
  | recv {i : Iface} {n : Nat} (hpc : (s.queues i).pc = .idle)
      (hthread : has_thread setup i = true) :
      Stepped setup s (.recv i n)
        (s.set i { s.queues i with
          rx := (s.queues i).rx.drop n
          pc := .batch (((s.queues i).rx.take n).map (·.addr)) ((s.queues i).rx.take n)
          received := (s.queues i).received ++ ((s.queues i).rx.take n).map (·.addr) })
  | packet_local {local_idx : Nat} {addrs : List Nat} {r : Received} {todo : List Received}
      (e : LanEnv) (encrypt_layer : Nat) {d : List Nat × WorkerRing × Stats}
      (hpc : (s.queues (.lan local_idx)).pc = .batch addrs (r :: todo))
      (hd : local_packet setup.mode e encrypt_layer s.ring s.stats
        { local_idx, pkt := r.pkt, pkt_len := r.pkt_len, addr := r.addr } = d) :
      Stepped setup s (.packet_local local_idx e encrypt_layer)
        { s.set (.lan local_idx) (d.1.foldl (Queue.hand (setup.ring_size (.lan local_idx)))
            { s.queues (.lan local_idx) with pc := .batch addrs todo }) with
          ring := d.2.1, stats := d.2.2 }
  | packet_wan {wan_idx : Nat} {addrs : List Nat} {r : Received} {todo : List Received}
      (e : InboundEnv) (hpc : (s.queues (.wan wan_idx)).pc = .batch addrs (r :: todo)) :
      Stepped setup s (.packet_wan wan_idx e)
        { s.set (.wan wan_idx) ((wan_packet setup.mode e r).released.foldl
            (Queue.hand (setup.ring_size (.wan wan_idx)))
            { s.queues (.wan wan_idx) with pc := .batch addrs todo }) with
          stats := s.stats.delivered (wan_packet setup.mode e r) }
  | batch_done {i : Iface} {addrs : List Nat} (hpc : (s.queues i).pc = .batch addrs []) :
      Stepped setup s (.next i)
        (s.set i { s.queues i with
          pc := if hands_batch setup.mode i then .release addrs else .idle })
  | release_done {i : Iface} (hpc : (s.queues i).pc = .release []) :
      Stepped setup s (.next i) (s.set i { s.queues i with pc := .idle })
  | release {i : Iface} {addr : Nat} {rest : List Nat}
      (hpc : (s.queues i).pc = .release (addr :: rest)) :
      Stepped setup s (.next i)
        (s.set i (Queue.hand (setup.ring_size i) { s.queues i with pc := .release rest } addr))
  | dequeue {job : PacketJob} {ring : WorkerRing} (hjob : s.job = none)
      (hpop : s.ring.pop = some (job, ring)) :
      Stepped setup s .dequeue { s with job := some job, ring }
  | work (e : LanEnv) {job : PacketJob} (hjob : s.job = some job) :
      Stepped setup s (.work e)
        { s.set (.lan job.local_idx) ((release_local setup.local_count job).foldl
            (Queue.hand (setup.ring_size (.lan job.local_idx))) (s.queues (.lan job.local_idx))) with
          job := none, stats := s.stats.outbound (worker_packet e job) }
  | stop : Stepped setup s .stop { s with running := false }

theorem step_cases {setup : Setup} {s s' : State} {e : Event} (h : Step setup s e s') :
    Stepped setup s e s' := by
  unfold Step step at h
  cases e with
  | take i =>
    dsimp only at h
    split at h
    · simp at h
    · exact Option.some.inj h ▸ Stepped.take ‹_›
  | deliver i k pkt pkt_len =>
    dsimp only at h
    split at h
    · simp at h
    rename_i addr hk
    split at h
    · exact Option.some.inj h ▸ Stepped.deliver pkt pkt_len hk
    · simp at h
  | recv i n =>
    dsimp only at h
    split at h
    · rename_i hpc
      split at h
      · rename_i hrecv
        exact Option.some.inj h ▸ Stepped.recv hpc hrecv.2.1
      · simp at h
    · simp at h
  | packet_local local_idx e encrypt_layer =>
    dsimp only at h
    split at h
    · exact Option.some.inj h ▸ Stepped.packet_local e encrypt_layer ‹_› rfl
    · simp at h
  | packet_wan wan_idx e =>
    dsimp only at h
    split at h
    · exact Option.some.inj h ▸ Stepped.packet_wan e ‹_›
    · simp at h
  | next i =>
    dsimp only at h
    split at h
    · exact Option.some.inj h ▸ Stepped.batch_done ‹_›
    · exact Option.some.inj h ▸ Stepped.release_done ‹_›
    · exact Option.some.inj h ▸ Stepped.release ‹_›
    · simp at h
  | dequeue =>
    dsimp only at h
    split at h
    · rename_i hfree
      obtain ⟨⟨job, ring⟩, hpop, rfl⟩ := Option.map_eq_some_iff.mp h
      exact Stepped.dequeue (Option.isNone_iff_eq_none.mp hfree.2) hpop
    · simp at h
  | work e =>
    dsimp only at h
    split at h
    · simp at h
    · exact Option.some.inj h ▸ Stepped.work e ‹_›
  | stop => exact Option.some.inj h ▸ Stepped.stop

/-! ## The packets that go back twice -/

/-- The queue whose thread hands an address back in the middle of its batch. -/
def arp_miss (setup : Setup) (s : State) : Event → Option Iface
  | .packet_wan wan_idx e =>
    match (s.queues (.wan wan_idx)).pc with
    | .batch _ (r :: _) =>
      if setup.mode = .no_crypto ∧ ArpMiss e r.pkt r.pkt_len then some (.wan wan_idx) else none
    | _ => none
  | _ => none

def NoArpMiss (setup : Setup) (s : State) (e : Event) : Prop := arp_miss setup s e = none

instance (setup : Setup) (s : State) (e : Event) : Decidable (NoArpMiss setup s e) :=
  inferInstanceAs (Decidable (_ = none))

theorem arp_miss_of_batch {setup : Setup} {s : State} {wan_idx : Nat} {addrs : List Nat}
    {r : Received} {todo : List Received}
    (h : (s.queues (.wan wan_idx)).pc = .batch addrs (r :: todo)) (e : InboundEnv) :
    arp_miss setup s (.packet_wan wan_idx e) =
      if setup.mode = .no_crypto ∧ ArpMiss e r.pkt r.pkt_len then some (.wan wan_idx) else none := by
  unfold arp_miss
  dsimp only
  rw [h]

theorem wan_packet_released (mode : Mode) (e : InboundEnv) (r : Received) :
    (wan_packet mode e r).released =
      if mode = .no_crypto ∧ ArpMiss e r.pkt r.pkt_len then [r.addr] else [] := by
  cases mode with
  | no_crypto =>
    unfold wan_packet wan_packet_no_crypto
    rw [send_to_local_released]
    simp
  | l2 =>
    unfold wan_packet wan_packet_l2
    rw [deliver_released]
    simp
  | l3l4 =>
    unfold wan_packet wan_packet_l3l4
    rw [deliver_released]
    simp

end ne_ip.frames
