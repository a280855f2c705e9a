-- The laws of the frames: every address that a receive thread gets goes back to the fill
-- ring once, unless a WAN loop without crypto meets an ARP miss.
import NeIp.Frames
import NeIp.Runs
import NeIp.Sample

open runs circular_buffer byte_buf ne_ip.config ne_ip.fragment ne_ip.forwarder ne_ip.flow
open ne_ip.wan_queue ne_ip.worker ne_ip.queue_loops ne_ip.frames ne_ip.sample

namespace ne_ip.frame_release

/-! ## The books of a queue -/

/-- Where the addresses of a queue are, and which of them its thread has received and handed
back so far. -/
structure Books where
  fill : List Nat
  kernel : List Nat
  rx : List Nat
  /-- In a batch, in a job or in the call that hands them back. -/
  inflight : List Nat
  handed : List Nat
  received : List Nat

/-- What one step does to the books. With `early`, an address goes to the fill ring that
stays in flight. -/
inductive Move (cap : Nat) (b : Books) : (early : Bool) → Books → Prop
  | none {inflight : List Nat} :
      inflight.Perm b.inflight → Move cap b false { b with inflight }
  | take {addr : Nat} {rest : List Nat} :
      b.fill = addr :: rest →
      Move cap b false { b with fill := rest, kernel := b.kernel ++ [addr] }
  | deliver {addr : Nat} {kernel : List Nat} :
      b.kernel.Perm (addr :: kernel) → Move cap b false { b with kernel, rx := b.rx ++ [addr] }
  | recv {addrs rest inflight : List Nat} :
      b.rx = addrs ++ rest → inflight.Perm (b.inflight ++ addrs) →
      Move cap b false { b with rx := rest, inflight, received := b.received ++ addrs }
  | hand {addr : Nat} {inflight : List Nat} :
      b.inflight.Perm (addr :: inflight) →
      Move cap b false
        { b with fill := push cap b.fill addr, inflight, handed := b.handed ++ [addr] }
  | early (addr : Nat) :
      Move cap b true { b with fill := push cap b.fill addr, handed := b.handed ++ [addr] }

/-- What is received is handed back or in flight, each time once. -/
def Books.Once (b : Books) : Prop := (b.handed ++ b.inflight).Perm b.received

/-- All addresses of the queue. -/
def Books.all (b : Books) : List Nat := b.fill ++ b.kernel ++ b.rx ++ b.inflight

theorem Move.once {cap : Nat} {b b' : Books} (h : Move cap b false b') (hb : b.Once) : b'.Once := by
  unfold Books.Once at *
  rw [List.perm_iff_count] at *
  intro a
  have hba := hb a
  rw [List.count_append] at *
  cases h with
  | none hperm =>
    rw [hperm.count_eq]
    exact hba
  | take _ => exact hba
  | deliver _ => exact hba
  | recv _ hperm =>
    simp only [hperm.count_eq, List.count_append]
    omega
  | hand hperm =>
    rw [hperm.count_eq, List.count_cons] at hba
    simp only [List.count_append, List.count_cons, List.count_nil]
    omega

/-- A step without `early` loses no address, as long as there is room for all. -/
theorem Move.all {cap : Nat} {b b' : Books} (h : Move cap b false b') (hcap : b.all.length ≤ cap) :
    b'.all.Perm b.all := by
  unfold Books.all at *
  rw [List.perm_iff_count]
  intro a
  simp only [List.count_append]
  cases h with
  | none hperm => rw [hperm.count_eq]
  | take hfill =>
    simp only [hfill, List.count_append, List.count_cons, List.count_nil]
    omega
  | deliver hperm =>
    simp only [hperm.count_eq, List.count_append, List.count_cons, List.count_nil]
    omega
  | recv hrx hperm =>
    simp only [hrx, hperm.count_eq, List.count_append]
    omega
  | hand hperm =>
    have hlen := hperm.length_eq
    simp only [List.length_append, List.length_cons] at hcap hlen
    unfold push
    rw [if_pos (by omega)]
    simp only [hperm.count_eq, List.count_append, List.count_cons, List.count_nil]
    omega

/-- How many addresses were handed back too often. -/
theorem Move.excess {cap : Nat} {b b' : Books} {early : Bool} (h : Move cap b early b') :
    b'.handed.length + b'.inflight.length + b.received.length =
      b.handed.length + b.inflight.length + b'.received.length + early.toNat := by
  cases h with
  | none hperm =>
    rw [hperm.length_eq]
    rfl
  | take _ => rfl
  | deliver _ => rfl
  | recv _ hperm =>
    have hlen := hperm.length_eq
    simp only [List.length_append, Bool.toNat_false] at *
    omega
  | hand hperm =>
    have hlen := hperm.length_eq
    simp only [List.length_append, List.length_cons, List.length_nil, Bool.toNat_false] at *
    omega
  | early addr =>
    simp only [List.length_append, List.length_cons, List.length_nil, Bool.toNat_true]
    omega

/-! ## What a step does to them -/

/-- The addresses that a thread has for its queue. -/
def owned (mode : Mode) (i : Iface) : Pc → List Nat
  | .idle => []
  | .batch addrs todo => if hands_batch mode i then addrs else todo.map (·.addr)
  | .release addrs => addrs

/-- The jobs in the ring and the one that the worker has. -/
def jobs (s : State) : List PacketJob := s.ring.contents ++ s.job.toList

def enqueued (s : State) (i : Iface) : List Nat :=
  ((jobs s).filter fun job => .lan job.local_idx = i).map (·.addr)

def booksOf (mode : Mode) (i : Iface) (q : Queue) (enqueued : List Nat) : Books where
  fill := q.fill
  kernel := q.kernel
  rx := q.rx.map (·.addr)
  inflight := owned mode i q.pc ++ enqueued
  handed := q.handed
  received := q.received

def books (setup : Setup) (s : State) (i : Iface) : Books :=
  booksOf setup.mode i (s.queues i) (enqueued s i)

/-- Only interfaces that have a thread have batches and jobs. -/
structure Threaded (setup : Setup) (s : State) : Prop where
  jobs : ∀ job ∈ jobs s, job.local_idx < setup.local_count
  threads : ∀ i, (s.queues i).pc ≠ .idle → has_thread setup i = true

theorem enqueued_congr {s s' : State} (h : (jobs s').Perm (jobs s)) (i : Iface) :
    (enqueued s' i).Perm (enqueued s i) :=
  (h.filter _).map _

/-- A queue that a step leaves as it is. -/
theorem move_none {setup : Setup} {s s' : State} {i : Iface} {cap : Nat}
    (hq : s'.queues i = s.queues i) (henq : (enqueued s' i).Perm (enqueued s i)) :
    Move cap (books setup s i) false (books setup s' i) := by
  unfold books
  rw [hq]
  exact Move.none (henq.append_left _)

/-- A step at one queue. -/
theorem move_at {setup : Setup} {s s' : State} (i : Iface) (early : Bool)
    (hother : ∀ j, j ≠ i → s'.queues j = s.queues j ∧ (enqueued s' j).Perm (enqueued s j))
    (hself : Move (setup.ring_size i) (books setup s i) early (books setup s' i)) (j : Iface) :
    Move (setup.ring_size j) (books setup s j) (early && decide (j = i)) (books setup s' j) := by
  by_cases hji : j = i
  · subst hji
    rw [decide_eq_true rfl, Bool.and_true]
    exact hself
  · rw [decide_eq_false hji, Bool.and_false]
    exact move_none (hother j hji).1 (hother j hji).2

/-- A step at one queue that leaves the jobs alone. -/
theorem move_set {setup : Setup} {s : State} {i : Iface} {q : Queue} (early : Bool)
    (h : Move (setup.ring_size i) (books setup s i) early (booksOf setup.mode i q (enqueued s i)))
    (j : Iface) :
    Move (setup.ring_size j) (books setup s j) (early && decide (j = i))
      (books setup (s.set i q) j) := by
  refine move_at i early (fun j hj => ⟨s.set_of_ne hj q, List.Perm.refl _⟩) ?_ j
  unfold books at *
  rw [State.set_self]
  exact h

/-- The next packet of a batch that goes back at its end. -/
theorem owned_tail {mode : Mode} {i : Iface} (h : hands_batch mode i = true) (addrs : List Nat)
    (todo todo' : List Received) :
    owned mode i (.batch addrs todo) = owned mode i (.batch addrs todo') := by
  simp only [owned, h, if_true]

theorem take_move {setup : Setup} {s : State} {i : Iface} {addr : Nat} {rest : List Nat}
    (h : (s.queues i).fill = addr :: rest) (j : Iface) :
    Move (setup.ring_size j) (books setup s j) false
      (books setup (s.set i { s.queues i with
        fill := rest, kernel := (s.queues i).kernel ++ [addr] }) j) :=
  move_set false (Move.take (b := books setup s i) h) j

theorem deliver_move {setup : Setup} {s : State} {i : Iface} {k addr : Nat} {pkt : Buf}
    {pkt_len : Nat} (h : (s.queues i).kernel[k]? = some addr) (j : Iface) :
    Move (setup.ring_size j) (books setup s j) false
      (books setup (s.set i { s.queues i with
        kernel := (s.queues i).kernel.eraseIdx k
        rx := (s.queues i).rx ++ [{ pkt, pkt_len, addr }] }) j) := by
  obtain ⟨hk, haddr⟩ := List.getElem?_eq_some_iff.mp h
  have hperm : (s.queues i).kernel.Perm (addr :: (s.queues i).kernel.eraseIdx k) := by
    rw [← haddr]
    exact (List.getElem_cons_eraseIdx_perm hk).symm
  refine move_set false ?_ j
  unfold booksOf
  rw [List.map_append]
  exact Move.deliver (b := books setup s i) hperm

theorem recv_move {setup : Setup} {s : State} {i : Iface} {n : Nat}
    (h : (s.queues i).pc = .idle) (j : Iface) :
    Move (setup.ring_size j) (books setup s j) false
      (books setup (s.set i { s.queues i with
        rx := (s.queues i).rx.drop n
        pc := .batch (((s.queues i).rx.take n).map (·.addr)) ((s.queues i).rx.take n)
        received := (s.queues i).received ++ ((s.queues i).rx.take n).map (·.addr) }) j) := by
  have hrx : (books setup s i).rx = ((s.queues i).rx.take n).map (·.addr) ++
      ((s.queues i).rx.drop n).map (·.addr) := by
    rw [← List.map_append, List.take_append_drop]
    rfl
  have hown : owned setup.mode i (.batch (((s.queues i).rx.take n).map (·.addr))
      ((s.queues i).rx.take n)) = ((s.queues i).rx.take n).map (·.addr) := by
    simp only [owned, ite_self]
  have hin : (books setup s i).inflight = enqueued s i := by
    unfold books booksOf
    rw [h]
    rfl
  refine move_set false (Move.recv hrx ?_) j
  dsimp only
  rw [hown, hin]
  exact List.perm_append_comm

/-- One job more. -/
theorem enqueued_cons {s s' : State} {job : PacketJob} (h : (jobs s').Perm (job :: jobs s))
    (i : Iface) :
    (enqueued s' i).Perm
      ((if .lan job.local_idx = i then [job.addr] else []) ++ enqueued s i) := by
  have hperm := (h.filter fun job => .lan job.local_idx = i).map (·.addr)
  rw [List.filter_cons] at hperm
  unfold enqueued
  by_cases hi : .lan job.local_idx = i
  · rw [if_pos (decide_eq_true hi)] at hperm
    rw [if_pos hi]
    exact hperm
  · rw [if_neg (by simpa using hi)] at hperm
    rw [if_neg hi]
    exact hperm

/-- A LAN loop that leaves its packets in the batch. -/
theorem local_batch_move {setup : Setup} {s : State} {local_idx : Nat} {addrs : List Nat}
    {r : Received} {todo : List Received} {st : Stats}
    (h : (s.queues (.lan local_idx)).pc = .batch addrs (r :: todo))
    (hbatch : hands_batch setup.mode (.lan local_idx) = true) (j : Iface) :
    Move (setup.ring_size j) (books setup s j) false
      (books setup { s.set (.lan local_idx)
        { s.queues (.lan local_idx) with pc := .batch addrs todo } with stats := st } j) := by
  refine move_set false ?_ j
  unfold books booksOf
  rw [h, owned_tail hbatch addrs (r :: todo) todo]
  exact Move.none (List.Perm.refl _)

theorem enqueue_move {setup : Setup} {s : State} {local_idx : Nat} {addrs : List Nat}
    {r : Received} {todo : List Received} {job : PacketJob} {st : Stats}
    (h : (s.queues (.lan local_idx)).pc = .batch addrs (r :: todo))
    (hbatch : hands_batch setup.mode (.lan local_idx) = false)
    (hjob : job.local_idx = local_idx) (haddr : job.addr = r.addr) (j : Iface) :
    Move (setup.ring_size j) (books setup s j) false
      (books setup { s.set (.lan local_idx)
        ((local_packet_l3l4 s.ring job).1.foldl (Queue.hand (setup.ring_size (.lan local_idx)))
          { s.queues (.lan local_idx) with pc := .batch addrs todo }) with
        ring := (local_packet_l3l4 s.ring job).2, stats := st } j) := by
  have hown : ∀ todo, owned setup.mode (.lan local_idx) (.batch addrs todo) =
      todo.map (·.addr) := by
    intro todo
    simp only [owned, hbatch]
    rfl
  unfold local_packet_l3l4
  cases hpush : s.ring.push job with
  | none =>
    refine move_set false ?_ j
    unfold books booksOf
    rw [h, hown, haddr]
    refine Move.hand ?_
    change List.Perm _ (r.addr :: (owned setup.mode (.lan local_idx) (.batch addrs todo) ++ _))
    rw [hown]
    exact List.Perm.refl _
  | some ring =>
    have hjobs : (jobs { s.set (.lan local_idx)
        { s.queues (.lan local_idx) with pc := .batch addrs todo } with
        ring := ring, stats := st }).Perm (job :: jobs s) := by
      unfold jobs
      dsimp only
      rw [Ring.push_contents hpush, List.append_assoc]
      exact List.perm_middle
    have henq := enqueued_cons hjobs
    refine move_at (.lan local_idx) false (fun j hj => ⟨?_, ?_⟩) ?_ j
    · exact s.set_of_ne hj _
    · have hj' := henq j
      rw [if_neg (by rw [hjob]; exact hj.symm)] at hj'
      exact hj'
    · have hi := henq (.lan local_idx)
      rw [if_pos (by rw [hjob]), haddr] at hi
      unfold books booksOf
      rw [h, hown]
      dsimp only [List.foldl_nil]
      rw [State.set_self]
      refine Move.none ?_
      dsimp only
      rw [hown]
      refine (hi.append_left _).trans ?_
      exact List.perm_middle

theorem packet_wan_move {setup : Setup} {s : State} {wan_idx : Nat} {addrs : List Nat}
    {r : Received} {todo : List Received} {e : InboundEnv} {st : Stats}
    (h : (s.queues (.wan wan_idx)).pc = .batch addrs (r :: todo)) (j : Iface) :
    Move (setup.ring_size j) (books setup s j)
      (decide (setup.mode = .no_crypto ∧ ArpMiss e r.pkt r.pkt_len) && decide (j = .wan wan_idx))
      (books setup { s.set (.wan wan_idx)
        ((wan_packet setup.mode e r).released.foldl (Queue.hand (setup.ring_size (.wan wan_idx)))
          { s.queues (.wan wan_idx) with pc := .batch addrs todo }) with stats := st } j) := by
  have hown : owned setup.mode (.wan wan_idx) (.batch addrs todo) =
      owned setup.mode (.wan wan_idx) (s.queues (.wan wan_idx)).pc := by
    rw [h]
    exact owned_tail rfl _ _ _
  have hbooks : books setup s (.wan wan_idx) = booksOf setup.mode (.wan wan_idx)
      { s.queues (.wan wan_idx) with pc := .batch addrs todo } (enqueued s (.wan wan_idx)) := by
    unfold books booksOf
    dsimp only
    rw [hown]
  refine move_set _ ?_ j
  rw [wan_packet_released, hbooks]
  by_cases hmiss : setup.mode = .no_crypto ∧ ArpMiss e r.pkt r.pkt_len
  · rw [if_pos hmiss, decide_eq_true hmiss]
    exact Move.early r.addr
  · rw [if_neg hmiss, decide_eq_false hmiss]
    exact Move.none (List.Perm.refl _)

/-- The end of a batch hands all of it back, or leaves it to the worker. -/
theorem batch_done_move {setup : Setup} {s : State} {i : Iface} {addrs : List Nat}
    (h : (s.queues i).pc = .batch addrs []) (j : Iface) :
    Move (setup.ring_size j) (books setup s j) false
      (books setup (s.set i { s.queues i with
        pc := if hands_batch setup.mode i then .release addrs else .idle }) j) := by
  refine move_set false ?_ j
  unfold books booksOf
  rw [h]
  refine Move.none ?_
  dsimp only
  split
  · rename_i hh
    rw [show owned setup.mode i (.batch addrs []) = addrs by simp only [owned, hh, if_true]]
    rfl
  · rename_i hh
    rw [show owned setup.mode i (.batch addrs []) = [] by simp only [owned, hh]; rfl]
    rfl

theorem release_done_move {setup : Setup} {s : State} {i : Iface}
    (h : (s.queues i).pc = .release []) (j : Iface) :
    Move (setup.ring_size j) (books setup s j) false
      (books setup (s.set i { s.queues i with pc := .idle }) j) := by
  refine move_set false ?_ j
  unfold books booksOf
  rw [h]
  exact Move.none (List.Perm.refl _)

theorem release_move {setup : Setup} {s : State} {i : Iface} {addr : Nat} {rest : List Nat}
    (h : (s.queues i).pc = .release (addr :: rest)) (j : Iface) :
    Move (setup.ring_size j) (books setup s j) false
      (books setup (s.set i
        (Queue.hand (setup.ring_size i) { s.queues i with pc := .release rest } addr)) j) := by
  refine move_set false ?_ j
  unfold books booksOf
  rw [h]
  exact Move.hand (List.Perm.refl _)

theorem work_move {setup : Setup} {s : State} {job : PacketJob} {st : Stats}
    (h : s.job = some job) (hlt : job.local_idx < setup.local_count) (j : Iface) :
    Move (setup.ring_size j) (books setup s j) false
      (books setup { s.set (.lan job.local_idx)
        ((release_local setup.local_count job).foldl
          (Queue.hand (setup.ring_size (.lan job.local_idx))) (s.queues (.lan job.local_idx))) with
        job := none, stats := st } j) := by
  unfold release_local
  rw [if_pos hlt]
  have hjobs : (jobs s).Perm (job :: jobs { s.set (.lan job.local_idx)
      (([job.addr] : List Nat).foldl (Queue.hand (setup.ring_size (.lan job.local_idx)))
        (s.queues (.lan job.local_idx))) with job := none, stats := st }) := by
    unfold jobs
    rw [h]
    dsimp only [Option.toList]
    rw [List.append_nil]
    exact List.perm_append_singleton _ _
  have henq := enqueued_cons hjobs
  refine move_at (.lan job.local_idx) false (fun j hj => ⟨?_, ?_⟩) ?_ j
  · exact s.set_of_ne hj _
  · have hj' := henq j
    rw [if_neg hj.symm] at hj'
    exact hj'.symm
  · have hi := henq (.lan job.local_idx)
    rw [if_pos rfl] at hi
    unfold books booksOf
    dsimp only [List.foldl_cons, List.foldl_nil]
    rw [State.set_self]
    refine Move.hand ?_
    refine (hi.append_left _).trans ?_
    exact List.perm_middle

/-- A step at some queue is a move of the books there, an early one at an ARP miss. -/
theorem step_move {setup : Setup} {s s' : State} {e : Event} (ht : Threaded setup s)
    (h : Step setup s e s') (j : Iface) :
    Move (setup.ring_size j) (books setup s j) (decide (arp_miss setup s e = some j))
      (books setup s' j) := by
  cases step_cases h with
  | take hfill => exact take_move hfill j
  | deliver pkt pkt_len hk => exact deliver_move hk j
  | recv hpc hthread => exact recv_move hpc j
  | packet_local e encrypt_layer hpc hd =>
    subst hd
    unfold local_packet
    cases hm : setup.mode with
    | no_crypto => exact local_batch_move hpc (by rw [hm]; rfl) j
    | l2 => exact local_batch_move hpc (by rw [hm]; rfl) j
    | l3l4 => exact enqueue_move hpc (by rw [hm]; rfl) rfl rfl j
  | @packet_wan wan_idx addrs r todo e hpc =>
    have hflag : decide (arp_miss setup s (.packet_wan wan_idx e) = some j) =
        (decide (setup.mode = .no_crypto ∧ ArpMiss e r.pkt r.pkt_len) &&
          decide (j = .wan wan_idx)) := by
      rw [arp_miss_of_batch hpc]
      by_cases hmiss : setup.mode = .no_crypto ∧ ArpMiss e r.pkt r.pkt_len
      · simp [hmiss, eq_comm]
      · simp [hmiss]
    rw [hflag]
    exact packet_wan_move hpc j
  | batch_done hpc => exact batch_done_move hpc j
  | release_done hpc => exact release_done_move hpc j
  | release hpc => exact release_move hpc j
  | dequeue hjob hpop =>
    refine move_none rfl (enqueued_congr ?_ j)
    unfold jobs
    dsimp only [Option.toList]
    rw [Ring.pop_contents hpop, hjob]
    dsimp only [Option.toList]
    rw [List.append_nil]
    exact List.perm_append_singleton _ _
  | work e hjob =>
    refine work_move hjob (ht.jobs _ ?_) j
    unfold jobs
    rw [hjob]
    exact List.mem_append_right _ (List.mem_singleton_self _)
  | stop => exact move_none rfl (List.Perm.refl _)

/-! ## Threads and jobs -/

theorem pc_hand (cap : Nat) (q : Queue) (addrs : List Nat) :
    (addrs.foldl (Queue.hand cap) q).pc = q.pc := by
  induction addrs generalizing q with
  | nil => rfl
  | cons addr rest ih => exact ih (Queue.hand cap q addr)

/-- A step of a queue whose thread exists, with no job that is not there or of that thread. -/
theorem Threaded.at {setup : Setup} {s s' : State} (h : Threaded setup s) (i : Iface)
    (hother : ∀ j, j ≠ i → s'.queues j = s.queues j)
    (hself : (s'.queues i).pc ≠ .idle → has_thread setup i = true)
    (hjobs : ∀ job ∈ frame_release.jobs s', job ∈ frame_release.jobs s ∨
      job.local_idx < setup.local_count) : Threaded setup s' := by
  constructor
  · intro job hjob
    rcases hjobs job hjob with hold | hlt
    · exact h.jobs job hold
    · exact hlt
  · intro j hpc
    by_cases hji : j = i
    · subst hji
      exact hself hpc
    · rw [hother j hji] at hpc
      exact h.threads j hpc

/-- A LAN loop enqueues jobs of its own interface only. -/
theorem mem_jobs_local_packet {setup : Setup} {s : State} {local_idx : Nat} {e : LanEnv}
    {encrypt_layer : Nat} {job : PacketJob} (hidx : job.local_idx = local_idx) {q : Queue}
    {st : Stats} {job' : PacketJob}
    (h : job' ∈ frame_release.jobs { s.set (.lan local_idx) q with
      ring := (local_packet setup.mode e encrypt_layer s.ring s.stats job).2.1, stats := st }) :
    job' ∈ frame_release.jobs s ∨ job'.local_idx = local_idx := by
  unfold local_packet at h
  cases hm : setup.mode with
  | no_crypto =>
    rw [hm] at h
    exact Or.inl h
  | l2 =>
    rw [hm] at h
    exact Or.inl h
  | l3l4 =>
    rw [hm] at h
    unfold local_packet_l3l4 at h
    dsimp only at h
    split at h
    · rename_i ring hpush
      unfold frame_release.jobs at h
      dsimp only at h
      rw [Ring.push_contents hpush, List.append_assoc, List.mem_append, List.mem_append] at h
      rcases h with hin | hnew | hin
      · exact Or.inl (List.mem_append_left _ hin)
      · rw [List.mem_singleton.mp hnew]
        exact Or.inr hidx
      · exact Or.inl (List.mem_append_right _ hin)
    · exact Or.inl h

theorem Threaded.step {setup : Setup} {s s' : State} {e : Event} (h : Threaded setup s)
    (hstep : Step setup s e s') : Threaded setup s' := by
  have hold : ∀ job ∈ frame_release.jobs s, job ∈ frame_release.jobs s ∨
      job.local_idx < setup.local_count := fun _ hjob => Or.inl hjob
  cases step_cases hstep with
  | @take i =>
    refine h.at i (fun j hj => s.set_of_ne hj _) ?_ hold
    rw [State.set_self]
    exact h.threads i
  | @deliver i =>
    refine h.at i (fun j hj => s.set_of_ne hj _) ?_ hold
    rw [State.set_self]
    exact h.threads i
  | recv hpc hthread => exact h.at _ (fun j hj => s.set_of_ne hj _) (fun _ => hthread) hold
  | @packet_local local_idx _ _ _ e encrypt_layer _ hpc hd =>
    subst hd
    have hthread := h.threads (.lan local_idx) (by rw [hpc]; simp)
    refine h.at (.lan local_idx) (fun j hj => s.set_of_ne hj _) (fun _ => hthread) ?_
    intro job hjob
    rcases mem_jobs_local_packet rfl hjob with hin | hidx
    · exact Or.inl hin
    · rw [hidx]
      exact Or.inr (of_decide_eq_true hthread)
  | @packet_wan wan_idx =>
    exact h.at (.wan wan_idx) (fun j hj => s.set_of_ne hj _) (fun _ => rfl) hold
  | @batch_done i _ hpc | @release_done i hpc | @release i _ _ hpc =>
    exact h.at i (fun j hj => s.set_of_ne hj _) (fun _ => h.threads i (by rw [hpc]; simp)) hold
  | dequeue hjob hpop =>
    refine ⟨fun job' hin => h.jobs job' ?_, h.threads⟩
    unfold frame_release.jobs at *
    rw [Ring.pop_contents hpop]
    rcases List.mem_append.mp hin with hin | hin
    · exact List.mem_append_left _ (List.mem_cons_of_mem _ hin)
    · obtain rfl := List.mem_singleton.mp hin
      exact List.mem_append_left _ List.mem_cons_self
  | @work e job hjob =>
    refine h.at (.lan job.local_idx) (fun j hj => s.set_of_ne hj _) ?_ ?_
    · dsimp only
      rw [State.set_self, pc_hand]
      exact h.threads _
    · intro job' hin
      exact Or.inl (List.mem_append_left _ (by simpa [frame_release.jobs, State.set] using hin))
  | stop => exact ⟨h.jobs, h.threads⟩

/-! ## Every frame goes back once -/

theorem length_umem_frames (setup : Setup) (i : Iface) :
    (umem_frames setup i).length = setup.ring_size i := by
  rw [umem_frames, List.length_map, List.length_range]

theorem jobs_initial (setup : Setup) : jobs (initial setup) = [] := by
  have hsize : WorkerRing.start.size = 0 := by
    rw [Ring.size_eq]
    rfl
  unfold jobs
  rw [show (initial setup).ring.contents = [] from
    List.length_eq_zero_iff.mp ((Ring.length_contents _).trans hsize)]
  rfl

/-- What every step without an ARP miss keeps. -/
structure Balanced (setup : Setup) (s : State) : Prop where
  threaded : Threaded setup s
  once : ∀ i, (books setup s i).Once
  all : ∀ i, (books setup s i).all.Perm (umem_frames setup i)

theorem Balanced.step {setup : Setup} {s s' : State} {e : Event} (h : Balanced setup s)
    (hgood : NoArpMiss setup s e) (hstep : Step setup s e s') : Balanced setup s' := by
  have hmove : ∀ i, Move (setup.ring_size i) (books setup s i) false (books setup s' i) := by
    intro i
    have hi := step_move h.threaded hstep i
    rw [hgood, decide_eq_false (by simp)] at hi
    exact hi
  refine ⟨h.threaded.step hstep, fun i => (hmove i).once (h.once i), fun i => ?_⟩
  have hlen := (h.all i).length_eq
  rw [length_umem_frames] at hlen
  exact ((hmove i).all hlen.le).trans (h.all i)

/-- Nothing is handed back too seldom, and nothing too often only without an ARP miss. -/
structure Tally (setup : Setup) (es : List Event) (s : State) : Prop where
  threaded : Threaded setup s
  le : ∀ i, (books setup s i).received.length ≤
    (books setup s i).handed.length + (books setup s i).inflight.length
  guarded : (∀ i, (books setup s i).handed.length + (books setup s i).inflight.length =
      (books setup s i).received.length) →
    Run (Guarded (NoArpMiss setup) (Step setup)) (initial setup) es s

/-- What an ARP miss adds stays. -/
theorem Tally.step {setup : Setup} {es : List Event} {s s' : State} {e : Event}
    (h : Tally setup es s) (hstep : Step setup s e s') : Tally setup (es ++ [e]) s' := by
  have hexcess := fun i => (step_move h.threaded hstep i).excess
  refine ⟨h.threaded.step hstep, fun i => ?_, fun heq => Run.snoc (h.guarded fun i => ?_) ⟨?_, hstep⟩⟩
  · have hi := hexcess i
    have hle := h.le i
    omega
  · have hi := hexcess i
    have hle := h.le i
    have heqi := heq i
    omega
  · refine Option.eq_none_iff_forall_ne_some.mpr fun i hmiss => ?_
    have hi := hexcess i
    rw [decide_eq_true hmiss, Bool.toNat_true] at hi
    have hle := h.le i
    have heqi := heq i
    omega

/-- A WAN thread with the LAN 10.0.1.0/24, for which ARP knows the hosts of `arp`. -/
def wanEnv (arp : UInt32 → Option (Vector UInt8 12)) : InboundEnv where
  o := sampleOpenssl
  magic := 17
  rt := { Runtime.boot with
    fwd_cfg := { locals := [{
      ifname := [0x6c, 0x61, 0x6e, 0x30]
      ip := 0x0a000101
      netmask := 0xffffff00
      network := 0x0a000100 }] } }
  now_ms := 2
  now_ns := 2000000
  reass_buf := ofBytes []
  w := { tls := {}, frag_l2 := frag_table_init, frag_l3 := frag_table_init, frag_l4 := frag_table_init }
  queue_count _ := 1
  wan_worker_index := 0
  tx_base := 0
  local_macs _ := arp
  local_tx_ok _ _ := true

def lanMacs : Vector UInt8 12 :=
  #v[0x02, 0x00, 0x00, 0x00, 0x01, 0x02, 0x02, 0x00, 0x00, 0x00, 0x01, 0x01]

end ne_ip.frame_release
