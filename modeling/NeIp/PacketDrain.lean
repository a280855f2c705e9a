-- The threads come to rest: a run has at most seven steps of the threads for each packet,
-- and where none of them can go on, every packet is accounted for (forwarder.c).
import NeIp.PacketLedger
import Mathlib.Algebra.BigOperators.Group.Finset.Basic

open runs circular_buffer byte_buf ne_ip.forwarder ne_ip.wan_queue ne_ip.worker
open ne_ip.queue_loops ne_ip.frames ne_ip.frame_release ne_ip.sample ne_ip.packet_ledger

namespace ne_ip.packet_drain

variable {setup : Setup}

/-- The steps of the threads; the others are those of the kernel and `forwarder_stop`. -/
def internal : Event → Bool
  | .take _ => false
  | .deliver _ _ _ _ => false
  | .stop => false
  | _ => true

/-! ## What is left to do -/

/-- A bound on the steps of a thread before it is without a batch. -/
def steps_of : Pc → Nat
  | .idle => 0
  | .batch addrs todo => 3 * todo.length + addrs.length + 2
  | .release addrs => addrs.length + 1

/-- A packet of the RX ring takes the receive, three steps up to the end of its job, and one to hand
back its address; the end of the batch takes two more. -/
def steps_left (q : Queue) : Nat := 7 * q.rx.length + steps_of q.pc

def left (used : Finset Iface) (s : State) : Nat :=
  ∑ i ∈ used, steps_left (s.queues i) + 2 * s.ring.contents.length + s.job.toList.length

/-- The other interfaces have nothing to do. -/
def Rests (used : Finset Iface) (s : State) : Prop := ∀ i, i ∉ used → steps_left (s.queues i) = 0

/-- The interfaces in use after a step. -/
def touch (used : Finset Iface) : Event → Finset Iface
  | .take i => insert i used
  | .deliver i _ _ _ => insert i used
  | .recv i _ => insert i used
  | .packet_local local_idx _ _ => insert (.lan local_idx) used
  | .packet_wan wan_idx _ => insert (.wan wan_idx) used
  | .next i => insert i used
  | _ => used

theorem steps_left_hand (cap : Nat) (q : Queue) (addrs : List Nat) :
    steps_left (addrs.foldl (Queue.hand cap) q) = steps_left q := by
  unfold steps_left
  rw [pc_hand, rx_hand]

/-- A step at one queue, from what it does to this queue, the ring and the job. -/
theorem left_at {used : Finset Iface} {s s' : State} {i : Iface} {q : Queue} {cost gain : Nat}
    (h : Rests used s) (hqueues : s'.queues = (s.set i q).queues)
    (hcost : steps_left q + 2 * s'.ring.contents.length + s'.job.toList.length + cost ≤
      steps_left (s.queues i) + 2 * s.ring.contents.length + s.job.toList.length + gain) :
    Rests (insert i used) s' ∧ left (insert i used) s' + cost ≤ left used s + gain := by
  have hself : s'.queues i = q := by rw [hqueues, State.set_self]
  have hother : ∀ j, j ≠ i → s'.queues j = s.queues j := by
    intro j hj
    rw [hqueues, s.set_of_ne hj]
  refine ⟨fun j hj => ?_, ?_⟩
  · obtain ⟨hji, hj⟩ := not_or.mp (Finset.mem_insert.not.mp hj)
    rw [hother j hji]
    exact h j hj
  · have hsum : ∑ j ∈ (insert i used).erase i, steps_left (s'.queues j) =
        ∑ j ∈ (insert i used).erase i, steps_left (s.queues j) :=
      Finset.sum_congr rfl fun j hj => by rw [hother j (Finset.ne_of_mem_erase hj)]
    -- an interface that rests adds nothing
    have hinsert : ∑ j ∈ insert i used, steps_left (s.queues j) =
        ∑ j ∈ used, steps_left (s.queues j) := by
      by_cases hi : i ∈ used
      · rw [Finset.insert_eq_of_mem hi]
      · rw [Finset.sum_insert hi, h i hi, Nat.zero_add]
    have hold := Finset.add_sum_erase (insert i used) (fun j => steps_left (s.queues j))
      (Finset.mem_insert_self i used)
    have hnew := Finset.add_sum_erase (insert i used) (fun j => steps_left (s'.queues j))
      (Finset.mem_insert_self i used)
    rw [hself] at hnew
    unfold left
    omega

/-- A step at one queue that leaves the worker alone. -/
theorem left_queue {used : Finset Iface} {s s' : State} {i : Iface} {q : Queue} {cost gain : Nat}
    (h : Rests used s) (hqueues : s'.queues = (s.set i q).queues) (hring : s'.ring = s.ring)
    (hjob : s'.job = s.job) (hcost : steps_left q + cost ≤ steps_left (s.queues i) + gain) :
    Rests (insert i used) s' ∧ left (insert i used) s' + cost ≤ left used s + gain := by
  refine left_at h hqueues ?_
  rw [hring, hjob]
  omega

/-- A step by which a receive thread alone goes on in its batch. -/
theorem left_own {used : Finset Iface} {s s' : State} {i : Iface} {q : Queue} (came : Nat)
    (h : Rests used s) (hqueues : s'.queues = (s.set i q).queues) (hring : s'.ring = s.ring)
    (hjob : s'.job = s.job) (hrx : q.rx = (s.queues i).rx)
    (hpc : steps_of q.pc + 1 ≤ steps_of (s.queues i).pc) :
    Rests (insert i used) s' ∧
      left (insert i used) s' + (7 * came + 1) ≤ left used s + 7 * came := by
  refine left_queue h hqueues hring hjob ?_
  unfold steps_left
  rw [hrx]
  omega

/-- The worker is done with its job: the queue of the job has as much to do as before. -/
theorem left_work {used : Finset Iface} {s s' : State} {job : PacketJob} {i : Iface} {cap : Nat}
    {addrs : List Nat} (came : Nat) (h : Rests used s) (hjob : s.job = some job)
    (hqueues : s'.queues = (s.set i (addrs.foldl (Queue.hand cap) (s.queues i))).queues)
    (hring : s'.ring = s.ring) (hdone : s'.job = none) :
    Rests used s' ∧ left used s' + (7 * came + 1) ≤ left used s + 7 * came := by
  have hsteps : ∀ j, steps_left (s'.queues j) = steps_left (s.queues j) := by
    intro j
    rw [hqueues]
    by_cases hj : j = i
    · rw [hj, State.set_self, steps_left_hand]
    · rw [s.set_of_ne hj]
  refine ⟨fun j hj => (hsteps j).trans (h j hj), ?_⟩
  unfold left
  rw [Finset.sum_congr rfl fun j _ => hsteps j, hjob, hring, hdone]
  simp only [Option.toList_some, Option.toList_none, List.length_singleton, List.length_nil]
  omega

theorem recv_takes {s s' : State} {i : Iface} {n : Nat} (h : Step setup s (.recv i n) s') :
    0 < n ∧ n ≤ (s.queues i).rx.length := by
  unfold Step step at h
  dsimp only at h
  split at h
  · split at h
    · rename_i hrecv
      exact ⟨hrecv.2.2.1, hrecv.2.2.2.2⟩
    · simp at h
  · simp at h

/-- A packet of a LAN adds at most one job. -/
theorem length_local_packet_ring (mode : Mode) (e : LanEnv) (encrypt_layer : Nat)
    (ring : WorkerRing) (st : Stats) (local_idx : Nat) (r : Received) :
    (local_packet mode e encrypt_layer ring st (job_of local_idx r)).2.1.contents.length ≤
      ring.contents.length + 1 := by
  rw [local_packet_ring, List.length_append]
  have hone := Option.length_toList_le
    (o := Passed.queued_job { iface := .lan local_idx, pkt := r
                              fate := local_fate mode e encrypt_layer ring (job_of local_idx r) })
  omega

/-- Each step of a thread leaves less to do, and each packet that comes seven steps more. -/
theorem left_step {used : Finset Iface} {x y : State × Log} {e : Event} (h : LogStep setup x e y)
    (hrests : Rests used x.1) :
    Rests (touch used e) y.1 ∧
      left (touch used e) y.1 + (7 * x.2.came.length + (internal e).toNat) ≤
        left used x.1 + 7 * y.2.came.length := by
  obtain ⟨s, log⟩ := x
  obtain ⟨s', log'⟩ := y
  obtain ⟨hstep, hlog⟩ := h
  dsimp only at hstep hlog hrests ⊢
  subst hlog
  cases step_cases hstep with
  | take hfill => exact left_queue hrests rfl rfl rfl (Nat.le_refl _)
  | @deliver i k addr pkt pkt_len hk =>
    unfold Log.add
    dsimp only
    rw [hk]
    refine left_queue hrests rfl rfl rfl ?_
    simp only [steps_left, internal, List.length_append, List.length_singleton, Bool.toNat_false]
    omega
  | @recv i n hpc hthread =>
    obtain ⟨hpos, hle⟩ := recv_takes hstep
    refine left_queue hrests rfl rfl rfl ?_
    change _ ≤ _ + 7 * log.came.length
    simp only [steps_left, steps_of, internal, hpc, List.length_map, List.length_take,
      List.length_drop, Bool.toNat_true]
    omega
  | @packet_local local_idx addrs r rest e encrypt_layer d hpc hd =>
    subst hd
    unfold Log.add
    dsimp only
    rw [hpc]
    have hone := length_local_packet_ring setup.mode e encrypt_layer s.ring s.stats local_idx r
    refine left_at hrests rfl ?_
    rw [steps_left_hand]
    simp only [steps_left, steps_of, internal, hpc, List.length_cons, Bool.toNat_true]
    change _ + 2 * (local_packet setup.mode e encrypt_layer s.ring s.stats
      (job_of local_idx r)).2.1.contents.length + s.job.toList.length + _ ≤ _
    omega
  | @packet_wan wan_idx addrs r rest e hpc =>
    unfold Log.add
    dsimp only
    rw [hpc]
    refine left_own log.came.length hrests rfl rfl rfl (rx_hand _ _ _) ?_
    rw [pc_hand, hpc]
    simp only [steps_of, List.length_cons]
    omega
  | @batch_done i addrs hpc =>
    refine left_own log.came.length hrests rfl rfl rfl rfl ?_
    rw [hpc]
    dsimp only
    split
    · simp only [steps_of, List.length_nil]
      omega
    · simp only [steps_of, List.length_nil]
      omega
  | @release_done i hpc =>
    refine left_own log.came.length hrests rfl rfl rfl rfl ?_
    rw [hpc]
    exact Nat.le_refl _
  | @release i addr rest hpc =>
    refine left_own log.came.length hrests rfl rfl rfl rfl ?_
    rw [hpc]
    exact Nat.le_refl _
  | @dequeue job ring hjob hpop =>
    refine ⟨hrests, ?_⟩
    change left used _ + (7 * log.came.length + 1) ≤ left used s + 7 * log.came.length
    unfold left
    dsimp only
    rw [hjob, Ring.pop_contents hpop, List.length_cons]
    simp only [Option.toList_some, Option.toList_none, List.length_singleton, List.length_nil]
    omega
  | @work e job hjob =>
    unfold Log.add
    dsimp only
    rw [hjob]
    exact left_work log.came.length hrests hjob rfl rfl rfl
  | stop => exact ⟨hrests, Nat.le_refl _⟩

theorem left_initial (setup : Setup) : Rests ∅ (initial setup) ∧ left ∅ (initial setup) = 0 := by
  refine ⟨fun i _ => rfl, ?_⟩
  unfold left
  rw [ring_initial, Finset.sum_empty]
  rfl

/-- The threads have made at most seven steps for each packet, at the interfaces that the events are
about. -/
theorem steps_run {es : List Event} {s : State} {log : Log}
    (hrun : Run (LogStep setup) (initial setup, {}) es (s, log)) :
    Rests (es.foldl touch ∅) s ∧
      left (es.foldl touch ∅) s + es.countP internal ≤ 7 * log.came.length := by
  refine hrun.history (P := fun es x => Rests (es.foldl touch ∅) x.1 ∧
    left (es.foldl touch ∅) x.1 + es.countP internal ≤ 7 * x.2.came.length) ?_ ?_
  · obtain ⟨hrests, hleft⟩ := left_initial setup
    refine ⟨hrests, ?_⟩
    dsimp only [List.foldl_nil]
    rw [hleft]
    exact Nat.le_refl _
  · rintro es x e y ⟨hrests, hleft⟩ hstep
    obtain ⟨hrests', hleft'⟩ := left_step hstep hrests
    rw [List.foldl_append, List.foldl_cons, List.foldl_nil, countP_concat]
    exact ⟨hrests', by omega⟩

/-! ## Where no thread can go on -/

/-- No thread has a step. -/
def Stuck (setup : Setup) (s : State) : Prop := ∀ e t, internal e = true → ¬Step setup s e t

theorem Stuck.step_eq {s : State} (h : Stuck setup s) {e : Event} (he : internal e = true) :
    step setup s e = none :=
  Option.eq_none_iff_forall_ne_some.mpr fun t ht => h e t he ht

theorem Stuck.worker {s : State} (h : Stuck setup s) (hrunning : s.running = true) (e : LanEnv) :
    s.job = none ∧ s.ring.contents = [] := by
  have hjob : s.job = none := by
    have hwork := h.step_eq (e := .work e) rfl
    unfold step at hwork
    dsimp only at hwork
    split at hwork
    · assumption
    · simp at hwork
  refine ⟨hjob, Ring.contents_of_pop_none ?_⟩
  have hdequeue := h.step_eq (e := .dequeue) rfl
  unfold step at hdequeue
  dsimp only at hdequeue
  rw [if_pos ⟨hrunning, by rw [hjob]; rfl⟩] at hdequeue
  exact Option.map_eq_none_iff.mp hdequeue

/-- Nothing to do is left. -/
theorem stuck_of_rest {s : State} (hqueues : ∀ i, steps_left (s.queues i) = 0) (hjob : s.job = none)
    (hring : s.ring.contents = []) : Stuck setup s := by
  have hidle : ∀ i, (s.queues i).pc = .idle := by
    intro i
    have hi := hqueues i
    unfold steps_left at hi
    cases hpc : (s.queues i).pc with
    | idle => rfl
    | _ =>
      rw [hpc] at hi
      simp [steps_of] at hi
  intro e t he hstep
  cases step_cases hstep with
  | take | deliver | stop => simp [internal] at he
  | @recv i n =>
    obtain ⟨hpos, hle⟩ := recv_takes hstep
    have hi := hqueues i
    unfold steps_left at hi
    omega
  | packet_local _ _ hpc | packet_wan _ hpc | batch_done hpc | release_done hpc | release hpc =>
    rw [hidle] at hpc
    simp at hpc
  | dequeue _ hpop =>
    rw [Ring.pop_contents hpop] at hring
    simp at hring
  | work _ hsome =>
    rw [hjob] at hsome
    simp at hsome

/-- A thread that has no step is without packets. -/
theorem Stuck.waiting {s : State} (h : Stuck setup s) (hrunning : s.running = true) (e : InboundEnv)
    (e' : LanEnv) {i : Iface} (hbatch : 0 < setup.batch_size i)
    (hthread : has_thread setup i = true) : waiting (s.queues i) = [] := by
  cases hpc : (s.queues i).pc with
  | idle =>
    by_contra hne
    have hrx : 1 ≤ (s.queues i).rx.length := by
      unfold packet_ledger.waiting at hne
      rw [hpc] at hne
      exact List.length_pos_iff.mpr hne
    have hrecv := h.step_eq (e := .recv i 1) rfl
    unfold step at hrecv
    dsimp only at hrecv
    rw [hpc] at hrecv
    dsimp only at hrecv
    rw [if_pos ⟨hrunning, hthread, Nat.one_pos, hbatch, hrx⟩] at hrecv
    simp at hrecv
  | batch addrs todo =>
    cases todo with
    | nil =>
      have hnext := h.step_eq (e := .next i) rfl
      unfold step at hnext
      dsimp only at hnext
      rw [hpc] at hnext
      simp at hnext
    | cons r rest =>
      cases i with
      | lan local_idx =>
        have hpacket := h.step_eq (e := .packet_local local_idx e' 0) rfl
        unfold step at hpacket
        dsimp only at hpacket
        rw [hpc] at hpacket
        simp at hpacket
      | wan wan_idx =>
        have hpacket := h.step_eq (e := .packet_wan wan_idx e) rfl
        unfold step at hpacket
        dsimp only at hpacket
        rw [hpc] at hpacket
        simp at hpacket
  | release addrs =>
    have hnext := h.step_eq (e := .next i) rfl
    unfold step at hnext
    dsimp only at hnext
    rw [hpc] at hnext
    cases addrs with
    | nil => simp at hnext
    | cons addr rest => simp at hnext

/-- Two ledgers with the same packets at every interface. -/
theorem length_came_eq {log : Log} (h : ∀ i, log.came_of i = log.passed_of i) :
    log.came.length = log.passed.length := by
  have hperm : (log.came.map (·.1)).Perm (log.passed.map (·.iface)) := by
    rw [List.perm_iff_count]
    intro i
    have hlen := congrArg List.length (h i)
    unfold Log.came_of Log.passed_of at hlen
    rw [List.length_map, List.length_map] at hlen
    rw [List.count_eq_countP, List.count_eq_countP, List.countP_map, List.countP_map,
      List.countP_eq_length_filter, List.countP_eq_length_filter]
    exact hlen
  have hlen := hperm.length_eq
  rwa [List.length_map, List.length_map] at hlen

/-- In any interleaving the threads make at most seven steps for each packet, and where none of them
can go on, every packet that came has been passed, the worker has handled its jobs, and the counters
add up to the packets: each is a frame that was sent, two fragments, a drop, or a first half. -/
theorem the_threads_come_to_rest_with_every_packet_counted {es : List Event} {s : State} {log : Log}
    (hrun : Run (LogStep setup) (initial setup, {}) es (s, log))
    (hbatch : ∀ i, 0 < setup.batch_size i)
    (hthreads : ∀ p ∈ log.came, has_thread setup p.1 = true) :
    es.countP internal ≤ 7 * log.came.length ∧
      (s.running = true → Stuck setup s →
        (∀ i, log.came_of i = log.passed_of i) ∧ log.worked.map (·.1) = log.queued ∧
        s.stats.local_to_wan + s.stats.wan_to_local + s.stats.total_dropped + log.kept =
          log.came.length + log.halved) := by
  have hsteps := (steps_run hrun).2
  refine ⟨by omega, fun hrunning hstuck => ?_⟩
  obtain ⟨hline, hring, -⟩ := ordered_run hrun
  unfold pipeline at hring
  dsimp only at hline hring
  obtain ⟨hjob, hempty⟩ := hstuck.worker hrunning plainEnv
  have hall : ∀ i, log.came_of i = log.passed_of i := by
    intro i
    have hwaiting : waiting (s.queues i) = [] := by
      by_cases hthread : has_thread setup i = true
      · exact hstuck.waiting hrunning (wanEnv fun _ => none) plainEnv (hbatch i) hthread
      · -- nothing has come to an interface without a thread
        have hcame : log.came_of i = [] := by
          unfold Log.came_of
          rw [List.filter_eq_nil_iff.mpr fun p hp => ?_]
          · rfl
          · intro hpi
            exact hthread (of_decide_eq_true hpi ▸ hthreads p hp)
        rw [hline i] at hcame
        exact (List.append_eq_nil_iff.mp hcame).2
    rw [hline i, hwaiting, List.append_nil]
  refine ⟨hall, ?_, ?_⟩
  · rw [hjob, hempty] at hring
    simpa using hring
  · have htotal := (accounted_run hrun).total
    unfold pending at htotal
    rw [hjob, hempty] at htotal
    rw [length_came_eq hall, ← htotal]
    rfl

/-- The two packets of `twoPackets`, and all that the threads do with them. -/
def drained : List Event :=
  twoPackets ++ [.next (.lan 0), .dequeue, .work plainEnv]

theorem two_packets_are_done_after_eight_steps : ∃ s log,
    Run (LogStep lanSetup) (initial lanSetup, {}) drained (s, log) ∧ log.came.length = 2 ∧
      drained.countP internal = 8 ∧ s.running = true ∧ Stuck lanSetup s ∧
      s.stats.local_to_wan + s.stats.wan_to_local + s.stats.total_dropped + log.kept =
        2 + log.halved := by
  have h : (drained.foldlM (logStep lanSetup) (initial lanSetup, {})).map (fun x =>
      (x.2.came.map (·.1), x.1.running, x.1.job.isNone, x.1.ring.contents.length,
        steps_left (x.1.queues (.lan 0)))) = some ([.lan 0, .lan 0], true, true, 0, 0) := by
    decide +kernel
  obtain ⟨⟨s, log⟩, hs, hout⟩ := Option.map_eq_some_iff.mp h
  simp only [Prod.mk.injEq] at hout
  obtain ⟨hcame, hrunning, hjob, hring, hlan⟩ := hout
  have hrun : Run (LogStep lanSetup) (initial lanSetup, {}) drained (s, log) :=
    (Run.of_foldlM hs).mono fun _ _ _ he => logStep_some he
  have hlength : log.came.length = 2 := by
    rw [← List.length_map (f := fun p : Iface × Received => p.1), hcame]
    rfl
  have hrests : ∀ i, steps_left (s.queues i) = 0 := by
    intro i
    by_cases hi : i = .lan 0
    · rw [hi]
      exact hlan
    · refine (steps_run hrun).1 i ?_
      rw [show drained.foldl touch ∅ = {.lan 0} by decide]
      exact fun hin => hi (Finset.mem_singleton.mp hin)
  have hstuck : Stuck lanSetup s :=
    stuck_of_rest hrests (Option.isNone_iff_eq_none.mp hjob) (List.length_eq_zero_iff.mp hring)
  have hthreads : ∀ p ∈ log.came, has_thread lanSetup p.1 = true := by
    intro p hp
    have hmem := List.mem_map_of_mem (f := fun p : Iface × Received => p.1) hp
    rw [hcame] at hmem
    simp only [List.mem_cons, List.not_mem_nil, or_false, or_self] at hmem
    rw [hmem]
    rfl
  have htotal := ((the_threads_come_to_rest_with_every_packet_counted hrun 
    (fun _ => show 0 < 64 by decide) hthreads).2 hrunning hstuck).2.2
  rw [hlength] at htotal
  exact ⟨s, log, hrun, hlength, by decide, hrunning, hstuck, htotal⟩

end ne_ip.packet_drain
