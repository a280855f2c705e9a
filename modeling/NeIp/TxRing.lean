-- The transmit side of a queue (interface.c): a new packet gets its buffer by the
-- number of the send, and only the free entries of the TX ring are counted.
import Mathlib.Data.Int.ModEq
import NeIp.Runs

open runs

namespace ne_ip.tx_ring

def LOCAL_TX_MAX_WAIT_LOOPS : Nat := 10000

/-- What a send reads of `struct xsk_interface`. All four rings have `ring_size` entries. -/
structure XskInterface where
  umem_size : Nat
  frame_size : Nat
  ring_size : Nat
  frame_size_pos : 0 < frame_size
  frames : 2 ≤ umem_size / frame_size % 2 ^ 32

/-- `frame_count / 2`: the buffers that packets are sent from. The count is in 32 bits. -/
def half (c : XskInterface) : Nat := c.umem_size / c.frame_size % 2 ^ 32 / 2

/-- A descriptor that was submitted. `nr` is no data of the program: it numbers the sends. -/
structure TxDesc where
  nr : Nat
  addr : Nat
  len : Nat
  deriving DecidableEq, Repr

/-- A queue: its TX ring, what the kernel has taken off it and not completed, and the
completion ring. `sent` and `overwritten` are no data of the program: how many packets were
submitted, and the descriptors whose buffer was chosen again while they were in flight. -/
structure TxQueue where
  tx_slot : Nat
  tx : List TxDesc := []
  taken : List TxDesc := []
  comp : List Nat := []
  sent : Nat := 0
  overwritten : List TxDesc := []

/-- The descriptors that are submitted and not yet completed. -/
def TxQueue.in_flight (q : TxQueue) : List TxDesc := q.tx ++ q.taken

/-- The buffer that `tx_slot` names. -/
def tx_addr (c : XskInterface) (tx_slot : Nat) : Nat := (tx_slot % half c + half c) * c.frame_size

/-! ## The steps -/

/-- `xsk_ring_cons__peek` and `xsk_ring_cons__release` on the completion ring. -/
def drain (c : XskInterface) (q : TxQueue) : TxQueue := { q with comp := q.comp.drop c.ring_size }

/-- What a send does with a reserved entry: it copies the packet to its buffer and submits. -/
def submit (c : XskInterface) (pkt_len : Nat) (q : TxQueue) : TxQueue :=
  let addr := tx_addr c q.tx_slot
  { q with
    tx_slot := (q.tx_slot + 1) % 2 ^ 64
    tx := q.tx ++ [{ nr := q.sent, addr, len := pkt_len }]
    sent := q.sent + 1
    overwritten := q.overwritten ++ q.in_flight.filter fun d => d.addr == addr }

/-- The kernel takes the first descriptor off the TX ring, or completes one that it took. -/
inductive KernelStep where
  | take
  | complete (i : Nat)

def kernel_step (c : XskInterface) (q : TxQueue) : KernelStep → TxQueue
  | .take =>
    match q.tx with
    | [] => q
    | d :: rest => { q with tx := rest, taken := q.taken ++ [d] }
  | .complete i =>
    match q.taken[i]? with
    | none => q
    | some d =>
      if q.comp.length < c.ring_size then
        { q with taken := q.taken.eraseIdx i, comp := q.comp ++ [d.addr] }
      else q

/-! ## The two send functions -/

/-- The attempts to reserve an entry, each after a drain and after what the kernel does in
between: `moves k` comes before the attempt `k`. -/
def reserve_attempts (c : XskInterface) (moves : Nat → List KernelStep) : (attempts k : Nat) →
    TxQueue → Bool × TxQueue
  | 0, _, q => (false, q)
  | attempts + 1, k, q =>
    let q := (moves k).foldl (kernel_step c) (drain c q)
    if q.tx.length < c.ring_size then (true, q) else reserve_attempts c moves attempts (k + 1) q

/-- `interface_send_batch_queue`: the first attempt and eight more. -/
def interface_send_batch_queue (c : XskInterface) (moves : Nat → List KernelStep) (pkt_len : Nat)
    (q : TxQueue) : Bool × TxQueue :=
  match reserve_attempts c moves 9 0 q with
  | (true, q) => (true, submit c pkt_len q)
  | (false, q) => (false, drain c q)

def interface_send_to_local_batch_queue (c : XskInterface) (moves : Nat → List KernelStep)
    (pkt_len : Nat) (q : TxQueue) : Bool × TxQueue :=
  match reserve_attempts c moves (LOCAL_TX_MAX_WAIT_LOOPS + 1) 0 q with
  | (true, q) => (true, submit c pkt_len q)
  | (false, q) => (false, q)

/-! ## Runs of a queue -/

/-- The atomic steps that the sends and the kernel are made of. -/
inductive TxEvent where
  | drain
  | submit (pkt_len : Nat)
  | kernel (k : KernelStep)

/-- A packet is submitted only when the TX ring has a free entry. -/
def tx_step (c : XskInterface) (q : TxQueue) : TxEvent → Option TxQueue
  | .drain => some (drain c q)
  | .submit pkt_len => if q.tx.length < c.ring_size then some (submit c pkt_len q) else none
  | .kernel k => some (kernel_step c q k)

theorem run_kernel (c : XskInterface) (ks : List KernelStep) (q : TxQueue) :
    Run (fun q e r => tx_step c q e = some r) q (ks.map .kernel) (ks.foldl (kernel_step c) q) := by
  induction ks generalizing q with
  | nil => exact Run.nil q
  | cons k ks ih =>
    have hfirst : Run (fun q e r => tx_step c q e = some r) q [.kernel k] (kernel_step c q k) :=
      Run.single rfl
    exact hfirst.append (ih _)

/-- The attempts of a send are a run, and a successful one ends with a free entry. -/
theorem run_reserve_attempts (c : XskInterface) (moves : Nat → List KernelStep) (attempts k : Nat)
    (q : TxQueue) :
    (∃ es, Run (fun q e r => tx_step c q e = some r) q es
      (reserve_attempts c moves attempts k q).2) ∧
    ((reserve_attempts c moves attempts k q).1 = true →
      (reserve_attempts c moves attempts k q).2.tx.length < c.ring_size) := by
  induction attempts generalizing k q with
  | zero => exact ⟨⟨[], Run.nil q⟩, fun h => absurd h Bool.false_ne_true⟩
  | succ attempts ih =>
    have hdrain : Run (fun q e r => tx_step c q e = some r) q [.drain] (drain c q) := Run.single rfl
    have hmoves := hdrain.append (run_kernel c (moves k) (drain c q))
    unfold reserve_attempts
    dsimp only
    split
    · rename_i hfree
      exact ⟨⟨_, hmoves⟩, fun _ => hfree⟩
    · obtain ⟨⟨es, hes⟩, hfree⟩ := ih (k + 1) ((moves k).foldl (kernel_step c) (drain c q))
      exact ⟨⟨_, hmoves.append hes⟩, hfree⟩

theorem run_submit {c : XskInterface} {q r : TxQueue} {es : List TxEvent}
    (h : Run (fun q e r => tx_step c q e = some r) q es r) (hfree : r.tx.length < c.ring_size)
    (pkt_len : Nat) :
    Run (fun q e r => tx_step c q e = some r) q (es ++ [.submit pkt_len]) (submit c pkt_len r) :=
  Run.snoc h (if_pos hfree)

/-- Every call of either function, with whatever the kernel does meanwhile, is a run of the
atomic steps. -/
theorem sends_are_runs (c : XskInterface) (moves : Nat → List KernelStep) (pkt_len : Nat)
    (q : TxQueue) :
    (∃ es, Run (fun q e r => tx_step c q e = some r) q es
      (interface_send_batch_queue c moves pkt_len q).2) ∧
    (∃ es, Run (fun q e r => tx_step c q e = some r) q es
      (interface_send_to_local_batch_queue c moves pkt_len q).2) := by
  refine ⟨?_, ?_⟩
  · obtain ⟨⟨es, hes⟩, hfree⟩ := run_reserve_attempts c moves 9 0 q
    unfold interface_send_batch_queue
    revert hes hfree
    generalize reserve_attempts c moves 9 0 q = r
    obtain ⟨ok, r⟩ := r
    intro hfree hes
    cases ok with
    | true => exact ⟨_, run_submit hes (hfree rfl) pkt_len⟩
    | false => exact ⟨_, Run.snoc hes (show tx_step c r .drain = some (drain c r) from rfl)⟩
  · obtain ⟨⟨es, hes⟩, hfree⟩ := run_reserve_attempts c moves (LOCAL_TX_MAX_WAIT_LOOPS + 1) 0 q
    unfold interface_send_to_local_batch_queue
    revert hes hfree
    generalize reserve_attempts c moves (LOCAL_TX_MAX_WAIT_LOOPS + 1) 0 q = r
    obtain ⟨ok, r⟩ := r
    intro hfree hes
    cases ok with
    | true => exact ⟨_, run_submit hes (hfree rfl) pkt_len⟩
    | false => exact ⟨_, hes⟩

/-! ## Buffers in flight -/

/-- When a packet is submitted, the one that was submitted `half c` packets before is completed,
and the counter has not wrapped or wraps at a multiple of the buffers. -/
def OldOneCompleted (c : XskInterface) (q : TxQueue) : TxEvent → Prop
  | .submit _ => (∀ d ∈ q.in_flight, d.nr + half c ≠ q.sent) ∧ (q.sent < 2 ^ 64 ∨ half c ∣ 2 ^ 64)
  | _ => True

theorem half_pos (c : XskInterface) : 0 < half c := by
  have hframes := c.frames
  unfold half
  omega

/-- What holds while the old ones are completed: everything in flight is among the last
`half c` packets, each in the buffer of its number. -/
structure InWindow (c : XskInterface) (q : TxQueue) : Prop where
  slot : q.tx_slot = q.sent % 2 ^ 64
  addr : ∀ d ∈ q.in_flight, d.addr = tx_addr c (d.nr % 2 ^ 64)
  lt : ∀ d ∈ q.in_flight, d.nr < q.sent
  recent : ∀ d ∈ q.in_flight, q.sent ≤ d.nr + half c
  overwritten : q.overwritten = []

/-- Two numbers less than a round apart name different buffers. -/
theorem tx_addr_ne (c : XskInterface) {m n : Nat} (hlt : m < n) (hnear : n < m + half c)
    (hwrap : n < 2 ^ 64 ∨ half c ∣ 2 ^ 64) :
    tx_addr c (m % 2 ^ 64) ≠ tx_addr c (n % 2 ^ 64) := by
  have hslots : m % 2 ^ 64 % half c = m % half c ∧ n % 2 ^ 64 % half c = n % half c := by
    rcases hwrap with hn | hdvd
    · rw [Nat.mod_eq_of_lt (hlt.trans hn), Nat.mod_eq_of_lt hn]
      exact ⟨rfl, rfl⟩
    · exact ⟨Nat.mod_mod_of_dvd m hdvd, Nat.mod_mod_of_dvd n hdvd⟩
  unfold tx_addr
  rw [hslots.1, hslots.2]
  intro heq
  have hslot := Nat.add_right_cancel (Nat.eq_of_mul_eq_mul_right c.frame_size_pos heq)
  -- a multiple of the round would lie between them
  have hdvd : half c ∣ n - m := (Nat.modEq_iff_dvd' hlt.le).mp hslot
  have hle := Nat.le_of_dvd (by omega) hdvd
  omega

theorem InWindow.of_in_flight {c : XskInterface} {q r : TxQueue} (h : InWindow c q)
    (hslot : r.tx_slot = q.tx_slot) (hsent : r.sent = q.sent) (hover : r.overwritten = q.overwritten)
    (hsub : ∀ d ∈ r.in_flight, d ∈ q.in_flight) : InWindow c r :=
  ⟨by rw [hslot, hsent]; exact h.slot, fun d hd => h.addr d (hsub d hd),
    fun d hd => by rw [hsent]; exact h.lt d (hsub d hd),
    fun d hd => by rw [hsent]; exact h.recent d (hsub d hd), by rw [hover]; exact h.overwritten⟩

theorem InWindow.kernel {c : XskInterface} {q : TxQueue} (h : InWindow c q) (k : KernelStep) :
    InWindow c (kernel_step c q k) := by
  unfold kernel_step
  cases k with
  | take =>
    dsimp only
    split
    · exact h
    · rename_i d rest htx
      refine h.of_in_flight rfl rfl rfl fun e he => ?_
      unfold TxQueue.in_flight at he ⊢
      rw [htx]
      simp only [List.mem_append, List.mem_cons, List.not_mem_nil, or_false] at he ⊢
      rcases he with he | he | he
      · exact Or.inl (Or.inr he)
      · exact Or.inr he
      · exact Or.inl (Or.inl he)
  | complete i =>
    dsimp only
    split
    · exact h
    split
    · refine h.of_in_flight rfl rfl rfl fun e he => ?_
      unfold TxQueue.in_flight at he ⊢
      rcases List.mem_append.mp he with he | he
      · exact List.mem_append_left _ he
      · exact List.mem_append_right _ (List.mem_of_mem_eraseIdx he)
    · exact h

theorem InWindow.submitted {c : XskInterface} {q : TxQueue} (h : InWindow c q) (pkt_len : Nat)
    (hgood : OldOneCompleted c q (.submit pkt_len)) : InWindow c (submit c pkt_len q) := by
  have hpos := half_pos c
  obtain ⟨hold, hwrap⟩ := hgood
  have hfilter : (q.in_flight.filter fun d => d.addr == tx_addr c q.tx_slot) = [] := by
    rw [List.filter_eq_nil_iff]
    intro d hd
    have hne := tx_addr_ne c (h.lt d hd)
      (Nat.lt_of_le_of_ne (h.recent d hd) fun he => hold d hd he.symm) hwrap
    rw [beq_iff_eq, h.addr d hd, h.slot]
    exact hne
  have hmem : ∀ d, d ∈ (submit c pkt_len q).in_flight →
      d ∈ q.in_flight ∨ d = { nr := q.sent, addr := tx_addr c q.tx_slot, len := pkt_len } := by
    intro d hd
    unfold submit TxQueue.in_flight at hd
    unfold TxQueue.in_flight
    simp only [List.mem_append, List.mem_singleton] at hd ⊢
    rcases hd with (hd | hd) | hd
    · exact Or.inl (Or.inl hd)
    · exact Or.inr hd
    · exact Or.inl (Or.inr hd)
  refine ⟨?_, fun d hd => ?_, fun d hd => ?_, fun d hd => ?_, ?_⟩
  · show (q.tx_slot + 1) % 2 ^ 64 = (q.sent + 1) % 2 ^ 64
    rw [h.slot]
    omega
  · rcases hmem d hd with hd | rfl
    · exact h.addr d hd
    · dsimp only
      rw [h.slot]
  · rcases hmem d hd with hd | rfl
    · exact (h.lt d hd).trans (Nat.lt_succ_self _)
    · exact Nat.lt_succ_self _
  · show q.sent + 1 ≤ d.nr + half c
    rcases hmem d hd with hd | rfl
    · exact Nat.lt_of_le_of_ne (h.recent d hd) fun he => hold d hd he.symm
    · dsimp only
      omega
  · show q.overwritten ++ _ = []
    rw [h.overwritten, hfilter]
    rfl

/-- In runs in which each packet finds the one `half c` packets before it completed, no buffer is
chosen while it is in flight. -/
theorem no_buffer_in_flight_is_chosen_again {c : XskInterface} {es : List TxEvent} {q : TxQueue}
    (hrun : Run (Guarded (OldOneCompleted c) fun q e r => tx_step c q e = some r) { tx_slot := 0 } es
      q) : q.overwritten = [] := by
  have hin : InWindow c q := by
    refine hrun.invariant (P := InWindow c) ⟨rfl, ?_, ?_, ?_, rfl⟩ ?_
    · intro d hd
      simp [TxQueue.in_flight] at hd
    · intro d hd
      simp [TxQueue.in_flight] at hd
    · intro d hd
      simp [TxQueue.in_flight] at hd
    rintro q e r hq ⟨hgood, hs⟩
    cases e with
    | drain =>
      obtain rfl := Option.some.inj hs
      exact hq.of_in_flight rfl rfl rfl fun _ hd => hd
    | submit pkt_len =>
      simp only [tx_step] at hs
      split at hs
      · obtain rfl := Option.some.inj hs
        exact hq.submitted pkt_len hgood
      · simp at hs
    | kernel k =>
      obtain rfl := Option.some.inj hs
      exact hq.kernel k
  exact hin.overwritten

/-- One megabyte of frames and rings of 128 entries, which `config_validate` accepts. -/
def smallIface : XskInterface where
  umem_size := 1024 * 1024
  frame_size := 4096
  ring_size := 128
  frame_size_pos := by decide
  frames := by decide

instance (c : XskInterface) (q : TxQueue) (e : TxEvent) : Decidable (OldOneCompleted c q e) :=
  match e with
  | .submit _ => inferInstanceAs (Decidable (_ ∧ _))
  | .drain => inferInstanceAs (Decidable True)
  | .kernel _ => inferInstanceAs (Decidable True)

/-- Each of 128 packets is sent, taken and completed; the next one goes into the buffer of the first,
and two are then in flight. -/
theorem a_completed_packet_is_not_overwritten :
    ∃ q, Run (Guarded (OldOneCompleted smallIface) fun q e r => tx_step smallIface q e = some r)
        { tx_slot := 0 }
        ((List.replicate 128
          [TxEvent.submit 60, TxEvent.kernel .take, TxEvent.kernel (.complete 0), TxEvent.drain]).flatten ++
          [TxEvent.submit 90, TxEvent.kernel .take, TxEvent.submit 60]) q ∧
      q.in_flight = [{ nr := 129, addr := 129 * 4096, len := 60 },
        { nr := 128, addr := 128 * 4096, len := 90 }] ∧
      q.overwritten = [] := by
  have hrun : (((List.replicate 128
      [TxEvent.submit 60, TxEvent.kernel .take, TxEvent.kernel (.complete 0), TxEvent.drain]).flatten ++
      [TxEvent.submit 90, TxEvent.kernel .take, TxEvent.submit 60]).foldlM (fun q e =>
        if OldOneCompleted smallIface q e then tx_step smallIface q e else none)
      { tx_slot := 0 }).map (·.in_flight) = some [{ nr := 129, addr := 129 * 4096, len := 60 },
        { nr := 128, addr := 128 * 4096, len := 90 }] := by decide +kernel
  obtain ⟨q, hq, hout⟩ := Option.map_eq_some_iff.mp hrun
  have hguarded := Run.guarded_of_foldlM hq
  exact ⟨q, hguarded, hout, no_buffer_in_flight_is_chosen_again hguarded⟩

/-- The kernel takes 128 packets off the TX ring and has completed none of them; the next one goes
into the buffer of the first. -/
theorem the_129th_packet_overwrites_the_first_one :
    ∃ q : TxQueue, Run (fun q e r => tx_step smallIface q e = some r) { tx_slot := 0 }
        ((List.replicate 128 [TxEvent.submit 60, TxEvent.kernel .take]).flatten ++
          [TxEvent.submit 90]) q ∧
      q.overwritten = [{ nr := 0, addr := 128 * 4096, len := 60 }] ∧
      q.overwritten.all (q.taken.contains ·) = true := by
  have hrun : (((List.replicate 128 [TxEvent.submit 60, TxEvent.kernel .take]).flatten ++
      [TxEvent.submit 90]).foldlM (tx_step smallIface) { tx_slot := 0 }).map (fun q =>
        (q.overwritten, q.overwritten.all (q.taken.contains ·))) =
      some ([{ nr := 0, addr := 128 * 4096, len := 60 }], true) := by decide +kernel
  obtain ⟨q, hq, hout⟩ := Option.map_eq_some_iff.mp hrun
  obtain ⟨hover, htaken⟩ := Prod.mk.inj hout
  exact ⟨q, Run.of_foldlM hq, hover, htaken⟩

end ne_ip.tx_ring
