-- The laws of stopping and starting: when the flag that every init reads is up,
-- over any interleaving of the notifications with the steps of the forwarder thread.
import NeIp.Daemon
import NeIp.Runs
import NeIp.Sample

open runs ne_ip.daemon ne_ip.sample

namespace ne_ip.restart

/-! ## The daemon with its past -/

/-- The daemon, whether a notification has stopped the forwarder so far, and whether the
`forwarder_init` of the thread that was started last was refused. -/
structure State where
  daemon : Daemon := {}
  stopped : Bool := false
  refused : Bool := false

/-- A notification between these two states has started a thread. -/
def starts (d d' : Daemon) : Bool := !d.rt.has_thread && d'.rt.has_thread

/-- The `forwarder_init` that the thread is about to make is refused. -/
def refuses (d : Daemon) : Bool := d.rt.thread == .created && forwarder_should_stop d

def step (o : packet_crypto.Openssl) (s : State) (e : Event) : Option State :=
  (daemon.step o s.daemon e).map fun d =>
    match e with
    | .notify n =>
      { daemon := d
        stopped := s.stopped || deletes_last n s.daemon
        refused := s.refused && !starts s.daemon d }
    | .join => { s with daemon := d }
    | .thread _ => { s with daemon := d, refused := s.refused || refuses s.daemon }

def Step (o : packet_crypto.Openssl) (s : State) (e : Event) (t : State) : Prop :=
  step o s e = some t

/-! ## The flag over a run -/

/-- The flag is up until a notification stops the forwarder. From then on it is down whenever
the main thread is back, and no thread is between its `forwarder_init` and its end. The thread
that is being stopped may still set the flag, and then it runs on. -/
structure Flag (s : State) : Prop where
  up : s.stopped = false →
    s.daemon.running = true ∧ s.refused = false ∧ s.daemon.joining = false
  stopping : s.daemon.joining = true → s.daemon.running = false ∨ s.daemon.rt.thread = .looping
  down : s.stopped = true → s.daemon.joining = false →
    s.daemon.running = false ∧ (s.daemon.rt.thread = .done ∨ s.daemon.rt.thread = .created)

theorem flag_boot : Flag {} :=
  ⟨fun _ => ⟨rfl, rfl, rfl⟩, fun h => absurd h (by decide), fun h => absurd h (by decide)⟩

theorem flag_notify {o : packet_crypto.Openssl} {s t : State} {n : Notify} (h : Flag s)
    (hstep : Step o s (.notify n) t) : Flag t := by
  obtain ⟨d, hd, rfl⟩ := Option.map_eq_some_iff.mp hstep
  simp only [daemon.step] at hd
  split at hd
  · simp at hd
  rename_i hfree
  rw [Bool.not_eq_true] at hfree
  obtain rfl := Option.some.inj hd
  rcases handle_profile_notify_flag o n s.daemon with ⟨hlast, hrun, hjoin, -⟩ | ⟨hlast, hsame⟩
  · refine ⟨?_, ?_, ?_⟩
    · intro hs
      simp [hlast] at hs
    · exact fun _ => Or.inl hrun
    · intro _ hj
      simp [hjoin] at hj
  · refine ⟨?_, ?_, ?_⟩
    · intro hs
      simp only [hlast, Bool.or_false] at hs
      obtain ⟨h1, h2, h3⟩ := h.up hs
      exact ⟨hsame.running.trans h1, by simp [h2], hsame.joining.trans h3⟩
    · intro hj
      rw [hsame.joining, hfree] at hj
      simp at hj
    · intro hs _
      simp only [hlast, Bool.or_false] at hs
      obtain ⟨h1, h2⟩ := h.down hs hfree
      refine ⟨hsame.running.trans h1, ?_⟩
      rcases hsame.thread with heq | hnew
      · rw [heq]
        exact h2
      · exact Or.inr hnew

theorem flag_join {o : packet_crypto.Openssl} {s t : State} (h : Flag s)
    (hstep : Step o s .join t) : Flag t := by
  obtain ⟨d, hd, rfl⟩ := Option.map_eq_some_iff.mp hstep
  simp only [daemon.step, pthread_join] at hd
  split at hd
  · rename_i hjoin
    obtain rfl := Option.some.inj hd
    have hdown : s.daemon.running = false := by
      rcases h.stopping hjoin.1 with hr | hl
      · exact hr
      · rw [hjoin.2] at hl
        cases hl
    refine ⟨?_, fun hj => absurd hj Bool.false_ne_true, fun _ _ => ⟨hdown, Or.inl hjoin.2⟩⟩
    intro hs
    have hup := (h.up hs).1
    rw [hdown] at hup
    cases hup
  · simp at hd

/-- A thread step while the flag is up leaves it up, and no init is refused. -/
theorem forwarder_thread_main_up {o : packet_crypto.Openssl} {i : InitEnv} {d d' : Daemon}
    (hup : d.running = true) (h : forwarder_thread_main o i d = some d') :
    d'.running = true ∧ d'.joining = d.joining ∧ refuses d = false := by
  have hgo : forwarder_should_stop d = false := by simp [forwarder_should_stop, hup]
  have hacc : refuses d = false := by simp [refuses, hgo]
  unfold forwarder_thread_main thread_init at h
  split at h
  · simp at h
  · obtain rfl := Option.some.inj h
    rw [if_neg (by simp [hgo])]
    dsimp only
    split <;> exact ⟨hup, rfl, hacc⟩
  · obtain rfl := Option.some.inj h
    rw [if_neg (by simp [hgo])]
    exact ⟨hup, rfl, hacc⟩
  · obtain rfl := Option.some.inj h
    rw [if_neg (by simp [hgo])]
    exact ⟨hup, rfl, hacc⟩
  · obtain rfl := Option.some.inj h
    rw [if_neg (by simp [hgo])]
    exact ⟨hup, rfl, hacc⟩
  · obtain rfl := Option.some.inj h
    exact ⟨rfl, rfl, hacc⟩
  · simp [hgo] at h
  · simp at h

/-- A thread step while the flag is down ends the thread, but for one that is past its last
check. -/
theorem forwarder_thread_main_down {o : packet_crypto.Openssl} {i : InitEnv} {d d' : Daemon}
    (hdown : d.running = false) (h : forwarder_thread_main o i d = some d') :
    d'.joining = d.joining ∧
      ((d'.running = false ∧ d'.rt.thread = .done) ∨
        (d.rt.thread = .setting ∧ d'.rt.thread = .looping)) := by
  have hstop : forwarder_should_stop d = true := by simp [forwarder_should_stop, hdown]
  unfold forwarder_thread_main thread_init at h
  simp only [hstop, if_true] at h
  split at h
  · simp at h
  case h_6 hpc =>
    obtain rfl := Option.some.inj h
    exact ⟨rfl, Or.inr ⟨hpc, rfl⟩⟩
  case h_8 => simp at h
  all_goals
    obtain rfl := Option.some.inj h
    exact ⟨rfl, Or.inl ⟨hdown, rfl⟩⟩

theorem flag_thread {o : packet_crypto.Openssl} {s t : State} {i : InitEnv} (h : Flag s)
    (hstep : Step o s (.thread i) t) : Flag t := by
  obtain ⟨d, hd, rfl⟩ := Option.map_eq_some_iff.mp hstep
  simp only [daemon.step] at hd
  cases hrun : s.daemon.running with
  | true =>
    obtain ⟨h1, h2, h3⟩ := forwarder_thread_main_up hrun hd
    refine ⟨?_, ?_, ?_⟩
    · intro hs
      obtain ⟨-, hr, hj⟩ := h.up hs
      exact ⟨h1, by simp [hr, h3], h2.trans hj⟩
    · -- a flag that is up again was set by the thread, which now runs on
      intro hj
      rcases h.stopping (h2.symm.trans hj) with hr | hl
      · rw [hrun] at hr
        cases hr
      · simp [forwarder_thread_main, hl, forwarder_should_stop, hrun] at hd
    · intro hs hj
      obtain ⟨hr, -⟩ := h.down hs (h2.symm.trans hj)
      rw [hrun] at hr
      cases hr
  | false =>
    obtain ⟨h1, h2⟩ := forwarder_thread_main_down hrun hd
    refine ⟨?_, ?_, ?_⟩
    · intro hs
      have hup := (h.up hs).1
      rw [hrun] at hup
      cases hup
    · intro _
      rcases h2 with ⟨hr, -⟩ | ⟨-, hl⟩
      · exact Or.inl hr
      · exact Or.inr hl
    · intro hs hj
      rcases h2 with ⟨hr, hdone⟩ | ⟨hset, -⟩
      · exact ⟨hr, Or.inl hdone⟩
      · rcases (h.down hs (h1.symm.trans hj)).2 with hp | hp <;>
          rw [hset] at hp <;> cases hp

theorem flag_step {o : packet_crypto.Openssl} {s t : State} {e : Event} (h : Flag s)
    (hstep : Step o s e t) : Flag t := by
  cases e with
  | notify n => exact flag_notify h hstep
  | join => exact flag_join h hstep
  | thread i => exact flag_thread h hstep

/-! ## Starting again -/

/-- With an active profile the forwarder is not told to stop, and its start is not refused. -/
def Started (s : State) : Prop :=
  s.daemon.active_ids ≠ [] → forwarder_should_stop s.daemon = false ∧ s.refused = false

/-- After any run, when the main thread is back from a notification, an active profile has its
forwarder exactly when no notification so far has deleted the last active profile. -/
theorem active_profiles_have_a_forwarder_iff_none_was_ever_stopped {o : packet_crypto.Openssl}
    {es : List Event} {s : State} (hrun : Run (Step o) {} es s)
    (hback : s.daemon.joining = false) :
    Started s ↔ (s.stopped = false ∨ s.daemon.active_ids = []) := by
  have hflag := hrun.invariant flag_boot fun _ _ _ h => flag_step h
  constructor
  · intro hst
    by_cases hnil : s.daemon.active_ids = []
    · exact Or.inr hnil
    · left
      have hgo := (hst hnil).1
      rw [← Bool.not_eq_true]
      intro hstopped
      simp [forwarder_should_stop, (hflag.down hstopped hback).1] at hgo
  · rintro (hs | hnil) hne
    · obtain ⟨hup, hacc, -⟩ := hflag.up hs
      exact ⟨by simp [forwarder_should_stop, hup], hacc⟩
    · exact absurd hnil hne

/-- The runs below: a load of profile 1, and the steps of the thread that it starts. -/
def load : Event := .notify { profile_id := 1, exists_in_db := true, db := sampleDb }
def unload : Event := .notify { profile_id := 1, exists_in_db := false, db := sampleDb }
def thread : Event := .thread { now := 1, addr := fun _ => none }

/-- Where the steps lead from boot. -/
def after (es : List Event) : State := (es.foldlM (step sampleOpenssl) {}).getD {}

/-- The thread goes from `created` to `looping`. -/
def firstRun : List Event := [load, thread, thread, thread, thread, thread]

/-- The first forwarder of the daemon runs. -/
theorem a_first_load_has_its_forwarder :
    (after firstRun).daemon.rt.thread = .looping ∧ (after firstRun).daemon.active_ids = [1] ∧
      Started (after firstRun) :=
  ⟨rfl, rfl, (active_profiles_have_a_forwarder_iff_none_was_ever_stopped
    (Run.of_foldlM (show firstRun.foldlM (step sampleOpenssl) {} = some (after firstRun) from rfl))
    rfl).mpr (Or.inl rfl)⟩

/-- The profile is deleted, the thread ends, and the profile is loaded again. -/
def secondRun : List Event := firstRun ++ [unload, thread, .join, load, thread]

/-- The profile is active again, and its forwarder was refused. -/
theorem a_load_after_the_last_delete_starts_no_forwarder :
    Run (Step sampleOpenssl) {} secondRun (after secondRun) ∧
      (after secondRun).daemon.joining = false ∧ (after secondRun).daemon.active_ids = [1] ∧
      (after secondRun).refused = true ∧ (after secondRun).daemon.rt.thread = .done ∧
      ¬ Started (after secondRun) :=
  ⟨Run.of_foldlM rfl, rfl, rfl, rfl, rfl,
    fun h => Bool.false_ne_true (h (List.cons_ne_nil 1 [])).1.symm⟩

end ne_ip.restart
