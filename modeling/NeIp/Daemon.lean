-- The daemon (main.c): the notifications that load and unload profiles, and the
-- forwarder thread that they start, reload and stop.
import NeIp.DbRuntime
import NeIp.Forwarder

open ne_ip.packet_crypto ne_ip.config ne_ip.db_runtime ne_ip.forwarder

namespace ne_ip.daemon

def MAX_ACTIVE_PROFILE_IDS : Nat := 32

/-! ## The active ids -/

/-- 1: added, 0: was there, -1: the set is full. -/
def active_ids_add (active_ids : List Int) (id : Int) : Int × List Int :=
  if active_ids.any (· == id) then (0, active_ids)
  else if active_ids.length ≥ MAX_ACTIVE_PROFILE_IDS then (-1, active_ids)
  else (1, active_ids ++ [id])

def active_ids_remove (active_ids : List Int) (id : Int) : Bool × List Int :=
  (active_ids.any (· == id), active_ids.filter (· != id))

/-! ## The state -/

/-- Where the forwarder thread is in `forwarder_thread_main`. In `setting` it has passed the
check of `forwarder_run` and is about to set the flag. -/
inductive ThreadPc where
  | absent
  | created
  | initialised
  | logged
  | entering
  | setting
  | looping
  | done
  deriving DecidableEq, Repr

/-- The slots of the configuration are numbers below 2. -/
instance slots_ne_zero : NeZero 2 := Nat.instNeZeroSucc

/-- `struct runtime_state`. `fwd_cfg` is the slot that `fwd.cfg` points to. -/
structure RuntimeState where
  fwd_cfg : Option (Fin 2) := none
  cfg_slots : Fin 2 → AppConfig := fun _ => {}
  active_slot : Fin 2 := 0
  thread : ThreadPc := .absent
  has_thread : Bool := false
  running : Bool := false

/-- The two threads, the globals of forwarder.c and its flag `running`. While `joining`, the
main thread waits in the `pthread_join` of `runtime_stop_forwarder`. -/
structure Daemon where
  rt : RuntimeState := {}
  active_ids : List Int := []
  globals : Runtime := Runtime.boot
  running : Bool := true
  joining : Bool := false

def forwarder_should_stop (d : Daemon) : Bool := !d.running

def set_slot (slots : Fin 2 → AppConfig) (s : Fin 2) (cfg : AppConfig) : Fin 2 → AppConfig :=
  fun i => if i = s then cfg else slots i

@[simp] theorem set_slot_self (slots : Fin 2 → AppConfig) (s : Fin 2) (cfg : AppConfig) :
    set_slot slots s cfg s = cfg := if_pos rfl

@[simp] theorem set_slot_set_slot (slots : Fin 2 → AppConfig) (s : Fin 2) (cfg cfg' : AppConfig) :
    set_slot (set_slot slots s cfg) s cfg' = set_slot slots s cfg' := by
  funext i
  unfold set_slot
  split <;> rfl

theorem set_slot_of_ne {slots : Fin 2 → AppConfig} {s i : Fin 2} (h : i ≠ s) (cfg : AppConfig) :
    set_slot slots s cfg i = slots i := if_neg h

theorem next_slot_ne (s : Fin 2) : s ≠ 1 - s := by
  revert s
  decide

/-! ## The main thread -/

/-- What a notification finds outside the daemon: whether the profile exists in the database,
what the database holds, whether a thread can be created, and the thread's crypto settings. -/
structure Notify where
  profile_id : Int
  exists_in_db : Bool
  db : Db
  can_create : Bool := true
  tls : Tls := {}

/-- `runtime_start`; -1 is `false`. -/
def runtime_start (can_create : Bool) (cfg : AppConfig) (d : Daemon) : Bool × Daemon :=
  let rt := { d.rt with
    active_slot := 0
    cfg_slots := set_slot d.rt.cfg_slots 0 cfg
    running := false }
  if can_create then (true, { d with rt := { rt with thread := .created, has_thread := true } })
  else (false, { d with rt })

/-- The copy into the slot that is not in use. -/
def stage (cfg : AppConfig) (d : Daemon) : Daemon :=
  { d with rt := { d.rt with
      cfg_slots := set_slot d.rt.cfg_slots (1 - d.rt.active_slot) cfg } }

/-- The call of `forwarder_reload_config` with that slot. Without a `fwd.cfg` it fails. -/
def reload_slot (o : Openssl) (tls : Tls) (cfg : AppConfig) (d : Daemon) : Bool × Daemon :=
  match d.rt.fwd_cfg with
  | none => (false, d)
  | some s =>
    match forwarder_reload_config o tls cfg { d.globals with fwd_cfg := d.rt.cfg_slots s } with
    | none => (false, d)
    | some globals =>
      let next_slot := 1 - d.rt.active_slot
      (true, { d with
        globals
        rt := { d.rt with
          fwd_cfg := some next_slot
          active_slot := next_slot
          cfg_slots := set_slot d.rt.cfg_slots next_slot globals.fwd_cfg } })

def apply_active_configs (o : Openssl) (n : Notify) (d : Daemon) : Bool × Daemon :=
  match build_merged_config n.db d.active_ids with
  | none => (false, d)
  | some merged_cfg =>
    if !d.rt.has_thread then runtime_start n.can_create merged_cfg d
    else reload_slot o n.tls merged_cfg (stage merged_cfg d)

/-- 0 = loaded, 1 = already active (no reload), -1 = error. -/
def load_profile_and_run (o : Openssl) (n : Notify) (d : Daemon) : Int × Daemon :=
  let d := if !d.rt.has_thread then { d with active_ids := [] } else d
  let added := active_ids_add d.active_ids n.profile_id
  if added.1 < 0 then (-1, d)
  else if added.1 = 0 then (1, d)
  else
    let r := apply_active_configs o n { d with active_ids := added.2 }
    if !r.1 then
      (-1, { r.2 with active_ids := (active_ids_remove r.2.active_ids n.profile_id).2 })
    else (0, r.2)

/-- `runtime_stop_forwarder` up to its `pthread_join`. -/
def runtime_stop_forwarder (d : Daemon) : Daemon :=
  if !d.rt.has_thread then d else { d with running := false, joining := true }

/-- `handle_profile_notify`; -1 is `false`. -/
def handle_profile_notify (o : Openssl) (n : Notify) (d : Daemon) : Bool × Daemon :=
  if n.exists_in_db then
    let lr := load_profile_and_run o n d
    if lr.1 = 1 then (true, lr.2)
    else if lr.1 ≠ 0 then (false, lr.2)
    else (true, lr.2)
  else
    let removed := active_ids_remove d.active_ids n.profile_id
    if !removed.1 then (true, d)
    else
      let d := { d with active_ids := removed.2 }
      if d.active_ids = [] then (true, runtime_stop_forwarder d)
      else apply_active_configs o n d

/-- The rest of `runtime_stop_forwarder`, when the thread has ended. -/
def pthread_join (d : Daemon) : Option Daemon :=
  if d.joining ∧ d.rt.thread = .done then
    some { d with rt := { d.rt with has_thread := false, running := false }, joining := false }
  else none

/-! ## The forwarder thread -/

/-- What a `forwarder_init` finds: the time, the thread's crypto settings, the addresses of the
LAN interfaces, and whether all interfaces come up. -/
structure InitEnv where
  now : Nat
  tls : Tls := {}
  addr : Nat → Option (UInt32 × Option UInt32)
  up : Bool := true

/-- The thread ends; an initialised forwarder has been cleaned up. -/
def leave (d : Daemon) : Daemon :=
  { d with rt := { d.rt with thread := .done, running := false } }

/-- The `forwarder_init` of the thread, in one step. -/
def thread_init (o : Openssl) (i : InitEnv) (d : Daemon) : Daemon :=
  if forwarder_should_stop d then leave d
  else
    let s := d.rt.active_slot
    let r := forwarder.forwarder_init o i.tls i.now i.addr (d.rt.cfg_slots s) d.globals
    let d := { d with
      globals := r.2
      rt := { d.rt with fwd_cfg := some s, cfg_slots := set_slot d.rt.cfg_slots s r.2.fwd_cfg } }
    if r.1 && i.up then { d with rt := { d.rt with thread := .initialised } } else leave d

/-- The next step of `forwarder_thread_main` and of `forwarder_run` in it, which comes back
when the flag is down. -/
def forwarder_thread_main (o : Openssl) (i : InitEnv) (d : Daemon) : Option Daemon :=
  match d.rt.thread with
  | .absent => none
  | .created => some (thread_init o i d)
  | .initialised =>
    some (if forwarder_should_stop d then leave d
      else { d with rt := { d.rt with thread := .logged } })
  | .logged =>
    some (if forwarder_should_stop d then leave d
      else { d with rt := { d.rt with thread := .entering, running := true } })
  | .entering =>
    some (if forwarder_should_stop d then leave d
      else { d with rt := { d.rt with thread := .setting } })
  | .setting => some { d with running := true, rt := { d.rt with thread := .looping } }
  | .looping => if forwarder_should_stop d then some (leave d) else none
  | .done => none

/-! ## The steps -/

inductive Event where
  | notify (n : Notify)
  | join
  | thread (i : InitEnv)

/-- The main thread takes a notification when it is done with the one before. -/
def step (o : Openssl) (d : Daemon) : Event → Option Daemon
  | .notify n => if d.joining then none else some (handle_profile_notify o n d).2
  | .join => pthread_join d
  | .thread i => forwarder_thread_main o i d

def Step (o : Openssl) (d : Daemon) (e : Event) (d' : Daemon) : Prop := step o d e = some d'

/-! ## What a notification leaves alone -/

/-- The notification of the last active profile as deleted, with a forwarder to stop. -/
def deletes_last (n : Notify) (d : Daemon) : Bool :=
  !n.exists_in_db && d.rt.has_thread && (active_ids_remove d.active_ids n.profile_id).1 &&
    (active_ids_remove d.active_ids n.profile_id).2.isEmpty

/-- The flag is the same, and the thread is where it was or is a new one. -/
structure SameFlag (d d' : Daemon) : Prop where
  running : d'.running = d.running
  joining : d'.joining = d.joining
  thread : d'.rt.thread = d.rt.thread ∨ d'.rt.thread = .created

theorem runtime_start_sameFlag (can_create : Bool) (cfg : AppConfig) (d : Daemon) :
    SameFlag d (runtime_start can_create cfg d).2 := by
  cases can_create with
  | true => exact ⟨rfl, rfl, Or.inr rfl⟩
  | false => exact ⟨rfl, rfl, Or.inl rfl⟩

theorem reload_slot_sameFlag (o : Openssl) (tls : Tls) (cfg : AppConfig) (d : Daemon) :
    SameFlag d (reload_slot o tls cfg d).2 := by
  unfold reload_slot
  split
  · exact ⟨rfl, rfl, Or.inl rfl⟩
  · split
    · exact ⟨rfl, rfl, Or.inl rfl⟩
    · exact ⟨rfl, rfl, Or.inl rfl⟩

theorem apply_active_configs_sameFlag (o : Openssl) (n : Notify) (d : Daemon) :
    SameFlag d (apply_active_configs o n d).2 := by
  unfold apply_active_configs
  split
  · exact ⟨rfl, rfl, Or.inl rfl⟩
  · rename_i cfg _
    split
    · exact runtime_start_sameFlag n.can_create cfg d
    · obtain ⟨h1, h2, h3⟩ := reload_slot_sameFlag o n.tls cfg (stage cfg d)
      exact ⟨h1, h2, h3⟩

theorem load_profile_and_run_sameFlag (o : Openssl) (n : Notify) (d : Daemon) :
    SameFlag d (load_profile_and_run o n d).2 := by
  unfold load_profile_and_run
  extract_lets d1 added r
  have h1 : SameFlag d d1 := by
    simp only [d1]
    split <;> exact ⟨rfl, rfl, Or.inl rfl⟩
  have hthread : d1.rt = d.rt := by
    simp only [d1]
    split <;> rfl
  split
  · exact h1
  split
  · exact h1
  obtain ⟨h2, h3, h4⟩ := apply_active_configs_sameFlag o n { d1 with active_ids := added.2 }
  have hr : SameFlag d r.2 := by
    refine ⟨h2.trans h1.running, h3.trans h1.joining, ?_⟩
    rw [← hthread]
    exact h4
  split
  · exact ⟨hr.running, hr.joining, hr.thread⟩
  · exact hr

/-- A notification stops the forwarder, or it leaves the flag alone. -/
theorem handle_profile_notify_flag (o : Openssl) (n : Notify) (d : Daemon) :
    (deletes_last n d = true ∧ (handle_profile_notify o n d).2.running = false ∧
      (handle_profile_notify o n d).2.joining = true ∧
      (handle_profile_notify o n d).2.rt = d.rt) ∨
    (deletes_last n d = false ∧ SameFlag d (handle_profile_notify o n d).2) := by
  have hsame : SameFlag d d := ⟨rfl, rfl, Or.inl rfl⟩
  unfold handle_profile_notify deletes_last
  cases hex : n.exists_in_db with
  | true =>
    right
    refine ⟨rfl, ?_⟩
    rw [if_pos rfl]
    dsimp only
    have hload := load_profile_and_run_sameFlag o n d
    split
    · exact hload
    · split <;> exact hload
  | false =>
    rw [if_neg Bool.false_ne_true]
    dsimp only
    cases hrem : (active_ids_remove d.active_ids n.profile_id).1 with
    | false =>
      right
      exact ⟨by simp, hsame⟩
    | true =>
      simp only [Bool.not_true, Bool.false_eq_true, if_false, Bool.not_false, Bool.true_and,
        Bool.and_true]
      split
      · rename_i hnil
        rw [hnil]
        unfold runtime_stop_forwarder
        cases hth : d.rt.has_thread with
        | true =>
          left
          simp
        | false =>
          right
          simp only [Bool.not_false, if_true]
          exact ⟨rfl, rfl, rfl, Or.inl rfl⟩
      · rename_i hnil
        right
        refine ⟨by simp [hnil], ?_⟩
        obtain ⟨h1, h2, h3⟩ := apply_active_configs_sameFlag o n
          { d with active_ids := (active_ids_remove d.active_ids n.profile_id).2 }
        exact ⟨h1, h2, h3⟩

end ne_ip.daemon
