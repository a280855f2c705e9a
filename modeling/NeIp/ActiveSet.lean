-- The laws of the active set: when the ids that the daemon holds active are the
-- profiles of the configuration that the forwarder uses.
import NeIp.Daemon
import NeIp.Runs
import NeIp.Sample

open runs ne_ip.packet_crypto ne_ip.config ne_ip.db_runtime ne_ip.forwarder ne_ip.daemon
open ne_ip.sample

namespace ne_ip.active_set

def profile_ids (cfg : AppConfig) : List Int := cfg.profiles.map (·.id)

/-- The thread is past its `forwarder_init` and has not ended. -/
def forwarder_runs (d : Daemon) : Bool :=
  match d.rt.thread with
  | .absent | .created | .done => false
  | _ => true

/-- The profile ids of the slot that `fwd->cfg` points to, while a forwarder runs. -/
def ids_in_use (d : Daemon) : Option (List Int) :=
  if forwarder_runs d then d.rt.fwd_cfg.map fun s => profile_ids (d.rt.cfg_slots s) else none

/-- The active ids are, as a set, the profiles of the running forwarder. -/
def Agree (d : Daemon) : Prop :=
  forwarder_runs d = true →
    ∃ ids, ids_in_use d = some ids ∧ ∀ id, id ∈ d.active_ids ↔ id ∈ ids

/-- The active ids can be merged, and the slot that `fwd->cfg` points to has the same
interfaces. -/
def Reloadable (n : Notify) (d : Daemon) : Prop :=
  ∃ cfg s, build_merged_config n.db d.active_ids = some cfg ∧ d.rt.fwd_cfg = some s ∧
    same_topology ((stage cfg d).rt.cfg_slots s) cfg = true

/-! ## What a reload of the active ids does -/

/-- What a reload of the active ids leaves alone, whether it is accepted or not. -/
structure SameThread (d d' : Daemon) : Prop where
  active_ids : d'.active_ids = d.active_ids
  joining : d'.joining = d.joining
  thread : d'.rt.thread = d.rt.thread
  has_thread : d'.rt.has_thread = d.rt.has_thread

/-- The slot in use is untouched. -/
structure SameSlot (d d' : Daemon) : Prop where
  fwd_cfg : d'.rt.fwd_cfg = d.rt.fwd_cfg
  active_slot : d'.rt.active_slot = d.rt.active_slot
  cfg_slots : d'.rt.cfg_slots d.rt.active_slot = d.rt.cfg_slots d.rt.active_slot

/-- With a thread, the active ids are reloaded into the other slot, or nothing that is in use
changes. -/
theorem apply_active_configs_reload (o : Openssl) (n : Notify) {d : Daemon}
    (hth : d.rt.has_thread = true) :
    SameThread d (apply_active_configs o n d).2 ∧
    (((apply_active_configs o n d).1 = true ∧ Reloadable n d ∧
        (apply_active_configs o n d).2.rt.fwd_cfg =
          some (apply_active_configs o n d).2.rt.active_slot ∧
        profile_ids ((apply_active_configs o n d).2.rt.cfg_slots
          (apply_active_configs o n d).2.rt.active_slot) = d.active_ids) ∨
      ((apply_active_configs o n d).1 = false ∧ ¬ Reloadable n d ∧
        SameSlot d (apply_active_configs o n d).2)) := by
  unfold apply_active_configs
  cases hb : build_merged_config n.db d.active_ids with
  | none =>
    refine ⟨⟨rfl, rfl, rfl, rfl⟩, Or.inr ⟨rfl, ?_, ⟨rfl, rfl, rfl⟩⟩⟩
    rintro ⟨cfg, s, hc, -⟩
    rw [hb] at hc
    cases hc
  | some cfg =>
    have hstaged : SameSlot d (stage cfg d) :=
      ⟨rfl, rfl, set_slot_of_ne (next_slot_ne _) cfg⟩
    dsimp only
    rw [if_neg (by simp [hth])]
    unfold reload_slot
    split
    · rename_i hf
      refine ⟨⟨rfl, rfl, rfl, rfl⟩, Or.inr ⟨rfl, ?_, hstaged⟩⟩
      rintro ⟨_, s, -, hs, -⟩
      rw [show d.rt.fwd_cfg = none from hf] at hs
      cases hs
    rename_i s hf
    have hiff := forwarder_reload_config_isSome o n.tls cfg
      { (stage cfg d).globals with fwd_cfg := (stage cfg d).rt.cfg_slots s }
    split
    · rename_i hre
      refine ⟨⟨rfl, rfl, rfl, rfl⟩, Or.inr ⟨rfl, ?_, hstaged⟩⟩
      rintro ⟨cfg', s', hc, hs, htop⟩
      rw [hb] at hc
      obtain rfl := Option.some.inj hc
      obtain rfl := Option.some.inj ((show d.rt.fwd_cfg = some s from hf).symm.trans hs)
      rw [hre, htop] at hiff
      cases hiff
    · rename_i globals hre
      rw [hre] at hiff
      refine ⟨⟨rfl, rfl, rfl, rfl⟩, Or.inl ⟨rfl, ⟨cfg, s, hb, hf, hiff.symm⟩, rfl, ?_⟩⟩
      simp only [set_slot_self, profile_ids]
      obtain ⟨-, hcfg, -⟩ := forwarder_reload_config_some hre
      rw [← build_merged_config_profiles hb]
      rcases hcfg with hcfg | hcfg
      · rw [hcfg]
      · rw [hcfg]
        rfl

/-- Without a thread, one is started on the active ids, or nothing changes that a thread
could use. -/
theorem apply_active_configs_start (o : Openssl) (n : Notify) {d : Daemon}
    (hth : d.rt.has_thread = false) :
    (apply_active_configs o n d).2.active_ids = d.active_ids ∧
    (apply_active_configs o n d).2.joining = d.joining ∧
    (((apply_active_configs o n d).1 = true ∧
        (apply_active_configs o n d).2.rt.has_thread = true ∧
        (apply_active_configs o n d).2.rt.thread = .created ∧
        profile_ids ((apply_active_configs o n d).2.rt.cfg_slots
          (apply_active_configs o n d).2.rt.active_slot) = d.active_ids) ∨
      ((apply_active_configs o n d).1 = false ∧
        (apply_active_configs o n d).2.rt.has_thread = false ∧
        (apply_active_configs o n d).2.rt.thread = d.rt.thread)) := by
  unfold apply_active_configs
  cases hb : build_merged_config n.db d.active_ids with
  | none => exact ⟨rfl, rfl, Or.inr ⟨rfl, hth, rfl⟩⟩
  | some cfg =>
    dsimp only
    rw [if_pos (by simp [hth])]
    unfold runtime_start
    cases n.can_create with
    | true =>
      refine ⟨rfl, rfl, Or.inl ⟨rfl, rfl, rfl, ?_⟩⟩
      simp only [if_true, set_slot_self]
      exact build_merged_config_profiles hb
    | false => exact ⟨rfl, rfl, Or.inr ⟨rfl, hth, rfl⟩⟩

/-! ## The invariant -/

/-- The slot that a thread starts or runs with holds the active ids. -/
structure Sound (d : Daemon) : Prop where
  idle : d.rt.has_thread = false → d.active_ids = []
  active : d.rt.has_thread = true → d.joining = false →
    profile_ids (d.rt.cfg_slots d.rt.active_slot) = d.active_ids
  stopping : d.joining = true → d.active_ids = []
  threaded : d.rt.thread ≠ .absent → d.rt.thread ≠ .done → d.rt.has_thread = true
  pointer : forwarder_runs d = true → d.rt.fwd_cfg = some d.rt.active_slot

theorem sound_boot : Sound {} :=
  ⟨fun _ => rfl, fun h => absurd h Bool.false_ne_true, fun _ => rfl, fun h => absurd rfl h,
    fun h => absurd h Bool.false_ne_true⟩

theorem forwarder_runs_thread {d : Daemon} (h : forwarder_runs d = true) :
    d.rt.thread ≠ .absent ∧ d.rt.thread ≠ .created ∧ d.rt.thread ≠ .done := by
  refine ⟨?_, ?_, ?_⟩ <;>
    intro hpc <;> simp [forwarder_runs, hpc] at h

theorem Sound.ids_in_use_eq {d : Daemon} (h : Sound d) (hj : d.joining = false)
    (hr : forwarder_runs d = true) : ids_in_use d = some d.active_ids := by
  obtain ⟨h1, -, h2⟩ := forwarder_runs_thread hr
  unfold ids_in_use
  rw [if_pos hr, h.pointer hr, Option.map_some, h.active (h.threaded h1 h2) hj]

theorem Sound.agree {d : Daemon} (h : Sound d) (hj : d.joining = false) : Agree d :=
  fun hr => ⟨d.active_ids, h.ids_in_use_eq hj hr, fun _ => Iff.rfl⟩

/-- After a reload that was accepted, for new active ids. -/
theorem Sound.reloaded {d d' : Daemon} (h : Sound d) (hth : d.rt.has_thread = true)
    {ids : List Int} (hs : SameThread { d with active_ids := ids } d')
    (hj : d.joining = false) (hp : d'.rt.fwd_cfg = some d'.rt.active_slot)
    (hids : profile_ids (d'.rt.cfg_slots d'.rt.active_slot) = ids) : Sound d' where
  idle hn := by
    rw [hs.has_thread, hth] at hn
    cases hn
  active _ _ := hids.trans hs.active_ids.symm
  stopping hn := by
    rw [hs.joining, hj] at hn
    cases hn
  threaded h1 h2 := by
    rw [hs.thread] at h1 h2
    rw [hs.has_thread]
    exact h.threaded h1 h2
  pointer _ := hp

/-- After a reload that failed, with the active ids as before. -/
theorem Sound.same_slot {d d' : Daemon} (h : Sound d) (hs : SameThread d d')
    (hslot : SameSlot d d') : Sound d' ∧ ids_in_use d' = ids_in_use d := by
  have hruns : forwarder_runs d' = forwarder_runs d := by
    unfold forwarder_runs
    rw [hs.thread]
  refine ⟨⟨?_, ?_, ?_, ?_, ?_⟩, ?_⟩
  · rw [hs.has_thread, hs.active_ids]
    exact h.idle
  · rw [hs.has_thread, hs.joining, hs.active_ids, hslot.active_slot, hslot.cfg_slots]
    exact h.active
  · rw [hs.joining, hs.active_ids]
    exact h.stopping
  · rw [hs.thread, hs.has_thread]
    exact h.threaded
  · rw [hruns, hslot.fwd_cfg, hslot.active_slot]
    exact h.pointer
  · unfold ids_in_use
    rw [hruns, hslot.fwd_cfg]
    split
    · rename_i hr
      rw [h.pointer hr, Option.map_some, Option.map_some, hslot.cfg_slots]
    · rfl

/-- The ids that a failed load leaves behind. -/
theorem active_ids_remove_append {ids : List Int} {id : Int} (h : ids.any (· == id) = false) :
    (active_ids_remove (ids ++ [id]) id).2 = ids := by
  have hne : ∀ a ∈ ids, (a != id) = true := by
    intro a ha
    have := List.any_eq_false.mp h a ha
    simpa using this
  simp only [active_ids_remove, List.filter_append, List.filter_eq_self.mpr hne,
    List.filter_singleton, bne_self_eq_false, cond_false, List.append_nil]

theorem active_ids_add_cases (ids : List Int) (id : Int) :
    active_ids_add ids id = (0, ids) ∨ active_ids_add ids id = (-1, ids) ∨
      (ids.any (· == id) = false ∧ active_ids_add ids id = (1, ids ++ [id])) := by
  unfold active_ids_add
  split
  · exact Or.inl rfl
  · rename_i hnew
    split
    · exact Or.inr (Or.inl rfl)
    · exact Or.inr (Or.inr ⟨Bool.eq_false_iff.mpr hnew, rfl⟩)

/-! ## What a notification keeps -/

/-- Neither the active ids nor the profiles in use have changed. -/
structure Unchanged (d d' : Daemon) : Prop where
  active_ids : d'.active_ids = d.active_ids
  in_use : ids_in_use d' = ids_in_use d

/-- A load that fails takes its id out again. -/
theorem load_profile_and_run_sound {o : Openssl} {n : Notify} {d : Daemon} (h : Sound d)
    (hj : d.joining = false) :
    Sound (load_profile_and_run o n d).2 ∧ (load_profile_and_run o n d).2.joining = false ∧
      ((load_profile_and_run o n d).1 ≠ 0 → Unchanged d (load_profile_and_run o n d).2) := by
  have hself : Unchanged d d := ⟨rfl, rfl⟩
  have hd : (if !d.rt.has_thread then { d with active_ids := [] } else d) = d := by
    cases hth : d.rt.has_thread with
    | true => rfl
    | false => rw [Bool.not_false, if_pos rfl, ← h.idle hth]
  unfold load_profile_and_run
  rw [hd]
  dsimp only
  rcases active_ids_add_cases d.active_ids n.profile_id with hadd | hadd | ⟨hnew, hadd⟩
  · simp only [hadd]
    exact ⟨h, hj, fun _ => hself⟩
  · simp only [hadd]
    exact ⟨h, hj, fun _ => hself⟩
  simp only [hadd]
  rw [if_neg (by decide), if_neg (by decide)]
  have hback := active_ids_remove_append hnew
  cases hth : d.rt.has_thread with
  | true =>
    have hspec := apply_active_configs_reload o n
      (d := { d with active_ids := d.active_ids ++ [n.profile_id] }) hth
    generalize apply_active_configs o n _ = r at hspec ⊢
    obtain ⟨hsame, ⟨h1, -, hp, hids⟩ | ⟨h1, -, hslot⟩⟩ := hspec
    · rw [h1, Bool.not_true, if_neg Bool.false_ne_true]
      exact ⟨h.reloaded hth hsame hj hp hids, hsame.joining.trans hj, fun hf => absurd rfl hf⟩
    · rw [h1, Bool.not_false, if_pos rfl, hsame.active_ids, hback]
      have hthread : SameThread d { r.2 with active_ids := d.active_ids } :=
        ⟨rfl, hsame.joining, hsame.thread, hsame.has_thread⟩
      obtain ⟨hsound, huse⟩ := h.same_slot hthread
        ⟨hslot.fwd_cfg, hslot.active_slot, hslot.cfg_slots⟩
      exact ⟨hsound, hsame.joining.trans hj, fun _ => ⟨rfl, huse⟩⟩
  | false =>
    have hidle : forwarder_runs d = false := by
      rw [← Bool.not_eq_true]
      intro hr
      obtain ⟨h1, -, h2⟩ := forwarder_runs_thread hr
      rw [h.threaded h1 h2] at hth
      cases hth
    have hspec := apply_active_configs_start o n
      (d := { d with active_ids := d.active_ids ++ [n.profile_id] }) hth
    generalize apply_active_configs o n _ = r at hspec ⊢
    obtain ⟨hact, hjoin, ⟨h1, hhas, hpc, hids⟩ | ⟨h1, hhas, hpc⟩⟩ := hspec
    · rw [h1, Bool.not_true, if_neg Bool.false_ne_true]
      refine ⟨⟨?_, ?_, ?_, fun _ _ => hhas, ?_⟩, hjoin.trans hj, fun hf => absurd rfl hf⟩
      · intro hn
        rw [hhas] at hn
        cases hn
      · exact fun _ _ => hids.trans hact.symm
      · intro hn
        rw [hjoin] at hn
        exact absurd (hj.symm.trans hn) Bool.false_ne_true
      · intro hr
        exact absurd hpc (forwarder_runs_thread hr).2.1
    · rw [h1, Bool.not_false, if_pos rfl, hact, hback]
      have hruns : forwarder_runs { r.2 with active_ids := d.active_ids } = forwarder_runs d := by
        unfold forwarder_runs
        rw [hpc]
      refine ⟨⟨fun _ => h.idle hth, ?_, ?_, ?_, ?_⟩, hjoin.trans hj, fun _ => ⟨rfl, ?_⟩⟩
      · intro hn
        exact absurd (hhas.symm.trans hn) Bool.false_ne_true
      · exact fun _ => h.idle hth
      · rw [hpc, hhas, ← hth]
        exact h.threaded
      · rw [hruns, hidle]
        exact fun hn => absurd hn Bool.false_ne_true
      · unfold ids_in_use
        rw [hruns, hidle, if_neg Bool.false_ne_true, if_neg Bool.false_ne_true]

/-- When the notification unloads one of several active profiles, the others can be reloaded. -/
def UnloadsCleanly (n : Notify) (d : Daemon) : Prop :=
  n.exists_in_db = false → n.profile_id ∈ d.active_ids →
    (active_ids_remove d.active_ids n.profile_id).2 ≠ [] →
      Reloadable n { d with active_ids := (active_ids_remove d.active_ids n.profile_id).2 }

/-- A notification that does not unload keeps the invariant, and so does an unload that goes
through. An unload that does not leaves its id out. -/
theorem handle_profile_notify_sound {o : Openssl} {n : Notify} {d : Daemon} (h : Sound d)
    (hj : d.joining = false) :
    (UnloadsCleanly n d → Sound (handle_profile_notify o n d).2 ∧
      ((handle_profile_notify o n d).1 = false → Unchanged d (handle_profile_notify o n d).2)) ∧
    (¬ UnloadsCleanly n d → (handle_profile_notify o n d).1 = false ∧
      (handle_profile_notify o n d).2.active_ids ≠ d.active_ids) := by
  unfold handle_profile_notify
  cases hex : n.exists_in_db with
  | true =>
    have hclean : UnloadsCleanly n d := by
      intro hn
      rw [hex] at hn
      cases hn
    refine ⟨fun _ => ?_, fun hn => absurd hclean hn⟩
    obtain ⟨h1, -, h2⟩ := load_profile_and_run_sound (o := o) (n := n) h hj
    rw [if_pos rfl]
    dsimp only
    split
    · exact ⟨h1, fun hf => absurd hf.symm Bool.false_ne_true⟩
    split
    · rename_i hne
      exact ⟨h1, fun _ => h2 hne⟩
    · exact ⟨h1, fun hf => absurd hf.symm Bool.false_ne_true⟩
  | false =>
    rw [if_neg Bool.false_ne_true]
    dsimp only
    have hmem : (active_ids_remove d.active_ids n.profile_id).1 = true ↔
        n.profile_id ∈ d.active_ids := by
      simp [active_ids_remove]
    have hout : n.profile_id ∉ (active_ids_remove d.active_ids n.profile_id).2 := by
      simp [active_ids_remove]
    cases hrem : (active_ids_remove d.active_ids n.profile_id).1 with
    | false =>
      have hnot : n.profile_id ∉ d.active_ids := by
        rw [← hmem, hrem]
        exact Bool.false_ne_true
      rw [Bool.not_false, if_pos rfl]
      exact ⟨fun _ => ⟨h, fun _ => ⟨rfl, rfl⟩⟩,
        fun hn => absurd (fun _ hin _ => absurd hin hnot) hn⟩
    | true =>
      have hin := hmem.mp hrem
      have hth : d.rt.has_thread = true := by
        by_contra hno
        rw [h.idle (Bool.eq_false_iff.mpr hno)] at hin
        cases hin
      rw [Bool.not_true, if_neg Bool.false_ne_true]
      generalize hrest : (active_ids_remove d.active_ids n.profile_id).2 = rest at hout ⊢
      by_cases hnil : rest = []
      · -- the last profile: the forwarder is being stopped
        rw [if_pos hnil, runtime_stop_forwarder, if_neg (by simp [hth])]
        refine ⟨fun _ => ⟨⟨?_, ?_, fun _ => hnil, h.threaded, h.pointer⟩, ?_⟩, fun hn => ?_⟩
        · exact fun _ => hnil
        · exact fun _ hn => absurd hn.symm Bool.false_ne_true
        · exact fun hf => absurd hf.symm Bool.false_ne_true
        · exact absurd (fun _ _ hne => absurd (hrest.trans hnil) hne) hn
      · rw [if_neg hnil]
        have hspec := apply_active_configs_reload o n (d := { d with active_ids := rest }) hth
        generalize apply_active_configs o n _ = r at hspec ⊢
        have hiff : UnloadsCleanly n d ↔ Reloadable n { d with active_ids := rest } := by
          unfold UnloadsCleanly
          rw [hrest]
          exact ⟨fun hc => hc hex hin hnil, fun hc _ _ _ => hc⟩
        rw [hiff]
        obtain ⟨hsame, ⟨h1, hc, hp, hids⟩ | ⟨h1, hc, -⟩⟩ := hspec
        · refine ⟨fun _ => ⟨h.reloaded hth hsame hj hp hids, fun hf => ?_⟩, fun hn => absurd hc hn⟩
          rw [h1] at hf
          cases hf
        · refine ⟨fun hn => absurd hn hc, fun _ => ⟨h1, fun heq => hout ?_⟩⟩
          rw [show rest = d.active_ids from hsame.active_ids.symm.trans heq]
          exact hin

/-! ## What the other steps keep -/

theorem sound_join {d d' : Daemon} (h : Sound d) (hstep : pthread_join d = some d') :
    Sound d' := by
  unfold pthread_join at hstep
  split at hstep
  · rename_i hjoin
    obtain rfl := Option.some.inj hstep
    refine ⟨fun _ => h.stopping hjoin.1, ?_, ?_, ?_, ?_⟩
    · exact fun hn => absurd hn Bool.false_ne_true
    · exact fun hn => absurd hn Bool.false_ne_true
    · exact fun _ hn => absurd hjoin.2 hn
    · intro hr
      exact absurd hjoin.2 (forwarder_runs_thread hr).2.2
  · cases hstep

/-- The end of the thread. -/
theorem Sound.leave {d : Daemon} (h : Sound d) : Sound (leave d) :=
  ⟨h.idle, h.active, h.stopping, fun _ hn => absurd rfl hn,
    fun hr => absurd rfl (forwarder_runs_thread hr).2.2⟩

/-- The thread goes on from one point where the forwarder runs to another one. -/
theorem Sound.go_on {d d' : Daemon} (h : Sound d) (hr : forwarder_runs d = true)
    (hids : d'.active_ids = d.active_ids) (hj : d'.joining = d.joining)
    (hslot : SameSlot d d') (hth : d'.rt.has_thread = d.rt.has_thread) : Sound d' := by
  obtain ⟨h1, -, h2⟩ := forwarder_runs_thread hr
  refine ⟨?_, ?_, ?_, ?_, ?_⟩
  · rw [hth, hids]
    exact h.idle
  · rw [hth, hj, hids, hslot.active_slot, hslot.cfg_slots]
    exact h.active
  · rw [hj, hids]
    exact h.stopping
  · exact fun _ _ => hth.trans (h.threaded h1 h2)
  · rw [hslot.fwd_cfg, hslot.active_slot]
    exact fun _ => h.pointer hr

theorem thread_init_sound {o : Openssl} {i : InitEnv} {d : Daemon} (h : Sound d)
    (hpc : d.rt.thread = .created) : Sound (thread_init o i d) := by
  have hth : d.rt.has_thread = true := h.threaded (by simp [hpc]) (by simp [hpc])
  unfold thread_init
  split
  · exact h.leave
  dsimp only
  have hslots : Sound { d with
      globals := (forwarder.forwarder_init o i.tls i.now i.addr (d.rt.cfg_slots d.rt.active_slot)
        d.globals).2
      rt := { d.rt with
        fwd_cfg := some d.rt.active_slot
        cfg_slots := set_slot d.rt.cfg_slots d.rt.active_slot
          (forwarder.forwarder_init o i.tls i.now i.addr (d.rt.cfg_slots d.rt.active_slot)
            d.globals).2.fwd_cfg } } := by
    refine ⟨h.idle, ?_, h.stopping, h.threaded, fun _ => rfl⟩
    simp only [set_slot_self, profile_ids, forwarder_init_profiles]
    exact h.active
  split
  · exact ⟨hslots.idle, hslots.active, hslots.stopping, fun _ _ => hth, fun _ => rfl⟩
  · exact hslots.leave

theorem sound_thread {o : Openssl} {i : InitEnv} {d d' : Daemon} (h : Sound d)
    (hstep : forwarder_thread_main o i d = some d') : Sound d' := by
  have hslot : SameSlot d d := ⟨rfl, rfl, rfl⟩
  unfold forwarder_thread_main at hstep
  split at hstep
  · cases hstep
  · rename_i hpc
    obtain rfl := Option.some.inj hstep
    exact thread_init_sound h hpc
  · rename_i hpc
    obtain rfl := Option.some.inj hstep
    split
    · exact h.leave
    · exact h.go_on (by simp [forwarder_runs, hpc]) rfl rfl ⟨rfl, rfl, rfl⟩ rfl
  · rename_i hpc
    obtain rfl := Option.some.inj hstep
    split
    · exact h.leave
    · exact h.go_on (by simp [forwarder_runs, hpc]) rfl rfl ⟨rfl, rfl, rfl⟩ rfl
  · rename_i hpc
    obtain rfl := Option.some.inj hstep
    split
    · exact h.leave
    · exact h.go_on (by simp [forwarder_runs, hpc]) rfl rfl ⟨rfl, rfl, rfl⟩ rfl
  · rename_i hpc
    obtain rfl := Option.some.inj hstep
    exact h.go_on (by simp [forwarder_runs, hpc]) rfl rfl ⟨rfl, rfl, rfl⟩ rfl
  · split at hstep
    · obtain rfl := Option.some.inj hstep
      exact h.leave
    · cases hstep
  · cases hstep

/-! ## Over a run -/

/-- The notifications that the law is about: every unload goes through. -/
def Clean (d : Daemon) (e : Event) : Prop := ∀ n, e = .notify n → UnloadsCleanly n d

theorem sound_step {o : Openssl} {d d' : Daemon} {e : Event} (h : Sound d)
    (hstep : Guarded Clean (Step o) d e d') : Sound d' := by
  obtain ⟨hclean, hstep⟩ := hstep
  unfold Step daemon.step at hstep
  cases e with
  | notify n =>
    dsimp only at hstep
    split at hstep
    · cases hstep
    · rename_i hj
      obtain rfl := Option.some.inj hstep
      exact ((handle_profile_notify_sound h (Bool.eq_false_iff.mpr hj)).1 (hclean n rfl)).1
  | join => exact sound_join h hstep
  | thread i => exact sound_thread h hstep

/-- What a notification has to do: the active ids are those in use when it is back, and when it
fails both are as before. -/
structure Keeps (o : Openssl) (n : Notify) (d : Daemon) : Prop where
  agree : (handle_profile_notify o n d).2.joining = false → Agree (handle_profile_notify o n d).2
  unchanged : (handle_profile_notify o n d).1 = false →
    Unchanged d (handle_profile_notify o n d).2

/-- After any run in which every unload of one of several active profiles went through, the
active ids are the profiles in use, and the next notification does what it has to exactly when
it is not an unload that fails. -/
theorem the_active_ids_are_those_in_use_as_long_as_unloads_go_through {o : Openssl}
    {es : List Event} {d : Daemon} (hrun : Run (Guarded Clean (Step o)) {} es d)
    (hback : d.joining = false) (n : Notify) :
    Agree d ∧ (Keeps o n d ↔ UnloadsCleanly n d) := by
  have h := hrun.invariant sound_boot fun _ _ _ h => sound_step h
  obtain ⟨h1, h2⟩ := handle_profile_notify_sound (o := o) (n := n) h hback
  refine ⟨h.agree hback, ?_, ?_⟩
  · intro hk
    by_contra hn
    exact (h2 hn).2 (hk.unchanged (h2 hn).1).active_ids
  · intro hc
    exact ⟨(h1 hc).1.agree, (h1 hc).2⟩

/-- The runs below: profiles 1 and 2 with the same interfaces, loaded one after the other. -/
def twoDb : Db := fun id => if id = 2 then sampleDb 1 else sampleDb id

def load (id : Int) : Event := .notify { profile_id := id, exists_in_db := true, db := twoDb }

def thread : Event := .thread { now := 1, addr := fun _ => none }

def twoLoads : List Event := [load 1, thread, thread, load 2]

def twoActive : Daemon := (twoLoads.foldlM (daemon.step sampleOpenssl) {}).getD {}

theorem twoActive_run : Run (Step sampleOpenssl) {} twoLoads twoActive := Run.of_foldlM rfl

def unload2 (db : Db) : Notify where
  profile_id := 2
  exists_in_db := false
  db := db

/-- Profile 2 alone is deleted. -/
theorem an_unload_of_one_of_two_goes_through :
    Agree twoActive ∧ Keeps sampleOpenssl (unload2 sampleDb) twoActive := by
  have hclean : ∀ e ∈ twoLoads, ∀ d, Clean d e := by
    intro e he d n hn hex
    subst hn
    simp only [twoLoads, load, thread, List.mem_cons, Event.notify.injEq, reduceCtorEq, false_or,
      List.not_mem_nil, or_false] at he
    rcases he with rfl | rfl <;> cases hex
  obtain ⟨hagree, hkeeps⟩ :=
    the_active_ids_are_those_in_use_as_long_as_unloads_go_through (twoActive_run.guarded hclean)
      rfl (unload2 sampleDb)
  exact ⟨hagree, hkeeps.mpr fun _ _ _ => ⟨_, 1, sampleMerged_build, rfl, rfl⟩⟩

/-- Both profiles are deleted, and the notification of profile 2 comes first. -/
theorem an_unload_that_cannot_be_merged_leaves_the_profile_in_use :
    Run (Step sampleOpenssl) {} twoLoads twoActive ∧ twoActive.active_ids = [1, 2] ∧
      (handle_profile_notify sampleOpenssl (unload2 fun _ => none) twoActive).1 = false ∧
      (handle_profile_notify sampleOpenssl (unload2 fun _ => none) twoActive).2.active_ids = [1] ∧
      ids_in_use (handle_profile_notify sampleOpenssl (unload2 fun _ => none) twoActive).2 =
        some [1, 2] :=
  ⟨twoActive_run, rfl, rfl, rfl, rfl⟩

end ne_ip.active_set
