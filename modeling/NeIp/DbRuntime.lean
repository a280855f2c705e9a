-- The configuration of the active profiles (db_config.c, db_runtime.c): each
-- profile is loaded from its rows, and the profiles are merged into one.
import Mathlib.Data.List.Perm.Subperm
import NeIp.CryptoDispatch

open byte_buf ne_ip.packet_crypto ne_ip.config ne_ip.crypto_dispatch

namespace ne_ip.db_runtime

def IF_NAMESIZE : Nat := 16

/-! ## One profile -/

/-- The rows of one profile; `none` is a query that failed. `policies` is what the loop over
the rows of `ne_policies` makes of them, -1 being `none`; it stops at `MAX_CRYPTO_POLICIES`. -/
structure ProfileRows where
  name : Bytes := []
  lans : Option (List Bytes)
  /-- The interface, the parsed `dst_ip` (0 for none) and the weight. -/
  wans : Option (List (Bytes × UInt32 × Int))
  policies : Option (List CryptoPolicy)
  policies_le : ∀ ps, policies = some ps → ps.length ≤ MAX_CRYPTO_POLICIES := by decide

/-- The profiles of the database. -/
abbrev Db := Int → Option ProfileRows

/-- An entry of `load_local_rows`: its address is left at 0. -/
def local_row (cfg : AppConfig) (ifname : Bytes) : LocalConfig where
  ifname := ifname.take (IF_NAMESIZE - 1)
  frame_size := cfg.global_frame_size
  batch_size := cfg.global_batch_size

/-- `load_local_rows` on a configuration that has no interface yet. -/
def load_local_rows (cfg : AppConfig) (rows : List Bytes) : Option AppConfig :=
  if rows = [] then none
  else if h : rows.length ≤ MAX_INTERFACES then
    if rows.any (· == []) then none
    else some { cfg with
      locals := rows.map (local_row cfg)
      locals_le := by rw [List.length_map]; exact h }
  else none

def wan_row (cfg : AppConfig) (row : Bytes × UInt32 × Int) : WanConfig where
  ifname := row.1.take (IF_NAMESIZE - 1)
  dst_ip := row.2.1
  frame_size := cfg.global_frame_size
  batch_size := cfg.global_batch_size

def load_wan_rows (cfg : AppConfig) (rows : List (Bytes × UInt32 × Int)) : Option AppConfig :=
  if rows = [] then none
  else if h : rows.length ≤ MAX_INTERFACES then
    if rows.any (·.1 == []) then none
    else some { cfg with
      wans := rows.map (wan_row cfg)
      wans_le := by rw [List.length_map]; exact h }
  else none

def find_local_index_by_ifname (cfg : AppConfig) (ifname : Bytes) : Option Nat :=
  cfg.locals.findIdx? (·.ifname == ifname)

def find_wan_index_by_ifname (cfg : AppConfig) (ifname : Bytes) : Option Nat :=
  cfg.wans.findIdx? (·.ifname == ifname)

/-- The profile with its interfaces and its policies, all of which are new. -/
def profile_row (cfg : AppConfig) (profile_id : Int) (rows : ProfileRows)
    (policies : List CryptoPolicy) : ProfileConfig :=
  let wans := ((rows.wans.getD []).filterMap fun row =>
    (find_wan_index_by_ifname cfg row.1).map (·, row.2.2)).take MAX_PROFILE_INTERFACES
  { id := profile_id
    name := rows.name
    local_indices :=
      ((rows.lans.getD []).filterMap (find_local_index_by_ifname cfg)).take MAX_PROFILE_INTERFACES
    wan_indices := wans.map (·.1)
    wan_bandwidth_weight := wans.map (·.2)
    policy_indices := List.range policies.length }

/-- `load_profiles_and_policies` on a configuration that has no profile yet. -/
def load_profiles_and_policies (cfg : AppConfig) (profile_id : Int) (rows : ProfileRows) :
    Option AppConfig :=
  match h : rows.policies with
  | none => none
  | some policies =>
    some { cfg with
      profiles := [profile_row cfg profile_id rows policies]
      profiles_le := Nat.le_add_left 1 31
      policies := policies
      policies_le := rows.policies_le policies h }

/-- `config_load_from_db`. The crypto settings that it derives from the policies are not read
by the merge. -/
def config_load_from_db (db : Db) (profile_id : Int) : Option AppConfig :=
  match db profile_id with
  | none => none
  | some rows =>
    match rows.lans.bind (load_local_rows {}) with
    | none => none
    | some cfg =>
      match rows.wans.bind (load_wan_rows cfg) with
      | none => none
      | some cfg =>
        match load_profiles_and_policies cfg profile_id rows with
        | none => none
        | some cfg => if config_validate cfg then some cfg else none

/-! ## The merge -/

/-- `append_local_unique`: the index of the interface, which is new or was there before. -/
def append_local_unique (dst : AppConfig) (src_loc : LocalConfig) : Option (AppConfig × Nat) :=
  match dst.locals.findIdx? (·.ifname == src_loc.ifname) with
  | some idx => some (dst, idx)
  | none =>
    if h : dst.locals.length < MAX_INTERFACES then
      some ({ dst with
        locals := dst.locals ++ [src_loc]
        locals_le := by rw [List.length_append]; exact h }, dst.locals.length)
    else none

def append_wan_unique (dst : AppConfig) (src_wan : WanConfig) : Option (AppConfig × Nat) :=
  match dst.wans.findIdx? (·.ifname == src_wan.ifname) with
  | some idx => some (dst, idx)
  | none =>
    if h : dst.wans.length < MAX_INTERFACES then
      some ({ dst with
        wans := dst.wans ++ [src_wan]
        wans_le := by rw [List.length_append]; exact h }, dst.wans.length)
    else none

/-- `collect_used_wire_ids`: the table `used`. -/
def collect_used_wire_ids (dst : AppConfig) (wid : Nat) : Bool := dst.policies.any (·.id == wid)

/-- The wire id that a policy gets: its own, or the first free one. -/
def wire_id_for (dst : AppConfig) (wid : Nat) : Option Nat :=
  if wid < 1 ∨ 255 < wid ∨ collect_used_wire_ids dst wid then
    (List.range' 1 255).find? fun j => !collect_used_wire_ids dst j
  else some wid

def append_policy_unique (dst : AppConfig) (src_cp : CryptoPolicy) : Option (AppConfig × Nat) :=
  if h : dst.policies.length < MAX_CRYPTO_POLICIES then
    match wire_id_for dst src_cp.id with
    | none => none
    | some wid =>
      some ({ dst with
        policies := dst.policies ++ [{ src_cp with id := wid }]
        policies_le := by rw [List.length_append]; exact h }, dst.policies.length)
  else none

/-- The loop that appends the entries of one kind and maps their indices. -/
def append_all {α : Type} (append : AppConfig → α → Option (AppConfig × Nat)) :
    AppConfig → List α → Option (AppConfig × List Nat)
  | dst, [] => some (dst, [])
  | dst, a :: as =>
    match append dst a with
    | none => none
    | some (dst, idx) =>
      match append_all append dst as with
      | none => none
      | some (dst, map) => some (dst, idx :: map)

/-- The indices of a profile, mapped; an index out of range is left out. -/
def map_indices (map : List Nat) (n : Nat) (indices : List Nat) : List Nat :=
  (indices.filterMap (map[·]?)).take n

/-- The loop body of `merge_one_config` for one profile. -/
def append_profile (local_map wan_map policy_map : List Nat) (dst : AppConfig)
    (sp : ProfileConfig) : Option (AppConfig × Nat) :=
  if h : dst.profiles.length < MAX_PROFILES then
    let wans := ((sp.wan_indices.zip sp.wan_bandwidth_weight).filterMap fun w =>
      (wan_map[w.1]?).map (·, w.2)).take MAX_PROFILE_INTERFACES
    let dp : ProfileConfig :=
      { id := sp.id
        name := sp.name
        enabled := sp.enabled
        local_indices := map_indices local_map MAX_PROFILE_INTERFACES sp.local_indices
        wan_indices := wans.map (·.1)
        wan_bandwidth_weight := wans.map (·.2)
        policy_indices := map_indices policy_map MAX_CRYPTO_POLICIES sp.policy_indices }
    some ({ dst with
      profiles := dst.profiles ++ [dp]
      profiles_le := by rw [List.length_append]; exact h }, dst.profiles.length)
  else none

def merge_one_config (dst src : AppConfig) : Option AppConfig :=
  match append_all append_local_unique dst src.locals with
  | none => none
  | some (dst, local_map) =>
    match append_all append_wan_unique dst src.wans with
    | none => none
    | some (dst, wan_map) =>
      match append_all append_policy_unique dst src.policies with
      | none => none
      | some (dst, policy_map) =>
        (append_all (append_profile local_map wan_map policy_map) dst src.profiles).map (·.1)

/-- The loop of `build_merged_config` over the ids. -/
def merge_all (db : Db) : AppConfig → List Int → Option AppConfig
  | merged, [] => some merged
  | merged, id :: ids =>
    match config_load_from_db db id with
    | none => none
    | some tmp =>
      match merge_one_config merged tmp with
      | none => none
      | some merged => merge_all db merged ids

/-- The crypto settings of the merged configuration are those of its first policy. -/
def merged_crypto (merged : AppConfig) : AppConfig :=
  match merged.policies with
  | [] => { merged with crypto_enabled := false }
  | cp :: _ =>
    { merged with
      crypto_enabled := true
      encrypt_layer := 3
      fake_protocol := 99
      fake_ethertype_ipv4 := 0x88b5
      crypto_mode := cp.crypto_mode
      aes_bits := cp.aes_bits
      nonce_size := cp.nonce_size
      crypto_key := cp.key }

/-- `build_merged_config`; -1 is `none`. -/
def build_merged_config (db : Db) (ids : List Int) : Option AppConfig :=
  match merge_all db {} ids with
  | none => none
  | some merged =>
    let merged := merged_crypto merged
    if config_validate merged then some merged else none

/-! ## What every merge keeps -/

theorem append_all_cons_some {α : Type} {append : AppConfig → α → Option (AppConfig × Nat)}
    {a : α} {as : List α} {dst dst' : AppConfig} {map : List Nat}
    (h : append_all append dst (a :: as) = some (dst', map)) :
    ∃ dst1 idx map', append dst a = some (dst1, idx) ∧
      append_all append dst1 as = some (dst', map') ∧ map = idx :: map' := by
  simp only [append_all] at h
  split at h
  · simp at h
  rename_i dst1 idx hone
  split at h
  · simp at h
  rename_i dst2 map' hrest
  obtain ⟨rfl, rfl⟩ := Prod.mk.inj (Option.some.inj h)
  exact ⟨dst1, idx, map', hone, hrest, rfl⟩

/-- What the append of each entry keeps, the whole loop keeps. -/
theorem append_all_keeps {α : Type} {append : AppConfig → α → Option (AppConfig × Nat)}
    {P : AppConfig → Prop} {as : List α}
    (hstep : ∀ a ∈ as, ∀ dst dst' idx, P dst → append dst a = some (dst', idx) → P dst')
    {dst dst' : AppConfig} {map : List Nat} (h : P dst)
    (hall : append_all append dst as = some (dst', map)) : P dst' := by
  induction as generalizing dst dst' map with
  | nil =>
    simp only [append_all, Option.some.injEq, Prod.mk.injEq] at hall
    rw [← hall.1]
    exact h
  | cons a as ih =>
    obtain ⟨dst1, idx, map2, hone, hrest, -⟩ := append_all_cons_some hall
    exact ih (fun b hb => hstep b (List.mem_cons_of_mem a hb))
      (hstep a List.mem_cons_self _ _ _ h hone) hrest

/-- The four loops of a merge. -/
theorem merge_one_config_some {dst src dst' : AppConfig}
    (h : merge_one_config dst src = some dst') :
    ∃ dst1 dst2 dst3 lm wm pm map,
      append_all append_local_unique dst src.locals = some (dst1, lm) ∧
      append_all append_wan_unique dst1 src.wans = some (dst2, wm) ∧
      append_all append_policy_unique dst2 src.policies = some (dst3, pm) ∧
      append_all (append_profile lm wm pm) dst3 src.profiles = some (dst', map) := by
  unfold merge_one_config at h
  split at h
  · simp at h
  rename_i dst1 lm h1
  split at h
  · simp at h
  rename_i dst2 wm h2
  split at h
  · simp at h
  rename_i dst3 pm h3
  obtain ⟨⟨dst4, map⟩, h4, rfl⟩ := Option.map_eq_some_iff.mp h
  exact ⟨dst1, dst2, dst3, lm, wm, pm, map, h1, h2, h3, h4⟩

/-- A configuration after a merge: what the four loops keep, the merge keeps. -/
theorem merge_one_config_keeps {P : AppConfig → Prop} {src : AppConfig}
    (hlocal : ∀ l ∈ src.locals, ∀ dst dst' idx, P dst →
      append_local_unique dst l = some (dst', idx) → P dst')
    (hwan : ∀ w, ∀ dst dst' idx, P dst → append_wan_unique dst w = some (dst', idx) → P dst')
    (hpolicy : ∀ cp, ∀ dst dst' idx, P dst → append_policy_unique dst cp = some (dst', idx) → P dst')
    (hprofile : ∀ lm wm pm sp, ∀ dst dst' idx, P dst →
      append_profile lm wm pm dst sp = some (dst', idx) → P dst')
    {dst dst' : AppConfig} (h : P dst) (hm : merge_one_config dst src = some dst') : P dst' := by
  obtain ⟨dst1, dst2, dst3, lm, wm, pm, map, h1, h2, h3, h4⟩ := merge_one_config_some hm
  exact append_all_keeps (fun sp _ => hprofile lm wm pm sp)
    (append_all_keeps (fun cp _ => hpolicy cp)
      (append_all_keeps (fun w _ => hwan w) (append_all_keeps hlocal h h1) h2) h3) h4

theorem merge_all_cons_some {db : Db} {id : Int} {ids : List Int} {dst dst' : AppConfig}
    (h : merge_all db dst (id :: ids) = some dst') :
    ∃ tmp dst1, config_load_from_db db id = some tmp ∧ merge_one_config dst tmp = some dst1 ∧
      merge_all db dst1 ids = some dst' := by
  simp only [merge_all] at h
  split at h
  · simp at h
  rename_i tmp hload
  split at h
  · simp at h
  rename_i dst1 hone
  exact ⟨tmp, dst1, hload, hone, h⟩

theorem merge_all_keeps {P : AppConfig → Prop} {db : Db} {ids : List Int}
    (hstep : ∀ id ∈ ids, ∀ tmp dst dst', config_load_from_db db id = some tmp → P dst →
      merge_one_config dst tmp = some dst' → P dst')
    {dst dst' : AppConfig} (h : P dst) (hall : merge_all db dst ids = some dst') : P dst' := by
  induction ids generalizing dst with
  | nil =>
    rw [← Option.some.inj hall]
    exact h
  | cons id ids ih =>
    obtain ⟨tmp, dst1, hload, hone, hall⟩ := merge_all_cons_some hall
    exact ih (fun b hb => hstep b (List.mem_cons_of_mem id hb))
      (hstep id List.mem_cons_self _ _ _ hload h hone) hall

/-! ## What each append does -/

theorem append_local_unique_some {dst dst' : AppConfig} {l : LocalConfig} {idx : Nat}
    (h : append_local_unique dst l = some (dst', idx)) :
    dst' = dst ∨ ∃ hle, dst' = { dst with locals := dst.locals ++ [l], locals_le := hle } := by
  unfold append_local_unique at h
  split at h
  · exact Or.inl (Prod.mk.inj (Option.some.inj h)).1.symm
  · split at h
    · exact Or.inr ⟨_, (Prod.mk.inj (Option.some.inj h)).1.symm⟩
    · simp at h

theorem append_wan_unique_some {dst dst' : AppConfig} {w : WanConfig} {idx : Nat}
    (h : append_wan_unique dst w = some (dst', idx)) :
    dst' = dst ∨ ∃ hle, dst' = { dst with wans := dst.wans ++ [w], wans_le := hle } := by
  unfold append_wan_unique at h
  split at h
  · exact Or.inl (Prod.mk.inj (Option.some.inj h)).1.symm
  · split at h
    · exact Or.inr ⟨_, (Prod.mk.inj (Option.some.inj h)).1.symm⟩
    · simp at h

theorem append_policy_unique_some {dst dst' : AppConfig} {cp : CryptoPolicy} {idx : Nat}
    (h : append_policy_unique dst cp = some (dst', idx)) :
    ∃ wid hle, wire_id_for dst cp.id = some wid ∧
      dst' = { dst with policies := dst.policies ++ [{ cp with id := wid }], policies_le := hle } := by
  unfold append_policy_unique at h
  split at h
  · split at h
    · simp at h
    · rename_i wid hwid
      exact ⟨wid, _, hwid, (Prod.mk.inj (Option.some.inj h)).1.symm⟩
  · simp at h

theorem append_profile_some {lm wm pm : List Nat} {dst dst' : AppConfig} {sp : ProfileConfig}
    {idx : Nat} (h : append_profile lm wm pm dst sp = some (dst', idx)) :
    ∃ dp hle, dp.id = sp.id ∧
      dst' = { dst with profiles := dst.profiles ++ [dp], profiles_le := hle } := by
  unfold append_profile at h
  split at h
  · refine ⟨_, _, ?_, (Prod.mk.inj (Option.some.inj h)).1.symm⟩
    rfl
  · simp at h

/-! ## What each loop leaves as it was -/

theorem append_all_local_frame {ls : List LocalConfig} {dst dst' : AppConfig} {map : List Nat}
    (h : append_all append_local_unique dst ls = some (dst', map)) :
    dst'.wans = dst.wans ∧ dst'.policies = dst.policies ∧ dst'.profiles = dst.profiles := by
  refine append_all_keeps (P := fun c => c.wans = dst.wans ∧ c.policies = dst.policies ∧
    c.profiles = dst.profiles) (fun l _ d d' idx hd happ => ?_) ⟨rfl, rfl, rfl⟩ h
  rcases append_local_unique_some happ with rfl | ⟨hle, rfl⟩ <;> exact hd

theorem append_all_wan_frame {ws : List WanConfig} {dst dst' : AppConfig} {map : List Nat}
    (h : append_all append_wan_unique dst ws = some (dst', map)) :
    dst'.locals = dst.locals ∧ dst'.policies = dst.policies ∧ dst'.profiles = dst.profiles := by
  refine append_all_keeps (P := fun c => c.locals = dst.locals ∧ c.policies = dst.policies ∧
    c.profiles = dst.profiles) (fun w _ d d' idx hd happ => ?_) ⟨rfl, rfl, rfl⟩ h
  rcases append_wan_unique_some happ with rfl | ⟨hle, rfl⟩ <;> exact hd

theorem append_all_policy_frame {cps : List CryptoPolicy} {dst dst' : AppConfig} {map : List Nat}
    (h : append_all append_policy_unique dst cps = some (dst', map)) :
    dst'.locals = dst.locals ∧ dst'.wans = dst.wans ∧ dst'.profiles = dst.profiles := by
  refine append_all_keeps (P := fun c => c.locals = dst.locals ∧ c.wans = dst.wans ∧
    c.profiles = dst.profiles) (fun cp _ d d' idx hd happ => ?_) ⟨rfl, rfl, rfl⟩ h
  obtain ⟨wid, hle, -, rfl⟩ := append_policy_unique_some happ
  exact hd

theorem append_all_profile_frame {lm wm pm : List Nat} {sps : List ProfileConfig}
    {dst dst' : AppConfig} {map : List Nat}
    (h : append_all (append_profile lm wm pm) dst sps = some (dst', map)) :
    dst'.locals = dst.locals ∧ dst'.wans = dst.wans ∧ dst'.policies = dst.policies := by
  refine append_all_keeps (P := fun c => c.locals = dst.locals ∧ c.wans = dst.wans ∧
    c.policies = dst.policies) (fun sp _ d d' idx hd happ => ?_) ⟨rfl, rfl, rfl⟩ h
  obtain ⟨dp, hle, -, rfl⟩ := append_profile_some happ
  exact hd

/-! ## The LAN entries have no address -/

/-- No entry has an address: all three fields are 0. -/
def NoAddress (cfg : AppConfig) : Prop :=
  ∀ l ∈ cfg.locals, l.ip = 0 ∧ l.netmask = 0 ∧ l.network = 0

theorem load_local_rows_noAddress {cfg cfg' : AppConfig} {rows : List Bytes}
    (h : load_local_rows cfg rows = some cfg') : NoAddress cfg' := by
  unfold load_local_rows at h
  split at h
  · simp at h
  split at h
  · split at h
    · simp at h
    · rw [← Option.some.inj h]
      intro l hl
      obtain ⟨row, -, rfl⟩ := List.mem_map.mp hl
      exact ⟨rfl, rfl, rfl⟩
  · simp at h

theorem load_wan_rows_some {cfg cfg' : AppConfig} {rows : List (Bytes × UInt32 × Int)}
    (h : load_wan_rows cfg rows = some cfg') :
    rows.length ≤ MAX_INTERFACES ∧ cfg'.wans = rows.map (wan_row cfg) ∧
      cfg'.locals = cfg.locals := by
  unfold load_wan_rows at h
  split at h
  · simp at h
  split at h
  · rename_i hlen
    split at h
    · simp at h
    · rw [← Option.some.inj h]
      exact ⟨hlen, rfl, rfl⟩
  · simp at h

/-- The stages of a load: what the two interface tables and the policies gave. -/
theorem config_load_from_db_some {db : Db} {id : Int} {cfg : AppConfig}
    (h : config_load_from_db db id = some cfg) :
    ∃ rows lans wans cfg1 cfg2, db id = some rows ∧ rows.wans = some wans ∧
      load_local_rows {} lans = some cfg1 ∧ load_wan_rows cfg1 wans = some cfg2 ∧
      load_profiles_and_policies cfg2 id rows = some cfg ∧ config_validate cfg = true := by
  unfold config_load_from_db at h
  split at h
  · simp at h
  rename_i rows hrows
  split at h
  · simp at h
  rename_i cfg1 hlan
  obtain ⟨lans, -, hlan⟩ := Option.bind_eq_some_iff.mp hlan
  split at h
  · simp at h
  rename_i cfg2 hwan
  obtain ⟨wans, hwans, hwan⟩ := Option.bind_eq_some_iff.mp hwan
  split at h
  · simp at h
  rename_i cfg3 hpol
  split at h
  · rename_i hvalid
    obtain rfl := Option.some.inj h
    exact ⟨rows, lans, wans, cfg1, cfg2, hrows, hwans, hlan, hwan, hpol, hvalid⟩
  · simp at h

theorem load_profiles_and_policies_some {cfg cfg' : AppConfig} {id : Int} {rows : ProfileRows}
    (h : load_profiles_and_policies cfg id rows = some cfg') :
    cfg'.locals = cfg.locals ∧ cfg'.profiles.map (·.id) = [id] := by
  unfold load_profiles_and_policies at h
  split at h
  · simp at h
  · rw [← Option.some.inj h]
    exact ⟨rfl, rfl⟩

theorem config_load_from_db_noAddress {db : Db} {id : Int} {cfg : AppConfig}
    (h : config_load_from_db db id = some cfg) : NoAddress cfg := by
  obtain ⟨rows, lans, wans, cfg1, cfg2, -, -, hlan, hwan, hpol, -⟩ := config_load_from_db_some h
  unfold NoAddress
  rw [(load_profiles_and_policies_some hpol).1, (load_wan_rows_some hwan).2.2]
  exact load_local_rows_noAddress hlan

theorem merged_crypto_fields (cfg : AppConfig) :
    (merged_crypto cfg).locals = cfg.locals ∧ (merged_crypto cfg).policies = cfg.policies ∧
      (merged_crypto cfg).profiles = cfg.profiles ∧
      (merged_crypto cfg).crypto_enabled = !cfg.policies.isEmpty := by
  unfold merged_crypto
  split
  · rename_i h
    exact ⟨rfl, rfl, rfl, by simp [h]⟩
  · rename_i h
    exact ⟨rfl, rfl, rfl, by simp [h]⟩

theorem build_merged_config_some {db : Db} {ids : List Int} {cfg : AppConfig}
    (h : build_merged_config db ids = some cfg) :
    ∃ merged, merge_all db {} ids = some merged ∧ cfg = merged_crypto merged := by
  unfold build_merged_config at h
  split at h
  · simp at h
  rename_i merged hall
  dsimp only at h
  split at h
  · exact ⟨merged, hall, (Option.some.inj h).symm⟩
  · simp at h

/-- The merged configuration comes without the addresses of its LAN interfaces. -/
theorem build_merged_config_noAddress {db : Db} {ids : List Int} {cfg : AppConfig}
    (h : build_merged_config db ids = some cfg) : NoAddress cfg := by
  obtain ⟨merged, hall, rfl⟩ := build_merged_config_some h
  have hm : NoAddress merged := by
    refine merge_all_keeps ?_ (fun l hl => absurd hl (by simp)) hall
    intro id _ tmp dst dst' hload hdst hmerge
    have htmp := config_load_from_db_noAddress hload
    refine merge_one_config_keeps ?_ ?_ ?_ ?_ hdst hmerge
    · intro l hl dst dst' idx hd happ
      rcases append_local_unique_some happ with rfl | ⟨hle, rfl⟩
      · exact hd
      · intro l' hl'
        rcases List.mem_append.mp hl' with hl' | hl'
        · exact hd l' hl'
        · rw [List.mem_singleton.mp hl']
          exact htmp l hl
    · intro w dst dst' idx hd happ
      rcases append_wan_unique_some happ with rfl | ⟨hle, rfl⟩ <;> exact hd
    · intro cp dst dst' idx hd happ
      obtain ⟨wid, hle, -, rfl⟩ := append_policy_unique_some happ
      exact hd
    · intro lm wm pm sp dst dst' idx hd happ
      obtain ⟨dp, hle, -, rfl⟩ := append_profile_some happ
      exact hd
  unfold NoAddress
  rw [(merged_crypto_fields merged).1]
  exact hm

/-! ## The wire ids are distinct -/

theorem wire_id_for_some {dst : AppConfig} {wid j : Nat} (h : wire_id_for dst wid = some j) :
    1 ≤ j ∧ j ≤ 255 ∧ ∀ cp ∈ dst.policies, cp.id ≠ j := by
  have hfree : ∀ j, collect_used_wire_ids dst j = false → ∀ cp ∈ dst.policies, cp.id ≠ j := by
    intro j hj cp hcp he
    unfold collect_used_wire_ids at hj
    rw [List.any_eq_false] at hj
    exact hj cp hcp (by simpa using he)
  unfold wire_id_for at h
  split at h
  · have hmem := List.mem_of_find?_eq_some h
    have hused := List.find?_some h
    rw [List.mem_range'_1] at hmem
    exact ⟨hmem.1, by omega, hfree j (by simpa using hused)⟩
  · rename_i hok
    obtain rfl := Option.some.inj h
    simp only [not_or, Bool.not_eq_true] at hok
    exact ⟨by omega, by omega, hfree wid hok.2.2⟩

/-- The ids of the policies are distinct, and each fits the byte that a frame has for it. -/
structure WireIds (cfg : AppConfig) : Prop where
  range : ∀ cp ∈ cfg.policies, 1 ≤ cp.id ∧ cp.id ≤ 255
  nodup : (cfg.policies.map (·.id)).Nodup

theorem WireIds.append {dst dst' : AppConfig} {cp : CryptoPolicy} {idx : Nat} (h : WireIds dst)
    (happ : append_policy_unique dst cp = some (dst', idx)) : WireIds dst' := by
  obtain ⟨wid, hle, hwid, rfl⟩ := append_policy_unique_some happ
  obtain ⟨h1, h255, hfree⟩ := wire_id_for_some hwid
  refine ⟨?_, ?_⟩
  · intro q hq
    rcases List.mem_append.mp hq with hq | hq
    · exact h.range q hq
    · rw [List.mem_singleton.mp hq]
      exact ⟨h1, h255⟩
  · rw [List.map_append, List.nodup_append]
    refine ⟨h.nodup, List.nodup_singleton _, ?_⟩
    intro i hi j hj
    obtain ⟨q, hq, rfl⟩ := List.mem_map.mp hi
    rw [List.mem_singleton.mp hj]
    exact hfree q hq

theorem WireIds.distinct {cfg : AppConfig} (h : WireIds cfg) : DistinctWireIds cfg.policies := by
  unfold DistinctWireIds
  rw [show cfg.policies.map (·.wire_id) = (cfg.policies.map (·.id)).map UInt8.ofNat by
    rw [List.map_map]; rfl]
  refine List.Nodup.map_on ?_ h.nodup
  intro i hi j hj he
  obtain ⟨p, hp, rfl⟩ := List.mem_map.mp hi
  obtain ⟨q, hq, rfl⟩ := List.mem_map.mp hj
  have hpr := h.range p hp
  have hqr := h.range q hq
  have hm := (ofNat_eq_iff _ _).mp he
  omega

theorem merge_all_ids {db : Db} {ids : List Int} {merged : AppConfig}
    (h : merge_all db {} ids = some merged) : WireIds merged := by
  have hempty : WireIds {} := ⟨fun cp hcp => absurd hcp (by simp), List.nodup_nil⟩
  refine merge_all_keeps ?_ hempty h
  intro id _ tmp dst dst' _ hdst hmerge
  refine merge_one_config_keeps ?_ ?_ ?_ ?_ hdst hmerge
  · intro l _ dst dst' idx hd happ
    rcases append_local_unique_some happ with rfl | ⟨hle, rfl⟩
    · exact hd
    · exact ⟨hd.range, hd.nodup⟩
  · intro w dst dst' idx hd happ
    rcases append_wan_unique_some happ with rfl | ⟨hle, rfl⟩
    · exact hd
    · exact ⟨hd.range, hd.nodup⟩
  · intro cp dst dst' idx hd happ
    exact hd.append happ
  · intro lm wm pm sp dst dst' idx hd happ
    obtain ⟨dp, hle, -, rfl⟩ := append_profile_some happ
    exact ⟨hd.range, hd.nodup⟩

theorem build_merged_config_ids {db : Db} {ids : List Int} {cfg : AppConfig}
    (h : build_merged_config db ids = some cfg) : WireIds cfg := by
  obtain ⟨merged, hall, rfl⟩ := build_merged_config_some h
  obtain ⟨-, hpol, -, -⟩ := merged_crypto_fields merged
  have hm := merge_all_ids hall
  refine ⟨?_, ?_⟩
  · rw [hpol]
    exact hm.range
  · rw [hpol]
    exact hm.nodup

/-- The policies of a merged configuration have distinct wire ids, and crypto is on exactly
when there is one. -/
theorem build_merged_config_wireIds {db : Db} {ids : List Int} {cfg : AppConfig}
    (h : build_merged_config db ids = some cfg) :
    DistinctWireIds cfg.policies ∧ cfg.crypto_enabled = !cfg.policies.isEmpty := by
  refine ⟨(build_merged_config_ids h).distinct, ?_⟩
  obtain ⟨merged, -, rfl⟩ := build_merged_config_some h
  obtain ⟨-, hpol, -, hen⟩ := merged_crypto_fields merged
  rw [hen, hpol]

/-- The policies of a configuration are fewer than the ids, so there is always a free one. -/
theorem wire_id_for_isSome (dst : AppConfig) (wid : Nat) : (wire_id_for dst wid).isSome = true := by
  unfold wire_id_for
  split
  · rw [List.find?_isSome]
    by_contra hused
    have hsub : List.range' 1 255 ⊆ dst.policies.map (·.id) := by
      intro j hj
      have hj' : collect_used_wire_ids dst j = true := by
        by_contra hfree
        exact hused ⟨j, hj, by simpa using hfree⟩
      unfold collect_used_wire_ids at hj'
      obtain ⟨cp, hcp, he⟩ := List.any_eq_true.mp hj'
      exact List.mem_map.mpr ⟨cp, hcp, by simpa using he⟩
    have hlen := (List.subperm_of_subset List.nodup_range' hsub).length_le
    have hle := dst.policies_le
    rw [List.length_range', List.length_map] at hlen
    exact absurd (hlen.trans hle) (by decide)
  · rfl

/-- A policy is refused only when the array is full. -/
theorem append_policy_unique_isSome (dst : AppConfig) (src_cp : CryptoPolicy) :
    (append_policy_unique dst src_cp).isSome = true ↔ dst.policies.length < MAX_CRYPTO_POLICIES := by
  obtain ⟨wid, hwid⟩ := Option.isSome_iff_exists.mp (wire_id_for_isSome dst src_cp.id)
  unfold append_policy_unique
  split
  · rename_i hlt
    rw [hwid]
    simp [hlt]
  · rename_i hfull
    simp [hfull]

/-! ## The profiles are those that were asked for -/

theorem append_all_profiles {lm wm pm : List Nat} {sps : List ProfileConfig}
    {dst dst' : AppConfig} {map : List Nat}
    (h : append_all (append_profile lm wm pm) dst sps = some (dst', map)) :
    dst'.profiles.map (·.id) = dst.profiles.map (·.id) ++ sps.map (·.id) := by
  induction sps generalizing dst dst' map with
  | nil =>
    simp only [append_all, Option.some.injEq, Prod.mk.injEq] at h
    rw [h.1, List.map_nil, List.append_nil]
  | cons sp sps ih =>
    obtain ⟨dst1, idx, map2, hone, hrest, -⟩ := append_all_cons_some h
    obtain ⟨dp, hle, hid, rfl⟩ := append_profile_some hone
    rw [ih hrest, List.map_append, List.map_cons, List.map_cons, List.map_nil, hid,
      List.append_assoc]
    rfl

theorem merge_one_config_profiles {dst src dst' : AppConfig}
    (h : merge_one_config dst src = some dst') :
    dst'.profiles.map (·.id) = dst.profiles.map (·.id) ++ src.profiles.map (·.id) := by
  obtain ⟨dst1, dst2, dst3, lm, wm, pm, map, h1, h2, h3, h4⟩ := merge_one_config_some h
  rw [append_all_profiles h4, (append_all_policy_frame h3).2.2, (append_all_wan_frame h2).2.2,
    (append_all_local_frame h1).2.2]

theorem merge_all_profiles {db : Db} {ids : List Int} {dst dst' : AppConfig}
    (h : merge_all db dst ids = some dst') :
    dst'.profiles.map (·.id) = dst.profiles.map (·.id) ++ ids := by
  induction ids generalizing dst with
  | nil => rw [Option.some.inj h, List.append_nil]
  | cons id ids ih =>
    obtain ⟨tmp, dst1, hload, hone, h⟩ := merge_all_cons_some h
    obtain ⟨_, _, _, _, _, -, -, -, -, hpol, -⟩ := config_load_from_db_some hload
    rw [ih h, merge_one_config_profiles hone, (load_profiles_and_policies_some hpol).2,
      List.append_assoc]
    rfl

/-- The profiles of a merged configuration are the ids it was built for, in order. -/
theorem build_merged_config_profiles {db : Db} {ids : List Int} {cfg : AppConfig}
    (h : build_merged_config db ids = some cfg) : cfg.profiles.map (·.id) = ids := by
  obtain ⟨merged, hall, rfl⟩ := build_merged_config_some h
  rw [(merged_crypto_fields merged).2.2.1, merge_all_profiles hall]
  rfl

end ne_ip.db_runtime
