-- A merge as a function of the configurations it merges (db_runtime.c): what each of
-- the four loops appends and the map of the indices that it gives.
import NeIp.IndexList
import NeIp.MergeOrder

open byte_buf index_list ne_ip.config ne_ip.db_runtime ne_ip.merge_order

namespace ne_ip.merge_sources

/-- What `build_merged_config` makes of the configurations that it has loaded. -/
def merge_configs (sources : List AppConfig) : Option AppConfig :=
  match sources.foldlM merge_one_config {} with
  | none => none
  | some merged =>
    let merged := merged_crypto merged
    if config_validate merged then some merged else none

theorem merge_all_sources (db : Db) (dst : AppConfig) (ids : List Int) :
    merge_all db dst ids =
      (ids.mapM (config_load_from_db db)).bind fun sources => sources.foldlM merge_one_config dst := by
  induction ids generalizing dst with
  | nil => rfl
  | cons id ids ih =>
    simp only [merge_all, List.mapM_cons]
    cases config_load_from_db db id with
    | none => rfl
    | some tmp =>
      cases hone : merge_one_config dst tmp with
      | none => cases hrest : ids.mapM (config_load_from_db db) <;> simp [hone]
      | some dst1 =>
        simp only [hone]
        rw [ih]
        cases hrest : ids.mapM (config_load_from_db db) <;> simp [hone]

/-- A merge loads the configurations of the ids and merges these. -/
theorem build_merged_config_sources (db : Db) (ids : List Int) :
    build_merged_config db ids = (ids.mapM (config_load_from_db db)).bind merge_configs := by
  unfold build_merged_config
  rw [merge_all_sources]
  cases ids.mapM (config_load_from_db db) <;> rfl

theorem merge_configs_some {sources : List AppConfig} {cfg : AppConfig}
    (h : merge_configs sources = some cfg) :
    ∃ merged, sources.foldlM merge_one_config {} = some merged ∧ cfg = merged_crypto merged := by
  unfold merge_configs at h
  split at h
  · simp at h
  rename_i merged hall
  dsimp only at h
  split at h
  · exact ⟨merged, hall, (Option.some.inj h).symm⟩
  · simp at h

/-! ## The arrays of a profile -/

/-- The lists of a profile are as long as the counts of `struct profile_config` allow. -/
structure FitsArrays (p : ProfileConfig) : Prop where
  locals : p.local_indices.length ≤ MAX_PROFILE_INTERFACES
  wans : p.wan_indices.length ≤ MAX_PROFILE_INTERFACES
  weights : p.wan_bandwidth_weight.length = p.wan_indices.length
  policies : p.policy_indices.length ≤ MAX_CRYPTO_POLICIES

theorem config_load_from_db_fitsArrays {db : Db} {id : Int} {tmp : AppConfig}
    (h : config_load_from_db db id = some tmp) : ∀ p ∈ tmp.profiles, FitsArrays p := by
  obtain ⟨rows, _, _, _, cfg2, -, -, -, -, hpol, -⟩ := config_load_from_db_some h
  unfold load_profiles_and_policies at hpol
  split at hpol
  · simp at hpol
  rename_i policies hp
  rw [← Option.some.inj hpol]
  intro p hmem
  obtain rfl := List.mem_singleton.mp hmem
  unfold profile_row
  refine ⟨?_, ?_, ?_, ?_⟩
  · exact (List.length_take_le _ _)
  · rw [List.length_map]
    exact List.length_take_le _ _
  · rw [List.length_map, List.length_map]
  · rw [List.length_range]
    exact rows.policies_le policies hp

/-! ## What the loop over the profiles appends -/

/-- A profile with its indices mapped. -/
def mapped_profile (local_map wan_map policy_map : List Nat) (sp : ProfileConfig) : ProfileConfig :=
  let wans := ((sp.wan_indices.zip sp.wan_bandwidth_weight).filterMap fun w =>
    (wan_map[w.1]?).map (·, w.2)).take MAX_PROFILE_INTERFACES
  { id := sp.id
    name := sp.name
    enabled := sp.enabled
    local_indices := map_indices local_map MAX_PROFILE_INTERFACES sp.local_indices
    wan_indices := wans.map (·.1)
    wan_bandwidth_weight := wans.map (·.2)
    policy_indices := map_indices policy_map MAX_CRYPTO_POLICIES sp.policy_indices }

theorem append_all_mapped {lm wm pm : List Nat} {sps : List ProfileConfig} {dst dst' : AppConfig}
    {map : List Nat} (h : append_all (append_profile lm wm pm) dst sps = some (dst', map)) :
    dst'.profiles = dst.profiles ++ sps.map (mapped_profile lm wm pm) := by
  induction sps generalizing dst map with
  | nil =>
    simp only [append_all, Option.some.injEq, Prod.mk.injEq] at h
    rw [← h.1, List.map_nil, List.append_nil]
  | cons sp sps ih =>
    obtain ⟨dst1, idx, map2, hone, hrest, -⟩ := append_all_cons_some h
    have hfirst : dst1.profiles = dst.profiles ++ [mapped_profile lm wm pm sp] := by
      unfold append_profile at hone
      split at hone
      · rw [← (Prod.mk.inj (Option.some.inj hone)).1]
        rfl
      · simp at hone
    rw [ih hrest, hfirst, List.append_assoc]
    rfl

/-- An array that is long enough takes all the mapped indices. -/
theorem map_indices_relocate {base n max : Nat} {is : List Nat} (h : is.length ≤ max) :
    map_indices (List.range' base n) max is = relocate base n is := by
  unfold map_indices relocate
  exact List.take_of_length_le ((List.length_filterMap_le _ _).trans h)

/-! ## What the loop over the policies appends -/

/-- All of a policy but its id. -/
def without_id (cp : CryptoPolicy) : CryptoPolicy := { cp with id := 0 }

theorem append_all_contents {cps : List CryptoPolicy} {dst dst' : AppConfig} {map : List Nat}
    (h : append_all append_policy_unique dst cps = some (dst', map)) :
    dst'.policies.map without_id = dst.policies.map without_id ++ cps.map without_id := by
  induction cps generalizing dst map with
  | nil =>
    simp only [append_all, Option.some.injEq, Prod.mk.injEq] at h
    rw [← h.1, List.map_nil, List.append_nil]
  | cons cp cps ih =>
    obtain ⟨dst1, idx, map2, hone, hrest, -⟩ := append_all_cons_some h
    obtain ⟨wid, hle, -, rfl⟩ := append_policy_unique_some hone
    rw [ih hrest, List.map_append, List.append_assoc]
    rfl

/-! ## What the loop over the LAN interfaces appends -/

/-- Interfaces under new names are all appended, at the next indices. -/
theorem append_all_new_locals {ls : List LocalConfig} {dst dst' : AppConfig} {map : List Nat}
    (hnames : (lan_names dst ++ ls.map (·.ifname)).Nodup)
    (h : append_all append_local_unique dst ls = some (dst', map)) :
    dst'.locals = dst.locals ++ ls ∧ map = List.range' dst.locals.length ls.length := by
  induction ls generalizing dst map with
  | nil =>
    simp only [append_all, Option.some.injEq, Prod.mk.injEq] at h
    rw [← h.1, ← h.2, List.append_nil]
    exact ⟨rfl, rfl⟩
  | cons l ls ih =>
    obtain ⟨dst1, idx, map2, hone, hrest, rfl⟩ := append_all_cons_some h
    have hnew : l.ifname ∉ lan_names dst := fun hmem =>
      (List.nodup_append.mp hnames).2.2 _ hmem _ List.mem_cons_self rfl
    have hfirst : dst1.locals = dst.locals ++ [l] ∧ idx = dst.locals.length := by
      unfold append_local_unique at hone
      split at hone
      · rename_i j hj
        obtain ⟨hlt, hname, -⟩ := List.findIdx?_eq_some_iff_getElem.mp hj
        refine absurd ?_ hnew
        rw [← beq_iff_eq.mp hname]
        exact List.mem_map_of_mem (List.getElem_mem hlt)
      split at hone
      · obtain ⟨rfl, rfl⟩ := Prod.mk.inj (Option.some.inj hone)
        exact ⟨rfl, rfl⟩
      · simp at hone
    obtain ⟨hlocals, rfl⟩ := hfirst
    have hnames1 : (lan_names dst1 ++ ls.map (·.ifname)).Nodup := by
      unfold lan_names
      rw [hlocals, List.map_append, List.append_assoc]
      exact hnames
    obtain ⟨hall, hmap⟩ := ih hnames1 hrest
    refine ⟨?_, ?_⟩
    · rw [hall, hlocals, List.append_assoc]
      rfl
    · rw [hmap, hlocals, List.length_append]
      rfl

end ne_ip.merge_sources
