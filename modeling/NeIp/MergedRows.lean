-- What the profiles of a merged configuration have of the rows of the database (db_config.c,
-- db_runtime.c): their LAN interfaces, their policies and their WAN links.
import NeIp.MergeSelect
import NeIp.WanPeers
import NeIp.WanSelect

open byte_buf index_list ne_ip.config ne_ip.db_runtime ne_ip.merge_order ne_ip.merge_sources
open ne_ip.merge_select ne_ip.policy_select ne_ip.wan_peers ne_ip.wan_select

namespace ne_ip.merged_rows

/-! ## The indices of the profiles -/

/-- Every profile is enabled, and its indices lead to entries. -/
structure Sound (cfg : AppConfig) : Prop where
  enabled : ∀ p ∈ cfg.profiles, p.enabled = true
  locals : ∀ p ∈ cfg.profiles, ∀ i ∈ p.local_indices, i < (lan_names cfg).length
  wans : WansInRange cfg
  weights : ∀ p ∈ cfg.profiles, p.wan_bandwidth_weight.length = p.wan_indices.length
  policies : ∀ p ∈ cfg.profiles, ∀ i ∈ p.policy_indices, i < (cfg.policies.map without_id).length

/-- The names of a profile's LAN interfaces, and its policies without their ids. -/
def view (cfg : AppConfig) (p : ProfileConfig) : List Bytes × List CryptoPolicy :=
  (reads (lan_names cfg) p.local_indices, reads (cfg.policies.map without_id) p.policy_indices)

/-! ## What the loop over the LAN interfaces appends -/

theorem append_local_unique_name {dst dst' : AppConfig} {l : LocalConfig} {idx : Nat}
    (h : append_local_unique dst l = some (dst', idx)) :
    lan_names dst <+: lan_names dst' ∧ (lan_names dst')[idx]? = some l.ifname := by
  unfold append_local_unique at h
  split at h
  · rename_i j hj
    obtain ⟨rfl, rfl⟩ := Prod.mk.inj (Option.some.inj h)
    obtain ⟨hlt, hname, -⟩ := List.findIdx?_eq_some_iff_getElem.mp hj
    refine ⟨List.prefix_rfl, ?_⟩
    unfold lan_names
    rw [List.getElem?_map, List.getElem?_eq_getElem hlt, Option.map_some, beq_iff_eq.mp hname]
  · split at h
    · obtain ⟨rfl, rfl⟩ := Prod.mk.inj (Option.some.inj h)
      unfold lan_names
      dsimp only
      rw [List.map_append]
      refine ⟨List.prefix_append _ _, ?_⟩
      rw [List.getElem?_append_right (by rw [List.length_map]), List.length_map, Nat.sub_self]
      rfl
    · simp at h

/-- The loop leads each entry to the one of its name. -/
theorem append_all_local_names {ls : List LocalConfig} {dst dst' : AppConfig} {map : List Nat}
    (h : append_all append_local_unique dst ls = some (dst', map)) :
    lan_names dst <+: lan_names dst' ∧
      map.map ((lan_names dst')[·]?) = (ls.map (·.ifname)).map some := by
  induction ls generalizing dst map with
  | nil =>
    simp only [append_all, Option.some.injEq, Prod.mk.injEq] at h
    obtain ⟨rfl, rfl⟩ := h
    exact ⟨List.prefix_rfl, rfl⟩
  | cons l ls ih =>
    obtain ⟨dst1, idx, map2, hone, hrest, rfl⟩ := append_all_cons_some h
    obtain ⟨hpre1, hidx⟩ := append_local_unique_name hone
    obtain ⟨hpre, hmap⟩ := ih hrest
    refine ⟨hpre1.trans hpre, ?_⟩
    obtain ⟨later, hlater⟩ := hpre
    obtain ⟨hlt, -⟩ := List.getElem?_eq_some_iff.mp hidx
    rw [List.map_cons, List.map_cons, List.map_cons, hmap, ← hlater,
      List.getElem?_append_left hlt, hidx]

/-! ## What a merge appends -/

/-- Mapped indices lead to entries. -/
theorem mapped_lt {α : Type} {table : List α} {map : List Nat} {as : List α}
    (h : map.map (table[·]?) = as.map some) {n : Nat} {is : List Nat} {i : Nat}
    (hi : i ∈ map_indices map n is) : i < table.length := by
  obtain ⟨j, -, hj⟩ := List.mem_filterMap.mp (List.mem_of_mem_take hi)
  have hread : table[i]? ∈ as.map some := by
    rw [← h]
    exact List.mem_map_of_mem (List.mem_of_getElem? hj)
  obtain ⟨a, -, ha⟩ := List.mem_map.mp hread
  exact (List.getElem?_eq_some_iff.mp ha.symm).1

/-- The indices of an array that is long enough are all mapped. -/
theorem reads_map_indices {α : Type} {table table' : List α} {map : List Nat} {max : Nat}
    (h : map.map (table'[·]?) = table.map some) {is : List Nat} (hlen : is.length ≤ max) :
    reads table' (map_indices map max is) = reads table is := by
  unfold map_indices
  rw [List.take_of_length_le ((List.length_filterMap_le _ _).trans hlen)]
  exact reads_mapped h is

theorem appended_policies {cps : List CryptoPolicy} {dst dst' : AppConfig} {map : List Nat}
    (h : append_all append_policy_unique dst cps = some (dst', map)) :
    dst.policies.map without_id <+: dst'.policies.map without_id ∧
      map.map ((dst'.policies.map without_id)[·]?) = (cps.map without_id).map some := by
  obtain ⟨-, hmap, -⟩ := append_all_policies h
  have hcontents := append_all_contents h
  refine ⟨hcontents ▸ List.prefix_append _ _, ?_⟩
  rw [hcontents, hmap, List.map_map]
  refine List.ext_getElem? fun k => ?_
  rw [List.getElem?_map, List.getElem?_map, relocated_index]
  split
  · rename_i hk
    rw [Option.map_some, List.getElem?_append_right (by rw [List.length_map]; omega),
      List.length_map, Nat.add_sub_cancel_left, List.getElem?_map, List.getElem?_eq_getElem hk]
    rfl
  · rename_i hk
    rw [List.getElem?_eq_none (by omega)]
    rfl

/-- The step of the merge: the profiles that were there keep what they have, and those that are
appended have what they had in their own configuration. -/
theorem merge_one_config_views {dst src dst' : AppConfig} (hd : Sound dst)
    (hen : ∀ p ∈ src.profiles, p.enabled = true) (harr : ∀ p ∈ src.profiles, FitsArrays p)
    (h : merge_one_config dst src = some dst') :
    Sound dst' ∧ dst'.profiles.map (view dst') =
      dst.profiles.map (view dst) ++ src.profiles.map (view src) := by
  obtain ⟨-, hwans, -, -⟩ := merge_one_config_links harr hd.wans h
  obtain ⟨dst1, dst2, dst3, lm, wm, pm, map, h1, h2, h3, h4⟩ := merge_one_config_some h
  obtain ⟨hlpre, hlmap⟩ := append_all_local_names h1
  obtain ⟨hppre, hpmap⟩ := appended_policies h3
  have hprofiles := append_all_mapped h4
  obtain ⟨hl4, -, hp4⟩ := append_all_profile_frame h4
  obtain ⟨hl3, -, hf3⟩ := append_all_policy_frame h3
  obtain ⟨hl2, hp2, hf2⟩ := append_all_wan_frame h2
  obtain ⟨-, hp1, hf1⟩ := append_all_local_frame h1
  have hlans : lan_names dst' = lan_names dst1 := by
    unfold lan_names
    rw [hl4, hl3, hl2]
  rw [← hlans] at hlpre hlmap
  rw [← hp4, hp2, hp1] at hppre
  rw [← hp4] at hpmap
  rw [hf3, hf2, hf1] at hprofiles
  constructor
  · -- each profile is an old one, or a mapped one
    refine ⟨?_, ?_, hwans, ?_, ?_⟩ <;> rw [hprofiles]
    · intro p hp
      rcases List.mem_append.mp hp with hp | hp
      · exact hd.enabled p hp
      · obtain ⟨sp, hsp, rfl⟩ := List.mem_map.mp hp
        exact hen sp hsp
    · intro p hp i hi
      rcases List.mem_append.mp hp with hp | hp
      · exact (hd.locals p hp i hi).trans_le hlpre.length_le
      · obtain ⟨sp, -, rfl⟩ := List.mem_map.mp hp
        exact mapped_lt hlmap hi
    · intro p hp
      rcases List.mem_append.mp hp with hp | hp
      · exact hd.weights p hp
      · obtain ⟨sp, -, rfl⟩ := List.mem_map.mp hp
        unfold mapped_profile
        rw [List.length_map, List.length_map]
    · intro p hp i hi
      rcases List.mem_append.mp hp with hp | hp
      · exact (hd.policies p hp i hi).trans_le hppre.length_le
      · obtain ⟨sp, -, rfl⟩ := List.mem_map.mp hp
        exact mapped_lt hpmap hi
  · rw [hprofiles, List.map_append, List.map_map]
    refine congrArg₂ _ (List.map_congr_left fun p hp => ?_) (List.map_congr_left fun sp hsp => ?_)
    · unfold view
      rw [reads_of_longer hlpre (hd.locals p hp), reads_of_longer hppre (hd.policies p hp)]
    · exact Prod.ext (reads_map_indices hlmap (harr sp hsp).locals)
        (reads_map_indices hpmap (harr sp hsp).policies)

theorem merges_views {sources : List AppConfig} {dst dst' : AppConfig} (hd : Sound dst)
    (hen : ∀ s ∈ sources, ∀ p ∈ s.profiles, p.enabled = true)
    (harr : ∀ s ∈ sources, ∀ p ∈ s.profiles, FitsArrays p)
    (h : sources.foldlM merge_one_config dst = some dst') :
    Sound dst' ∧ dst'.profiles.map (view dst') =
      dst.profiles.map (view dst) ++ sources.flatMap fun s => s.profiles.map (view s) := by
  induction sources generalizing dst with
  | nil =>
    obtain rfl := Option.some.inj h
    exact ⟨hd, (List.append_nil _).symm⟩
  | cons src sources ih =>
    rw [List.foldlM_cons] at h
    obtain ⟨dst1, hone, hrest⟩ := Option.bind_eq_some_iff.mp h
    obtain ⟨hd1, hviews1⟩ := merge_one_config_views hd (hen src List.mem_cons_self)
      (harr src List.mem_cons_self) hone
    obtain ⟨hd', hviews⟩ := ih hd1 (fun s hs => hen s (List.mem_cons_of_mem src hs))
      (fun s hs => harr s (List.mem_cons_of_mem src hs)) hrest
    refine ⟨hd', ?_⟩
    rw [hviews, hviews1, List.flatMap_cons, List.append_assoc]

/-! ## What a load makes of the rows -/

/-- The rows of `ne_lan` of a profile. -/
def lan_rows (db : Db) (id : Int) : List Bytes := ((db id).bind (·.lans)).getD []

/-- The name fits `IF_NAMESIZE`; an entry is stored under the first bytes of a longer one, which
no lookup by the name finds. -/
def lan_fits (ifname : Bytes) : Bool := decide (ifname.length < IF_NAMESIZE)

/-- What the rows of `ne_policies` of a profile are expanded to. -/
def policy_rows (db : Db) (id : Int) : List CryptoPolicy := ((db id).bind (·.policies)).getD []

theorem load_local_rows_some {cfg cfg' : AppConfig} {rows : List Bytes}
    (h : load_local_rows cfg rows = some cfg') :
    rows.length ≤ MAX_INTERFACES ∧ cfg'.locals = rows.map (local_row cfg) := by
  unfold load_local_rows at h
  split at h
  · simp at h
  split at h
  · rename_i hlen
    split at h
    · simp at h
    · rw [← Option.some.inj h]
      exact ⟨hlen, rfl⟩
  · simp at h

theorem config_load_from_db_local_rows {db : Db} {id : Int} {tmp : AppConfig}
    (h : config_load_from_db db id = some tmp) :
    ∃ sp, tmp.locals = (lan_rows db id).map (local_row {}) ∧ tmp.policies = policy_rows db id ∧
      tmp.profiles = [sp] ∧ sp.enabled = true ∧
      sp.local_indices = (lan_rows db id).filterMap fun row =>
        tmp.locals.findIdx? (·.ifname == row) := by
  unfold config_load_from_db at h
  split at h
  · simp at h
  rename_i rows hrows
  split at h
  · simp at h
  rename_i cfg1 hlan
  obtain ⟨lans, hlans, hlan⟩ := Option.bind_eq_some_iff.mp hlan
  obtain ⟨hlen, hlocals⟩ := load_local_rows_some hlan
  split at h
  · simp at h
  rename_i cfg2 hwan
  obtain ⟨wans, -, hwan⟩ := Option.bind_eq_some_iff.mp hwan
  have hsame := (load_wan_rows_some hwan).2.2
  split at h
  · simp at h
  rename_i cfg3 hpol
  split at h
  · obtain rfl := Option.some.inj h
    unfold load_profiles_and_policies at hpol
    split at hpol
    · simp at hpol
    rename_i policies hp
    rw [← Option.some.inj hpol]
    have hrows_lan : lan_rows db id = lans := by
      unfold lan_rows
      rw [hrows, Option.bind_some, hlans]
      rfl
    have hrows_pol : policy_rows db id = policies := by
      unfold policy_rows
      rw [hrows, Option.bind_some, hp]
      rfl
    refine ⟨_, ?_, hrows_pol.symm, rfl, rfl, ?_⟩
    · rw [hrows_lan]
      exact hsame.trans hlocals
    · rw [hrows_lan]
      unfold profile_row
      rw [hlans]
      exact List.take_of_length_le ((List.length_filterMap_le _ _).trans hlen)
  · simp at h

/-- A row leads to the entry under its name, if its name fits. -/
theorem find_local_row (cfg : AppConfig) {rows : List Bytes} {row : Bytes} (hrow : row ∈ rows) :
    ((rows.map (local_row cfg)).findIdx? (·.ifname == row)).bind
        (((rows.map (local_row cfg)).map (·.ifname))[·]?) =
      if lan_fits row then some row else none := by
  cases hj : (rows.map (local_row cfg)).findIdx? (·.ifname == row) with
  | none =>
    rw [if_neg]
    · rfl
    · intro hfits
      have hno := List.findIdx?_eq_none_iff.mp hj (local_row cfg row) (List.mem_map_of_mem hrow)
      have hkept : (local_row cfg row).ifname = row :=
        List.take_of_length_le (Nat.le_sub_one_of_lt (of_decide_eq_true hfits))
      rw [hkept, beq_self_eq_true] at hno
      simp at hno
  | some j =>
    obtain ⟨hlt, hname, -⟩ := List.findIdx?_eq_some_iff_getElem.mp hj
    have hname := beq_iff_eq.mp hname
    rw [Option.bind_some, List.getElem?_map, List.getElem?_eq_getElem hlt, Option.map_some, hname,
      if_pos]
    -- it is the beginning of some row
    obtain ⟨r, -, hr⟩ := List.mem_map.mp (List.getElem_mem hlt)
    refine decide_eq_true ?_
    rw [← hname, ← hr]
    show (r.take (IF_NAMESIZE - 1)).length < IF_NAMESIZE
    rw [List.length_take]
    exact (Nat.min_le_left _ _).trans_lt (by decide)

theorem filterMap_if {α : Type} (p : α → Bool) (l : List α) :
    (l.filterMap fun a => if p a then some a else none) = l.filter p := by
  rw [← List.filterMap_eq_filter]
  refine List.filterMap_congr fun a _ => ?_
  rfl

/-- A profile has the LAN interfaces and the policies of its rows. -/
theorem config_load_from_db_view {db : Db} {id : Int} {tmp : AppConfig}
    (h : config_load_from_db db id = some tmp) :
    (∀ p ∈ tmp.profiles, p.enabled = true) ∧ tmp.profiles.map (view tmp) =
      [((lan_rows db id).filter lan_fits, (policy_rows db id).map without_id)] := by
  obtain ⟨sp, hlocals, hpolicies, hsp, hen, hidx⟩ := config_load_from_db_local_rows h
  obtain ⟨sp', hsp', -, hpidx⟩ := config_load_from_db_profile h
  obtain rfl : sp = sp' := List.singleton_inj.mp (hsp.symm.trans hsp')
  refine ⟨?_, ?_⟩
  · rw [hsp]
    intro p hp
    rw [List.mem_singleton.mp hp]
    exact hen
  · rw [hsp, List.map_singleton, List.singleton_inj]
    refine Prod.ext ?_ ?_
    · show reads (lan_names tmp) sp.local_indices = _
      unfold reads lan_names
      rw [hidx, List.filterMap_filterMap, hlocals, ← filterMap_if]
      exact List.filterMap_congr fun row hrow => find_local_row {} hrow
    · show reads (tmp.policies.map without_id) sp.policy_indices = _
      rw [hpidx, ← List.length_map without_id, reads_range, hpolicies]

/-! ## A merged configuration and the rows -/

/-- The profiles of a merged configuration have what their rows say. -/
structure HasRows (db : Db) (ids : List Int) (cfg : AppConfig) : Prop extends Sound cfg where
  profile_ids : cfg.profiles.map (·.id) = ids
  names : (lan_names cfg).Nodup
  fit : ∀ name ∈ lan_names cfg, lan_fits name = true
  views : cfg.profiles.map (view cfg) = ids.map fun id =>
    ((lan_rows db id).filter lan_fits, (policy_rows db id).map without_id)
  links : cfg.profiles.map (wan_links cfg) = ids.map fun id =>
    rows_by (first_peer (ids.flatMap (wan_rows db))) (wan_rows db id)

theorem merged_crypto_sound {cfg : AppConfig} (h : Sound cfg) : Sound (merged_crypto cfg) := by
  unfold merged_crypto
  split
  · exact ⟨h.enabled, h.locals, h.wans, h.weights, h.policies⟩
  · exact ⟨h.enabled, h.locals, h.wans, h.weights, h.policies⟩

/-- The names of the entries are the first bytes of the names in the rows. -/
theorem merged_names_fit {db : Db} {ids : List Int} {merged : AppConfig}
    (h : merge_all db {} ids = some merged) : ∀ name ∈ lan_names merged, lan_fits name = true := by
  obtain ⟨-, hloads, hlans, -⟩ :=
    @merge_all_names db ids {} merged ⟨List.nodup_nil, List.nodup_nil⟩ h
  intro name hname
  rw [← List.mem_toFinset, hlans, List.mem_toFinset] at hname
  obtain ⟨id, hid, hname⟩ := List.mem_flatMap.mp hname
  obtain ⟨tmp, hload⟩ := Option.isSome_iff_exists.mp (hloads id hid)
  obtain ⟨sp, hlocals, -⟩ := config_load_from_db_local_rows hload
  rw [loaded_eq hload, lan_names, hlocals, List.map_map] at hname
  obtain ⟨row, -, rfl⟩ := List.mem_map.mp hname
  refine decide_eq_true ?_
  show (row.take (IF_NAMESIZE - 1)).length < IF_NAMESIZE
  rw [List.length_take]
  exact (Nat.min_le_left _ _).trans_lt (by decide)

theorem build_merged_config_hasRows {db : Db} {ids : List Int} {cfg : AppConfig}
    (h : build_merged_config db ids = some cfg) : HasRows db ids cfg := by
  have hids := build_merged_config_profiles h
  have hnames : (lan_names cfg).Nodup ∧ ∀ name ∈ lan_names cfg, lan_fits name = true := by
    obtain ⟨merged, hall, rfl⟩ := build_merged_config_some h
    have hdistinct :=
      (@merge_all_names db ids {} merged ⟨List.nodup_nil, List.nodup_nil⟩ hall).1.lans
    have hfit := merged_names_fit hall
    unfold lan_names at hdistinct hfit ⊢
    rw [(merged_crypto_fields merged).1]
    exact ⟨hdistinct, hfit⟩
  rw [build_merged_config_sources] at h
  obtain ⟨sources, hsources, hmerge⟩ := Option.bind_eq_some_iff.mp h
  obtain ⟨rfl, hload⟩ := loads_some hsources
  have hfits : ∀ s ∈ ids.map (loaded db), ∀ p ∈ s.profiles, FitsArrays p := by
    intro s hs
    obtain ⟨id, hid, rfl⟩ := List.mem_map.mp hs
    exact config_load_from_db_fitsArrays (hload id hid)
  have hen : ∀ s ∈ ids.map (loaded db), ∀ p ∈ s.profiles, p.enabled = true := by
    intro s hs
    obtain ⟨id, hid, rfl⟩ := List.mem_map.mp hs
    exact (config_load_from_db_view (hload id hid)).1
  have hlinks : cfg.profiles.map (wan_links cfg) = ids.map fun id =>
      rows_by (first_peer (ids.flatMap (wan_rows db))) (wan_rows db id) := by
    rw [merge_configs_links hfits hmerge, List.flatMap_map]
    refine Eq.trans (List.flatMap_congr fun id hid => ?_) List.map_eq_flatMap.symm
    obtain ⟨sp, hsp, -, hlinks⟩ := config_load_from_db_links (hload id hid)
    rw [hsp, List.map_singleton, hlinks _ _ (first_peer_loaded hload)
      fun row hrow => List.mem_flatMap.mpr ⟨id, hid, hrow⟩]
  obtain ⟨merged, hall, rfl⟩ := merge_configs_some hmerge
  have hempty : Sound {} := by
    refine ⟨?_, ?_, ?_, ?_, ?_⟩ <;> intro p hp <;> simp at hp
  obtain ⟨hsound, hviews⟩ := merges_views hempty hen hfits hall
  have hview : (merged_crypto merged).profiles.map (view (merged_crypto merged)) =
      merged.profiles.map (view merged) := by
    unfold merged_crypto
    split <;> rfl
  refine ⟨merged_crypto_sound hsound, hids, hnames.1, hnames.2, ?_, hlinks⟩
  rw [hview, hviews, List.map_nil, List.nil_append, List.flatMap_map, List.map_eq_flatMap]
  exact List.flatMap_congr fun id hid => (config_load_from_db_view (hload id hid)).2

/-! ## The profile of a LAN interface -/

/-- The first of the active profiles that has the LAN interface. -/
def profile_of (db : Db) (ids : List Int) (ifname : Bytes) : Option Int :=
  ids.find? fun id => (lan_rows db id).contains ifname

section

variable {db : Db} {ids : List Int} {cfg : AppConfig}

theorem HasRows.length (h : HasRows db ids cfg) : cfg.profiles.length = ids.length := by
  rw [← h.profile_ids, List.length_map]

/-- The profile at an index is that of the id there. -/
theorem HasRows.profile (h : HasRows db ids cfg) {k : Nat} {id : Int} (hk : ids[k]? = some id) :
    ∃ p, cfg.profiles[k]? = some p ∧
      view cfg p = ((lan_rows db id).filter lan_fits, (policy_rows db id).map without_id) ∧
      wan_links cfg p = rows_by (first_peer (ids.flatMap (wan_rows db))) (wan_rows db id) := by
  obtain ⟨hlt, -⟩ := List.getElem?_eq_some_iff.mp hk
  have hlt : k < cfg.profiles.length := h.length ▸ hlt
  have hp : cfg.profiles[k]? = some cfg.profiles[k] := List.getElem?_eq_getElem hlt
  have hview := congrArg (fun l => l[k]?) h.views
  have hlink := congrArg (fun l => l[k]?) h.links
  simp only [List.getElem?_map, hp, hk, Option.map_some, Option.some.injEq] at hview hlink
  exact ⟨_, hp, hview, hlink⟩

/-- The profile of a LAN entry is the first one whose rows have its name. -/
theorem HasRows.select_profile (h : HasRows db ids cfg) {i : Nat} {loc : LocalConfig}
    (hi : cfg.locals[i]? = some loc) : config_select_profile_for_local cfg i =
      ids.findIdx? fun id => (lan_rows db id).contains loc.ifname := by
  obtain ⟨hlt, rfl⟩ := List.getElem?_eq_some_iff.mp hi
  have hname : (lan_names cfg)[i]? = some cfg.locals[i].ifname := by
    unfold lan_names
    rw [List.getElem?_map, hi, Option.map_some]
  have hfits := h.fit _ (List.mem_of_getElem? hname)
  -- a profile has the index if it has the name
  have hhas : ∀ p ∈ cfg.profiles, (p.enabled && p.local_indices.contains i) =
      (view cfg p).1.contains cfg.locals[i].ifname := by
    intro p hp
    rw [h.enabled p hp, Bool.true_and, Bool.eq_iff_iff, List.contains_iff_mem,
      List.contains_iff_mem]
    exact (mem_reads_iff h.names hname p.local_indices).symm
  unfold config_select_profile_for_local
  rw [if_neg (Nat.not_le.mpr hlt), findIdx?_congr hhas]
  have hviews := congrArg (List.findIdx? fun v => v.1.contains cfg.locals[i].ifname) h.views
  rw [List.findIdx?_map, List.findIdx?_map] at hviews
  refine hviews.trans (findIdx?_congr fun id _ => ?_)
  rw [Function.comp_apply, Bool.eq_iff_iff, List.contains_iff_mem, List.contains_iff_mem,
    List.mem_filter]
  exact and_iff_left hfits

/-- A LAN entry has a profile of the rows and that has their policies and links, or it has none. -/
theorem HasRows.profile_of_local (h : HasRows db ids cfg) {i : Nat} {loc : LocalConfig}
    (hi : cfg.locals[i]? = some loc) :
    (profile_of db ids loc.ifname = none ∧ config_select_profile_for_local cfg i = none) ∨
    ∃ id k p, profile_of db ids loc.ifname = some id ∧ id ∈ ids ∧
      config_select_profile_for_local cfg i = some k ∧ cfg.profiles[k]? = some p ∧
      reads (cfg.policies.map without_id) p.policy_indices = (policy_rows db id).map without_id ∧
      wan_links cfg p = rows_by (first_peer (ids.flatMap (wan_rows db))) (wan_rows db id) := by
  unfold profile_of
  rw [h.select_profile hi, List.find?_eq_bind_findIdx?_getElem?]
  cases hk : ids.findIdx? fun id => (lan_rows db id).contains loc.ifname with
  | none => exact Or.inl ⟨rfl, rfl⟩
  | some k =>
    obtain ⟨hlt, -, -⟩ := List.findIdx?_eq_some_iff_getElem.mp hk
    have hid : ids[k]? = some ids[k] := List.getElem?_eq_getElem hlt
    obtain ⟨p, hp, hview, hlinks⟩ := h.profile hid
    exact Or.inr ⟨ids[k], k, p, hid, List.getElem_mem hlt, rfl, hp, (Prod.ext_iff.mp hview).2,
      hlinks⟩

end

end ne_ip.merged_rows
