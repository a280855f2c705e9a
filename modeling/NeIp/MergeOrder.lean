-- The order of a merge (build_merged_config, db_runtime.c): where the policies of each
-- profile stand afterwards, and that the profiles fit in one order when they fit in another.
import NeIp.DbRuntime
import NeIp.FirstCome

open byte_buf ne_ip.config ne_ip.db_runtime

namespace ne_ip.merge_order

/-- What a profile is loaded with. -/
def loaded (db : Db) (profile_id : Int) : AppConfig := (config_load_from_db db profile_id).getD {}

/-- The policies of some profiles, in the order of a merge. -/
def all_policies (db : Db) (ids : List Int) : List CryptoPolicy :=
  ids.flatMap fun id => (loaded db id).policies

theorem all_policies_cons (db : Db) (id : Int) (ids : List Int) :
    all_policies db (id :: ids) = (loaded db id).policies ++ all_policies db ids :=
  List.flatMap_cons

/-- The wire id of the policy that a profile has at the index `k`. -/
def wire_id_of (cfg : AppConfig) (profile_id : Int) (k : Nat) : Option Nat :=
  match cfg.profiles.find? (·.id == profile_id) with
  | none => none
  | some p => (p.policy_indices[k]?).bind fun pi => (cfg.policies[pi]?).map (·.id)

theorem loaded_eq {db : Db} {id : Int} {tmp : AppConfig} (h : config_load_from_db db id = some tmp) :
    loaded db id = tmp := by
  unfold loaded
  rw [h]
  rfl

/-! ## The wire ids are given out first come, first served -/

theorem wire_id_for_eq (dst : AppConfig) (wid : Nat) :
    wire_id_for dst wid = first_come.number 255 (dst.policies.map (·.id)) wid := by
  have hused : ∀ j, collect_used_wire_ids dst j = decide (j ∈ dst.policies.map (·.id)) := by
    intro j
    unfold collect_used_wire_ids
    rw [Bool.eq_iff_iff, List.any_eq_true, decide_eq_true_eq, List.mem_map]
    simp only [beq_iff_eq]
  unfold wire_id_for first_come.number
  simp only [hused, decide_eq_true_eq, decide_not]

theorem append_policy_unique_index {dst dst' : AppConfig} {cp : CryptoPolicy} {idx : Nat}
    (h : append_policy_unique dst cp = some (dst', idx)) : idx = dst.policies.length := by
  unfold append_policy_unique at h
  split at h
  · split at h
    · simp at h
    · exact (Prod.mk.inj (Option.some.inj h)).2.symm
  · simp at h

/-- The policies get their numbers one after the other, and the next indices. -/
theorem append_all_policies {cps : List CryptoPolicy} {dst dst' : AppConfig} {map : List Nat}
    (h : append_all append_policy_unique dst cps = some (dst', map)) :
    first_come.serve 255 (dst.policies.map (·.id)) (cps.map (·.id)) =
        some (dst'.policies.map (·.id)) ∧
      map = List.range' dst.policies.length cps.length ∧
      dst'.policies.length = dst.policies.length + cps.length := by
  induction cps generalizing dst map with
  | nil =>
    simp only [append_all, Option.some.injEq, Prod.mk.injEq] at h
    obtain ⟨rfl, rfl⟩ := h
    exact ⟨rfl, rfl, rfl⟩
  | cons cp cps ih =>
    obtain ⟨dst1, idx, map2, hone, hrest, rfl⟩ := append_all_cons_some h
    obtain rfl := append_policy_unique_index hone
    obtain ⟨wid, hle, hwid, rfl⟩ := append_policy_unique_some hone
    obtain ⟨hserve, hmap, hlen⟩ := ih hrest
    rw [wire_id_for_eq] at hwid
    dsimp only at hserve hmap hlen
    rw [List.length_append, List.length_singleton] at hmap hlen
    refine ⟨?_, ?_, ?_⟩
    · rw [List.map_cons]
      unfold first_come.serve
      rw [hwid]
      rw [List.map_append] at hserve
      exact hserve
    · rw [hmap]
      rfl
    · rw [hlen, List.length_cons]
      omega

theorem merge_one_config_policies {dst src dst' : AppConfig}
    (h : merge_one_config dst src = some dst') :
    first_come.serve 255 (dst.policies.map (·.id)) (src.policies.map (·.id)) =
        some (dst'.policies.map (·.id)) ∧
      dst'.policies.length = dst.policies.length + src.policies.length := by
  obtain ⟨dst1, dst2, dst3, lm, wm, pm, map, h1, h2, h3, h4⟩ := merge_one_config_some h
  obtain ⟨hserve, -, hlen⟩ := append_all_policies h3
  rw [(append_all_wan_frame h2).2.1, (append_all_local_frame h1).2.1] at hserve hlen
  rw [(append_all_profile_frame h4).2.2]
  exact ⟨hserve, hlen⟩

theorem merge_all_policies {db : Db} {ids : List Int} {dst dst' : AppConfig}
    (h : merge_all db dst ids = some dst') :
    first_come.serve 255 (dst.policies.map (·.id))
        ((all_policies db ids).map (·.id)) = some (dst'.policies.map (·.id)) ∧
      dst'.policies.length = dst.policies.length + (all_policies db ids).length := by
  induction ids generalizing dst with
  | nil =>
    obtain rfl := Option.some.inj h
    exact ⟨rfl, rfl⟩
  | cons id ids ih =>
    obtain ⟨tmp, dst1, hload, hone, h⟩ := merge_all_cons_some h
    obtain ⟨hserve, hlen⟩ := merge_one_config_policies hone
    obtain ⟨hserve', hlen'⟩ := ih h
    rw [all_policies_cons, loaded_eq hload]
    refine ⟨?_, ?_⟩
    · rw [List.map_append, first_come.serve_append, hserve]
      exact hserve'
    · rw [hlen', hlen, List.length_append]
      omega

/-! ## Where the policies of a profile stand -/

/-- A profile is loaded with one entry, whose policies are all that there are. -/
theorem config_load_from_db_profile {db : Db} {id : Int} {tmp : AppConfig}
    (h : config_load_from_db db id = some tmp) :
    ∃ sp, tmp.profiles = [sp] ∧ sp.id = id ∧
      sp.policy_indices = List.range tmp.policies.length := by
  obtain ⟨rows, _, _, _, cfg2, -, -, -, -, hpol, -⟩ := config_load_from_db_some h
  unfold load_profiles_and_policies at hpol
  split at hpol
  · simp at hpol
  · rw [← Option.some.inj hpol]
    exact ⟨_, rfl, rfl, rfl⟩

theorem filterMap_range (map : List Nat) (n : Nat) :
    (List.range n).filterMap (map[·]?) = map.take n := by
  induction n with
  | zero => rfl
  | succ n ih =>
    rw [List.range_succ, List.filterMap_append, ih, List.take_add_one]
    cases h : map[n]? <;> simp [h]

/-- The indices of a profile with all the policies are those that the merge gave them. -/
theorem map_indices_all {map : List Nat} {n : Nat} (h : map.length ≤ n) :
    map_indices map n (List.range map.length) = map := by
  unfold map_indices
  rw [filterMap_range, List.take_length, List.take_of_length_le h]

theorem merge_one_config_profile {dst src dst' : AppConfig} {sp : ProfileConfig}
    (h : merge_one_config dst src = some dst') (hsrc : src.profiles = [sp])
    (hidx : sp.policy_indices = List.range src.policies.length) :
    ∃ dp, dst'.profiles = dst.profiles ++ [dp] ∧ dp.id = sp.id ∧
      dp.policy_indices = List.range' dst.policies.length src.policies.length := by
  obtain ⟨dst1, dst2, dst3, lm, wm, pm, map, h1, h2, h3, h4⟩ := merge_one_config_some h
  obtain ⟨-, hmap, -⟩ := append_all_policies h3
  rw [(append_all_wan_frame h2).2.1, (append_all_local_frame h1).2.1] at hmap
  rw [hsrc] at h4
  obtain ⟨dst4, idx, map', hone, hrest, -⟩ := append_all_cons_some h4
  obtain ⟨rfl, -⟩ := Prod.mk.inj (Option.some.inj hrest)
  have hlen : pm.length = src.policies.length := by rw [hmap, List.length_range']
  have hpm : map_indices pm MAX_CRYPTO_POLICIES sp.policy_indices = pm := by
    rw [hidx, ← hlen, map_indices_all (hlen ▸ src.policies_le)]
  unfold append_profile at hone
  split at hone
  · rw [← (Prod.mk.inj (Option.some.inj hone)).1, ← (append_all_local_frame h1).2.2,
      ← (append_all_wan_frame h2).2.2, ← (append_all_policy_frame h3).2.2]
    exact ⟨_, rfl, rfl, hpm.trans hmap⟩
  · simp at hone

/-- Entries that have been merged stay where they are. -/
theorem merge_all_prefix {db : Db} {ids : List Int} {dst dst' : AppConfig}
    (h : merge_all db dst ids = some dst') :
    dst.profiles <+: dst'.profiles ∧
      dst.policies.map (·.id) <+: dst'.policies.map (·.id) := by
  refine ⟨?_, ?_⟩
  · refine merge_all_keeps (P := fun c => dst.profiles <+: c.profiles) ?_ List.prefix_rfl h
    intro id _ tmp d d' hload hd hmerge
    obtain ⟨sp, hsp, -, hidx⟩ := config_load_from_db_profile hload
    obtain ⟨dp, hdp, -, -⟩ := merge_one_config_profile hmerge hsp hidx
    rw [hdp]
    exact hd.trans (List.prefix_append _ _)
  · obtain ⟨given, hgiven, -⟩ := first_come.serve_prefix (merge_all_policies h).1
    exact ⟨given, hgiven.symm⟩

theorem merge_all_append {db : Db} {pre post : List Int} {dst : AppConfig} :
    merge_all db dst (pre ++ post) = (merge_all db dst pre).bind fun m => merge_all db m post := by
  induction pre generalizing dst with
  | nil => rfl
  | cons id pre ih =>
    simp only [List.cons_append, merge_all]
    split
    · rfl
    split
    · rfl
    · exact ih

/-- A policy gets the number that is given to it after the policies of the profiles before its
own and those before it in its own. -/
theorem wire_id_of_merged {db : Db} {pre post : List Int} {a : Int} {cfg : AppConfig} {k : Nat}
    {cp : CryptoPolicy} (hids : (pre ++ a :: post).Nodup)
    (h : build_merged_config db (pre ++ a :: post) = some cfg)
    (hk : (loaded db a).policies[k]? = some cp) :
    ∃ used r,
      first_come.serve 255 [] ((all_policies db pre ++
        (loaded db a).policies.take k).map (·.id)) = some used ∧
      first_come.number 255 used cp.id = some r ∧ wire_id_of cfg a k = some r := by
  obtain ⟨merged, hall, rfl⟩ := build_merged_config_some h
  rw [merge_all_append] at hall
  obtain ⟨m1, hpre, hall⟩ := Option.bind_eq_some_iff.mp hall
  obtain ⟨tmp, m2, hload, hone, hall⟩ := merge_all_cons_some hall
  rw [loaded_eq hload] at hk ⊢
  obtain ⟨hserve, hlen⟩ := merge_all_policies hpre
  obtain ⟨hserve2, -⟩ := merge_one_config_policies hone
  obtain ⟨sp, hsp, hspid, hidx⟩ := config_load_from_db_profile hload
  obtain ⟨dp, hdp, hdpid, hpi⟩ := merge_one_config_profile hone hsp hidx
  obtain ⟨⟨later, hlater⟩, ⟨more, hmore⟩⟩ := merge_all_prefix hall
  obtain ⟨hkl, hcp⟩ := List.getElem?_eq_some_iff.mp hk
  -- the loop over the profile's policies, up to the one at the index
  have hsplit : tmp.policies.map (·.id) =
      (tmp.policies.take k).map (·.id) ++ cp.id :: (tmp.policies.drop (k + 1)).map (·.id) := by
    rw [← List.map_cons, ← List.map_append, ← hcp, List.getElem_cons_drop, List.take_append_drop]
  rw [hsplit, first_come.serve_append] at hserve2
  obtain ⟨used, hused, hrest⟩ := Option.bind_eq_some_iff.mp hserve2
  unfold first_come.serve at hrest
  split at hrest
  · simp at hrest
  rename_i r hr
  obtain ⟨given, hgiven, hglen⟩ := first_come.serve_prefix hused
  obtain ⟨rest, hrest, -⟩ := first_come.serve_prefix hrest
  refine ⟨used, r, ?_, hr, ?_⟩
  · rw [List.map_append, first_come.serve_append]
    dsimp only at hserve
    rw [show ({} : AppConfig).policies.map (·.id) = [] from rfl] at hserve
    rw [hserve]
    exact hused
  · have hfind : (merged_crypto merged).profiles.find? (·.id == a) = some dp := by
      rw [(merged_crypto_fields merged).2.2.1, ← hlater, hdp, List.append_assoc, List.find?_append]
      have hnone : m1.profiles.find? (·.id == a) = none := by
        rw [List.find?_eq_none]
        intro p hp he
        have hmem : p.id ∈ m1.profiles.map (·.id) := List.mem_map_of_mem hp
        rw [merge_all_profiles hpre, beq_iff_eq.mp he] at hmem
        have hdisj := (List.nodup_append.mp hids).2.2
        exact hdisj a (by simpa using hmem) a List.mem_cons_self rfl
      rw [hnone, Option.none_or, List.singleton_append, List.find?_cons_of_pos]
      rw [hdpid, hspid]
      exact beq_self_eq_true a
    have hused_len : used.length = m1.policies.length + k := by
      rw [hgiven, List.length_append, List.length_map, hglen, List.length_map, List.length_take,
        Nat.min_eq_left (Nat.le_of_lt hkl)]
    have hat : (merged.policies.map (·.id))[m1.policies.length + k]? = some r := by
      rw [← hmore, hrest, List.append_assoc, List.append_assoc,
        List.getElem?_append_right (by omega), hused_len, Nat.sub_self]
      rfl
    unfold wire_id_of
    rw [hfind]
    dsimp only
    rw [hpi, List.getElem?_range' hkl, (merged_crypto_fields merged).2.1, Option.bind_some,
      Nat.one_mul, ← List.getElem?_map]
    exact hat

/-! ## Interfaces are merged by name -/

def lan_names (cfg : AppConfig) : List Bytes := cfg.locals.map (·.ifname)

def wan_names (cfg : AppConfig) : List Bytes := cfg.wans.map (·.ifname)

/-- An append that adds an entry under a new name, as long as there is room. -/
structure ByName {α : Type} (append : AppConfig → α → Option (AppConfig × Nat))
    (names : AppConfig → List Bytes) (name : α → Bytes) : Prop where
  known : ∀ dst a, name a ∈ names dst → ∃ idx, append dst a = some (dst, idx)
  fresh : ∀ dst a, name a ∉ names dst → (names dst).length < MAX_INTERFACES →
    ∃ dst' idx, append dst a = some (dst', idx) ∧ names dst' = names dst ++ [name a]
  full : ∀ dst a, name a ∉ names dst → ¬(names dst).length < MAX_INTERFACES → append dst a = none

/-- An append that looks for the name first, and adds the entry where there is room. -/
theorem ByName.of_find {α : Type} {append : AppConfig → α → Option (AppConfig × Nat)}
    {items : AppConfig → List α} {name : α → Bytes}
    (add : (dst : AppConfig) → α → (items dst).length < MAX_INTERFACES → AppConfig)
    (hadd : ∀ dst a h, items (add dst a h) = items dst ++ [a])
    (happend : ∀ dst a, append dst a =
      match (items dst).findIdx? (name · == name a) with
      | some idx => some (dst, idx)
      | none => if h : (items dst).length < MAX_INTERFACES then
          some (add dst a h, (items dst).length) else none) :
    ByName append (fun cfg => (items cfg).map name) name := by
  have hfind : ∀ dst a,
      (items dst).findIdx? (name · == name a) = none ↔ name a ∉ (items dst).map name := by
    intro dst a
    simp [List.findIdx?_eq_none_iff]
  refine ⟨fun dst a h => ?_, fun dst a h hlt => ?_, fun dst a h hfull => ?_⟩
  · rw [happend]
    cases hf : (items dst).findIdx? (name · == name a) with
    | some idx => exact ⟨idx, rfl⟩
    | none => exact absurd h ((hfind dst a).mp hf)
  · rw [List.length_map] at hlt
    rw [happend, (hfind dst a).mpr h]
    dsimp only
    rw [dif_pos hlt]
    refine ⟨_, _, rfl, ?_⟩
    rw [hadd]
    exact List.map_append
  · rw [List.length_map] at hfull
    rw [happend, (hfind dst a).mpr h]
    dsimp only
    rw [dif_neg hfull]

theorem append_local_unique_byName : ByName append_local_unique lan_names (·.ifname) :=
  ByName.of_find (fun dst l h =>
    { dst with
      locals := dst.locals ++ [l]
      locals_le := by rw [List.length_append]; exact h })
    (fun _ _ _ => rfl) (fun _ _ => rfl)

theorem append_wan_unique_byName : ByName append_wan_unique wan_names (·.ifname) :=
  ByName.of_find (fun dst w h =>
    { dst with
      wans := dst.wans ++ [w]
      wans_le := by rw [List.length_append]; exact h })
    (fun _ _ _ => rfl) (fun _ _ => rfl)

section ByName

variable {α : Type} {append : AppConfig → α → Option (AppConfig × Nat)}
  {names : AppConfig → List Bytes} {name : α → Bytes}

/-- The names afterwards: those that were there and the new ones, each once. -/
theorem ByName.append_all_names (h : ByName append names name) {as : List α}
    {dst dst' : AppConfig} {map : List Nat} (hnd : (names dst).Nodup)
    (hall : append_all append dst as = some (dst', map)) :
    (names dst').Nodup ∧ (names dst').toFinset = (names dst ++ as.map name).toFinset := by
  induction as generalizing dst map with
  | nil =>
    simp only [append_all, Option.some.injEq, Prod.mk.injEq] at hall
    rw [← hall.1, List.map_nil, List.append_nil]
    exact ⟨hnd, rfl⟩
  | cons a as ih =>
    obtain ⟨dst1, idx, map2, hone, hrest, -⟩ := append_all_cons_some hall
    by_cases hin : name a ∈ names dst
    · obtain ⟨idx', hk⟩ := h.known dst a hin
      obtain ⟨rfl, -⟩ := Prod.mk.inj (Option.some.inj (hone.symm.trans hk))
      obtain ⟨hnd', hset⟩ := ih hnd hrest
      refine ⟨hnd', hset.trans ?_⟩
      ext x
      simp only [List.toFinset_append, List.map_cons, List.toFinset_cons, Finset.mem_union,
        Finset.mem_insert, List.mem_toFinset]
      constructor
      · tauto
      · rintro (hx | rfl | hx)
        · exact Or.inl hx
        · exact Or.inl hin
        · exact Or.inr hx
    · by_cases hlt : (names dst).length < MAX_INTERFACES
      · obtain ⟨dst3, idx', hf, hnames⟩ := h.fresh dst a hin hlt
        obtain ⟨rfl, -⟩ := Prod.mk.inj (Option.some.inj (hone.symm.trans hf))
        have hnd1 : (names dst1).Nodup := by
          rw [hnames, ← List.concat_eq_append]
          exact List.Nodup.concat hin hnd
        obtain ⟨hnd', hset⟩ := ih hnd1 hrest
        refine ⟨hnd', ?_⟩
        rw [hset, hnames, List.map_cons, List.append_assoc]
        rfl
      · rw [h.full dst a hin hlt] at hone
        simp at hone

/-- Entries that fit by their names are all appended. -/
theorem ByName.append_all_isSome (h : ByName append names name) {as : List α} {dst : AppConfig}
    (hnd : (names dst).Nodup)
    (hfit : (names dst ++ as.map name).toFinset.card ≤ MAX_INTERFACES) :
    ∃ r, append_all append dst as = some r := by
  induction as generalizing dst with
  | nil => exact ⟨_, rfl⟩
  | cons a as ih =>
    have hone : ∃ dst' idx, append dst a = some (dst', idx) ∧ (names dst').Nodup ∧
        (names dst' ++ as.map name).toFinset.card ≤ MAX_INTERFACES := by
      by_cases hin : name a ∈ names dst
      · obtain ⟨idx, hk⟩ := h.known dst a hin
        refine ⟨dst, idx, hk, hnd, (Finset.card_le_card fun x hx => ?_).trans hfit⟩
        simp only [List.toFinset_append, List.map_cons, List.toFinset_cons, Finset.mem_union,
          Finset.mem_insert] at hx ⊢
        tauto
      · have hnew : (names dst ++ [name a]).Nodup := by
          rw [← List.concat_eq_append]
          exact List.Nodup.concat hin hnd
        have hlt : (names dst ++ [name a]).length ≤ MAX_INTERFACES := by
          rw [← List.toFinset_card_of_nodup hnew]
          refine (Finset.card_le_card fun x hx => ?_).trans hfit
          simp only [List.mem_toFinset, List.mem_append, List.map_cons, List.mem_cons] at hx ⊢
          tauto
        rw [List.length_append] at hlt
        obtain ⟨dst', idx, hf, hnames⟩ := h.fresh dst a hin hlt
        refine ⟨dst', idx, hf, hnames ▸ hnew, ?_⟩
        rw [hnames, List.append_assoc]
        exact hfit
    obtain ⟨dst', idx, happ, hnd', hfit'⟩ := hone
    obtain ⟨⟨dst2, map⟩, hrest⟩ := ih hnd' hfit'
    simp only [append_all, happ, hrest]
    exact ⟨_, rfl⟩

end ByName

/-! ## What fits in one order fits in every order -/

/-- The names of the interfaces are distinct. -/
structure DistinctNames (cfg : AppConfig) : Prop where
  lans : (lan_names cfg).Nodup
  wans : (wan_names cfg).Nodup

/-- There is room for these interfaces and so many policies and profiles. -/
structure Room (dst : AppConfig) (lans wans : List Bytes) (policies profiles : Nat) : Prop where
  lans : (lan_names dst ++ lans).toFinset.card ≤ MAX_INTERFACES
  wans : (wan_names dst ++ wans).toFinset.card ≤ MAX_INTERFACES
  policies : dst.policies.length + policies ≤ MAX_CRYPTO_POLICIES
  profiles : dst.profiles.length + profiles ≤ MAX_PROFILES

/-- The interfaces, policies and profiles afterwards. -/
theorem merge_one_config_names {dst src dst' : AppConfig} (hd : DistinctNames dst)
    (h : merge_one_config dst src = some dst') :
    DistinctNames dst' ∧ (lan_names dst').toFinset = (lan_names dst ++ lan_names src).toFinset ∧
      (wan_names dst').toFinset = (wan_names dst ++ wan_names src).toFinset := by
  obtain ⟨dst1, dst2, dst3, lm, wm, pm, map, h1, h2, h3, h4⟩ := merge_one_config_some h
  obtain ⟨hl, hlset⟩ := append_local_unique_byName.append_all_names hd.lans h1
  have hw1 : wan_names dst1 = wan_names dst := by
    unfold wan_names
    rw [(append_all_local_frame h1).1]
  obtain ⟨hw, hwset⟩ := append_wan_unique_byName.append_all_names (hw1 ▸ hd.wans) h2
  have hlans : lan_names dst' = lan_names dst1 := by
    unfold lan_names
    rw [(append_all_profile_frame h4).1, (append_all_policy_frame h3).1,
      (append_all_wan_frame h2).1]
  have hwans : wan_names dst' = wan_names dst2 := by
    unfold wan_names
    rw [(append_all_profile_frame h4).2.1, (append_all_policy_frame h3).2.1]
  rw [hw1] at hwset
  exact ⟨⟨hlans ▸ hl, hwans ▸ hw⟩, hlans ▸ hlset, hwans ▸ hwset⟩

theorem append_all_policies_isSome {cps : List CryptoPolicy} {dst : AppConfig}
    (hfit : dst.policies.length + cps.length ≤ MAX_CRYPTO_POLICIES) :
    ∃ r, append_all append_policy_unique dst cps = some r := by
  induction cps generalizing dst with
  | nil => exact ⟨_, rfl⟩
  | cons cp cps ih =>
    rw [List.length_cons] at hfit
    obtain ⟨⟨dst1, idx⟩, hone⟩ :=
      Option.isSome_iff_exists.mp ((append_policy_unique_isSome dst cp).mpr (by omega))
    have hlen : dst1.policies.length = dst.policies.length + 1 := by
      obtain ⟨wid, hle, -, rfl⟩ := append_policy_unique_some hone
      exact List.length_append
    have hfit1 : dst1.policies.length + cps.length ≤ MAX_CRYPTO_POLICIES := by omega
    obtain ⟨r, hrest⟩ := ih hfit1
    simp only [append_all, hone, hrest]
    exact ⟨_, rfl⟩

theorem append_all_profiles_isSome {lm wm pm : List Nat} {sps : List ProfileConfig}
    {dst : AppConfig} (hfit : dst.profiles.length + sps.length ≤ MAX_PROFILES) :
    ∃ r, append_all (append_profile lm wm pm) dst sps = some r := by
  induction sps generalizing dst with
  | nil => exact ⟨_, rfl⟩
  | cons sp sps ih =>
    rw [List.length_cons] at hfit
    have hone : ∃ dst' idx, append_profile lm wm pm dst sp = some (dst', idx) := by
      unfold append_profile
      rw [dif_pos (by omega)]
      exact ⟨_, _, rfl⟩
    obtain ⟨dst1, idx, hone⟩ := hone
    have hlen : dst1.profiles.length = dst.profiles.length + 1 := by
      obtain ⟨dp, hle, -, rfl⟩ := append_profile_some hone
      exact List.length_append
    have hfit1 : dst1.profiles.length + sps.length ≤ MAX_PROFILES := by omega
    obtain ⟨r, hrest⟩ := ih hfit1
    simp only [append_all, hone, hrest]
    exact ⟨_, rfl⟩

theorem merge_one_config_isSome {dst src : AppConfig} (hd : DistinctNames dst)
    (hroom : Room dst (lan_names src) (wan_names src) src.policies.length src.profiles.length) :
    ∃ dst', merge_one_config dst src = some dst' := by
  obtain ⟨⟨dst1, lm⟩, h1⟩ := append_local_unique_byName.append_all_isSome hd.lans hroom.lans
  obtain ⟨hwans1, hpol1, hprof1⟩ := append_all_local_frame h1
  have hw1 : wan_names dst1 = wan_names dst := by
    unfold wan_names
    rw [hwans1]
  have h2 : ∃ r, append_all append_wan_unique dst1 src.wans = some r :=
    append_wan_unique_byName.append_all_isSome (hw1 ▸ hd.wans) (hw1 ▸ hroom.wans)
  obtain ⟨⟨dst2, wm⟩, h2⟩ := h2
  obtain ⟨-, hpol2, hprof2⟩ := append_all_wan_frame h2
  have h3 : ∃ r, append_all append_policy_unique dst2 src.policies = some r := by
    refine append_all_policies_isSome ?_
    rw [hpol2, hpol1]
    exact hroom.policies
  obtain ⟨⟨dst3, pm⟩, h3⟩ := h3
  obtain ⟨-, -, hprof3⟩ := append_all_policy_frame h3
  have h4 : ∃ r, append_all (append_profile lm wm pm) dst3 src.profiles = some r := by
    refine append_all_profiles_isSome ?_
    rw [hprof3, hprof2, hprof1]
    exact hroom.profiles
  obtain ⟨⟨dst4, map⟩, h4⟩ := h4
  unfold merge_one_config
  simp only [h1, h2, h3, h4]
  exact ⟨_, rfl⟩

/-- The names of their interfaces. -/
def all_lans (db : Db) (ids : List Int) : List Bytes := ids.flatMap fun id => lan_names (loaded db id)

def all_wans (db : Db) (ids : List Int) : List Bytes := ids.flatMap fun id => wan_names (loaded db id)

/-- Every profile can be loaded, and all of them fit into the arrays. -/
structure Fits (db : Db) (ids : List Int) : Prop where
  loads : ∀ id ∈ ids, (config_load_from_db db id).isSome
  room : Room {} (all_lans db ids) (all_wans db ids) (all_policies db ids).length ids.length

/-- What was merged is in the result. -/
theorem merge_all_names {db : Db} {ids : List Int} {dst dst' : AppConfig} (hd : DistinctNames dst)
    (h : merge_all db dst ids = some dst') :
    DistinctNames dst' ∧ (∀ id ∈ ids, (config_load_from_db db id).isSome) ∧
      (lan_names dst').toFinset = (lan_names dst ++ all_lans db ids).toFinset ∧
      (wan_names dst').toFinset = (wan_names dst ++ all_wans db ids).toFinset := by
  induction ids generalizing dst with
  | nil =>
    obtain rfl := Option.some.inj h
    refine ⟨hd, by simp, ?_, ?_⟩ <;> simp [all_lans, all_wans]
  | cons id ids ih =>
    obtain ⟨tmp, dst1, hload, hone, h⟩ := merge_all_cons_some h
    obtain ⟨hd1, hlan1, hwan1⟩ := merge_one_config_names hd hone
    obtain ⟨hd', hloads, hlan, hwan⟩ := ih hd1 h
    have htmp := loaded_eq hload
    refine ⟨hd', ?_, ?_, ?_⟩
    · intro i hi
      rcases List.mem_cons.mp hi with rfl | hi
      · rw [hload]
        rfl
      · exact hloads i hi
    · rw [hlan, List.toFinset_append, hlan1, all_lans, all_lans, List.flatMap_cons, htmp,
        ← List.toFinset_append, List.append_assoc]
    · rw [hwan, List.toFinset_append, hwan1, all_wans, all_wans, List.flatMap_cons, htmp,
        ← List.toFinset_append, List.append_assoc]

theorem merge_all_isSome {db : Db} {ids : List Int} {dst : AppConfig} (hd : DistinctNames dst)
    (hloads : ∀ id ∈ ids, (config_load_from_db db id).isSome)
    (hroom : Room dst (all_lans db ids) (all_wans db ids) (all_policies db ids).length ids.length) :
    ∃ dst', merge_all db dst ids = some dst' := by
  induction ids generalizing dst with
  | nil => exact ⟨dst, rfl⟩
  | cons id ids ih =>
    obtain ⟨tmp, hload⟩ := Option.isSome_iff_exists.mp (hloads id List.mem_cons_self)
    have htmp := loaded_eq hload
    obtain ⟨sp, hsp, -, -⟩ := config_load_from_db_profile hload
    have hlans : all_lans db (id :: ids) = lan_names tmp ++ all_lans db ids := by
      rw [all_lans, List.flatMap_cons, htmp]
      rfl
    have hwans : all_wans db (id :: ids) = wan_names tmp ++ all_wans db ids := by
      rw [all_wans, List.flatMap_cons, htmp]
      rfl
    have hpols : all_policies db (id :: ids) = tmp.policies ++ all_policies db ids := by
      rw [all_policies_cons, htmp]
    rw [hlans, hwans, hpols, List.length_append, List.length_cons] at hroom
    have hnow : Room dst (lan_names tmp) (wan_names tmp) tmp.policies.length
        tmp.profiles.length := by
      refine ⟨?_, ?_, ?_, ?_⟩
      · refine (Finset.card_le_card fun x hx => ?_).trans hroom.lans
        rw [← List.append_assoc, List.toFinset_append]
        exact Finset.mem_union_left _ hx
      · refine (Finset.card_le_card fun x hx => ?_).trans hroom.wans
        rw [← List.append_assoc, List.toFinset_append]
        exact Finset.mem_union_left _ hx
      · have := hroom.policies
        omega
      · have := hroom.profiles
        rw [hsp, List.length_singleton]
        omega
    obtain ⟨dst1, hone⟩ := merge_one_config_isSome hd hnow
    obtain ⟨hd1, hlan1, hwan1⟩ := merge_one_config_names hd hone
    have hprof : dst1.profiles.length = dst.profiles.length + 1 := by
      have hids := congrArg List.length (merge_one_config_profiles hone)
      simpa [hsp] using hids
    have hlater : Room dst1 (all_lans db ids) (all_wans db ids) (all_policies db ids).length
        ids.length := by
      refine ⟨?_, ?_, ?_, ?_⟩
      · rw [List.toFinset_append, hlan1, ← List.toFinset_append, List.append_assoc]
        exact hroom.lans
      · rw [List.toFinset_append, hwan1, ← List.toFinset_append, List.append_assoc]
        exact hroom.wans
      · rw [(merge_one_config_policies hone).2, Nat.add_assoc]
        exact hroom.policies
      · have := hroom.profiles
        omega
    obtain ⟨dst', hall⟩ := ih hd1 (fun i hi => hloads i (List.mem_cons_of_mem id hi)) hlater
    exact ⟨dst', by simp only [merge_all, hload, hone, hall]⟩

/-! ## What is merged validates -/

theorem config_load_from_db_validates {db : Db} {id : Int} {tmp : AppConfig}
    (h : config_load_from_db db id = some tmp) : config_validate tmp = true := by
  obtain ⟨_, _, _, _, _, -, -, -, -, -, hvalid⟩ := config_load_from_db_some h
  exact hvalid

theorem config_validate_iff {cfg : AppConfig} : config_validate cfg = true ↔
    cfg.global_frame_size ≠ 0 ∧ cfg.global_batch_size ≠ 0 ∧
      (∀ l ∈ cfg.locals, local_ok l = true) ∧ ∀ w ∈ cfg.wans, wan_ok w = true := by
  unfold config_validate
  simp only [Bool.and_eq_true, bne_iff_ne, List.all_eq_true, and_assoc]

theorem merge_one_config_validates {dst src dst' : AppConfig} (hdst : config_validate dst = true)
    (hsrc : config_validate src = true) (h : merge_one_config dst src = some dst') :
    config_validate dst' = true := by
  obtain ⟨dst1, dst2, dst3, lm, wm, pm, map, h1, h2, h3, h4⟩ := merge_one_config_some h
  obtain ⟨-, -, hlocals, hwans⟩ := config_validate_iff.mp hsrc
  have hv1 : config_validate dst1 = true := by
    refine append_all_keeps (P := fun c => config_validate c = true) ?_ hdst h1
    intro l hl d d' idx hd happ
    rcases append_local_unique_some happ with rfl | ⟨hle, rfl⟩
    · exact hd
    · obtain ⟨hf, hb, hls, hws⟩ := config_validate_iff.mp hd
      refine config_validate_iff.mpr ⟨hf, hb, fun l' hl' => ?_, hws⟩
      rcases List.mem_append.mp hl' with hl' | hl'
      · exact hls l' hl'
      · rw [List.mem_singleton.mp hl']
        exact hlocals l hl
  have hv2 : config_validate dst2 = true := by
    refine append_all_keeps (P := fun c => config_validate c = true) ?_ hv1 h2
    intro w hw d d' idx hd happ
    rcases append_wan_unique_some happ with rfl | ⟨hle, rfl⟩
    · exact hd
    · obtain ⟨hf, hb, hls, hws⟩ := config_validate_iff.mp hd
      refine config_validate_iff.mpr ⟨hf, hb, hls, fun w' hw' => ?_⟩
      rcases List.mem_append.mp hw' with hw' | hw'
      · exact hws w' hw'
      · rw [List.mem_singleton.mp hw']
        exact hwans w hw
  have hv3 : config_validate dst3 = true := by
    refine append_all_keeps (P := fun c => config_validate c = true) ?_ hv2 h3
    intro cp _ d d' idx hd happ
    obtain ⟨wid, hle, -, rfl⟩ := append_policy_unique_some happ
    exact hd
  refine append_all_keeps (P := fun c => config_validate c = true) ?_ hv3 h4
  intro sp _ d d' idx hd happ
  obtain ⟨dp, hle, -, rfl⟩ := append_profile_some happ
  exact hd

theorem merge_all_validates {db : Db} {ids : List Int} {merged : AppConfig}
    (h : merge_all db {} ids = some merged) : config_validate (merged_crypto merged) = true := by
  have hmerged : config_validate merged = true :=
    merge_all_keeps (P := fun c => config_validate c = true)
      (fun id _ tmp d d' hload hd hmerge =>
        merge_one_config_validates hd (config_load_from_db_validates hload) hmerge)
      (by decide) h
  have hsame : config_validate (merged_crypto merged) = config_validate merged := by
    unfold merged_crypto
    split <;> rfl
  rw [hsame]
  exact hmerged

/-! ## The order does not decide whether there is a configuration -/

theorem build_merged_config_isSome_iff {db : Db} {ids : List Int} :
    (build_merged_config db ids).isSome ↔ Fits db ids := by
  have hempty : DistinctNames {} := ⟨List.nodup_nil, List.nodup_nil⟩
  constructor
  · intro h
    obtain ⟨cfg, hcfg⟩ := Option.isSome_iff_exists.mp h
    obtain ⟨merged, hall, -⟩ := build_merged_config_some hcfg
    obtain ⟨hd, hloads, hlan, hwan⟩ := merge_all_names hempty hall
    refine ⟨hloads, ?_, ?_, ?_, ?_⟩
    · rw [← hlan, List.toFinset_card_of_nodup hd.lans, lan_names, List.length_map]
      exact merged.locals_le
    · rw [← hwan, List.toFinset_card_of_nodup hd.wans, wan_names, List.length_map]
      exact merged.wans_le
    · rw [← (merge_all_policies hall).2]
      exact merged.policies_le
    · have hids := congrArg List.length (merge_all_profiles hall)
      rw [List.length_map, List.length_append, List.length_map] at hids
      rw [← hids]
      exact merged.profiles_le
  · intro h
    obtain ⟨merged, hall⟩ := merge_all_isSome hempty h.loads h.room
    unfold build_merged_config
    simp only [hall, merge_all_validates hall, if_true]
    rfl

theorem Fits.sublist {db : Db} {ids ids' : List Int} (h : Fits db ids) (hsub : ids'.Sublist ids) :
    Fits db ids' := by
  have hlans : (all_lans db ids').Sublist (all_lans db ids) := hsub.flatMap _
  have hwans : (all_wans db ids').Sublist (all_wans db ids) := hsub.flatMap _
  have hpols : (all_policies db ids').Sublist (all_policies db ids) := hsub.flatMap _
  refine ⟨fun id hid => h.loads id (hsub.subset hid), ?_, ?_, ?_, ?_⟩
  · refine (Finset.card_le_card fun x hx => ?_).trans h.room.lans
    rw [List.mem_toFinset] at hx ⊢
    exact (hlans.append_left _).subset hx
  · refine (Finset.card_le_card fun x hx => ?_).trans h.room.wans
    rw [List.mem_toFinset] at hx ⊢
    exact (hwans.append_left _).subset hx
  · exact (Nat.add_le_add_left hpols.length_le _).trans h.room.policies
  · exact (Nat.add_le_add_left hsub.length_le _).trans h.room.profiles

theorem Fits.perm {db : Db} {ids ids' : List Int} (h : Fits db ids) (hperm : ids'.Perm ids) :
    Fits db ids' := by
  have hlans : (all_lans db ids').Perm (all_lans db ids) := hperm.flatMap_right _
  have hwans : (all_wans db ids').Perm (all_wans db ids) := hperm.flatMap_right _
  have hpols : (all_policies db ids').Perm (all_policies db ids) := hperm.flatMap_right _
  refine ⟨fun id hid => h.loads id (hperm.mem_iff.mp hid), ?_, ?_, ?_, ?_⟩
  · rw [List.toFinset_eq_of_perm _ _ (hlans.append_left _)]
    exact h.room.lans
  · rw [List.toFinset_eq_of_perm _ _ (hwans.append_left _)]
    exact h.room.wans
  · rw [hpols.length_eq]
    exact h.room.policies
  · rw [hperm.length_eq]
    exact h.room.profiles

/-- Profiles that can be merged in one order can be merged in every order. -/
theorem build_merged_config_perm {db : Db} {ids ids' : List Int} {cfg : AppConfig}
    (h : build_merged_config db ids = some cfg) (hperm : ids'.Perm ids) :
    ∃ cfg', build_merged_config db ids' = some cfg' := by
  have hfits := build_merged_config_isSome_iff.mp (Option.isSome_iff_exists.mpr ⟨cfg, h⟩)
  exact Option.isSome_iff_exists.mp (build_merged_config_isSome_iff.mpr (hfits.perm hperm))

end ne_ip.merge_order
