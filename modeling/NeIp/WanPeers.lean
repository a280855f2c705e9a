-- The peers of the WAN links over a load and a merge (db_config.c, db_runtime.c): an entry
-- is found by the name of its interface alone, so the first entry of a name decides.
import NeIp.MergeSources

open byte_buf index_list ne_ip.config ne_ip.db_runtime ne_ip.merge_order ne_ip.merge_sources

namespace ne_ip.wan_peers

/-- The links of a profile: the interface, the peer's `dst_ip` and the weight. -/
def wan_links (cfg : AppConfig) (p : ProfileConfig) : List (Bytes × UInt32 × Int) :=
  (p.wan_indices.zip p.wan_bandwidth_weight).filterMap fun w =>
    (cfg.wans[w.1]?).map fun wan => (wan.ifname, wan.dst_ip, w.2)

/-- The entry that a lookup by name finds. -/
def first_named (wans : List WanConfig) (ifname : Bytes) : Option WanConfig :=
  wans.find? (·.ifname == ifname)

/-- The links of a profile when each entry gives way to the first one of its name. -/
def first_links (wans : List WanConfig) (src : AppConfig) (sp : ProfileConfig) :
    List (Bytes × UInt32 × Int) :=
  (sp.wan_indices.zip sp.wan_bandwidth_weight).filterMap fun w =>
    (src.wans[w.1]?).bind fun wan =>
      (first_named wans wan.ifname).map fun first => (first.ifname, first.dst_ip, w.2)

/-! ## Lookups by name -/

theorem first_named_index (wans : List WanConfig) (ifname : Bytes) :
    first_named wans ifname = (wans.findIdx? (·.ifname == ifname)).bind (wans[·]?) :=
  List.find?_eq_bind_findIdx?_getElem?

theorem first_named_append (ws vs : List WanConfig) (ifname : Bytes) :
    first_named (ws ++ vs) ifname = (first_named ws ifname).or (first_named vs ifname) :=
  List.find?_append

theorem first_named_name {wans : List WanConfig} {ifname : Bytes} {w : WanConfig}
    (h : first_named wans ifname = some w) : w.ifname = ifname := by
  unfold first_named at h
  have hname := List.find?_some h
  exact beq_iff_eq.mp hname

theorem first_named_of_mem {wans : List WanConfig} {w : WanConfig} (h : w ∈ wans) :
    ∃ first, first_named wans w.ifname = some first := by
  refine Option.isSome_iff_exists.mp ?_
  unfold first_named
  rw [List.find?_isSome]
  exact ⟨w, h, beq_self_eq_true _⟩

theorem first_named_prefix {ws vs : List WanConfig} {ifname : Bytes} {w : WanConfig}
    (hpre : ws <+: vs) (h : first_named ws ifname = some w) : first_named vs ifname = some w := by
  obtain ⟨later, rfl⟩ := hpre
  rw [first_named_append, h, Option.some_or]

/-! ## What the loop over the WAN interfaces appends -/

/-- What one append gives: the index of the entry that its name leads to afterwards. -/
theorem append_wan_unique_first {dst dst' : AppConfig} {w : WanConfig} {idx : Nat}
    (h : append_wan_unique dst w = some (dst', idx)) :
    dst.wans <+: dst'.wans ∧
      (∀ name, first_named dst'.wans name = first_named (dst.wans ++ [w]) name) ∧
      ∃ first, dst'.wans[idx]? = some first ∧ first_named dst'.wans w.ifname = some first := by
  unfold append_wan_unique at h
  split at h
  · rename_i j hj
    obtain ⟨rfl, rfl⟩ := Prod.mk.inj (Option.some.inj h)
    obtain ⟨hlt, -, -⟩ := List.findIdx?_eq_some_iff_getElem.mp hj
    have hfirst : first_named dst.wans w.ifname = some dst.wans[j] := by
      rw [first_named_index, hj, Option.bind_some, List.getElem?_eq_getElem hlt]
    refine ⟨List.prefix_rfl, fun name => ?_, _, List.getElem?_eq_getElem hlt, hfirst⟩
    rw [first_named_append]
    by_cases hname : w.ifname = name
    · rw [← hname, hfirst, Option.some_or]
    · have hno : first_named [w] name = none := by
        simp [first_named, hname]
      rw [hno, Option.or_none]
  · rename_i hnew
    split at h
    · obtain ⟨rfl, rfl⟩ := Prod.mk.inj (Option.some.inj h)
      refine ⟨List.prefix_append _ _, fun _ => rfl, w, ?_, ?_⟩
      · dsimp only
        rw [List.getElem?_append_right (Nat.le_refl _), Nat.sub_self]
        rfl
      · have hnone : first_named dst.wans w.ifname = none := by
          rw [first_named_index, hnew]
          rfl
        rw [first_named_append, hnone, Option.none_or]
        simp [first_named]
    · simp at h

/-- The loop leads each entry to the first one of its name. -/
theorem append_all_wans_first {ws : List WanConfig} {dst dst' : AppConfig} {map : List Nat}
    (h : append_all append_wan_unique dst ws = some (dst', map)) :
    dst.wans <+: dst'.wans ∧
      (∀ name, first_named dst'.wans name = first_named (dst.wans ++ ws) name) ∧
      map.map (dst'.wans[·]?) = ws.map fun w => first_named dst'.wans w.ifname := by
  induction ws generalizing dst map with
  | nil =>
    simp only [append_all, Option.some.injEq, Prod.mk.injEq] at h
    obtain ⟨rfl, rfl⟩ := h
    refine ⟨List.prefix_rfl, fun name => ?_, rfl⟩
    rw [List.append_nil]
  | cons w ws ih =>
    obtain ⟨dst1, idx, map2, hone, hrest, rfl⟩ := append_all_cons_some h
    obtain ⟨hpre1, hnames1, first, hidx, hfirst⟩ := append_wan_unique_first hone
    obtain ⟨hpre, hnames, hmap⟩ := ih hrest
    refine ⟨hpre1.trans hpre, fun name => ?_, ?_⟩
    · rw [hnames, first_named_append, hnames1, ← first_named_append, List.append_assoc]
      rfl
    · rw [List.map_cons, List.map_cons, hmap, first_named_prefix hpre hfirst]
      obtain ⟨later, hlater⟩ := hpre
      obtain ⟨hlt, -⟩ := List.getElem?_eq_some_iff.mp hidx
      rw [← hlater, List.getElem?_append_left hlt, hidx]

/-! ## The links after a merge -/

/-- The links of a mapped profile lead to the first entries of their names. -/
theorem mapped_profile_links {cfg src : AppConfig} {lm wm pm : List Nat} {sp : ProfileConfig}
    (harr : FitsArrays sp)
    (hmap : wm.map (cfg.wans[·]?) = src.wans.map fun w => first_named cfg.wans w.ifname) :
    wan_links cfg (mapped_profile lm wm pm sp) = first_links cfg.wans src sp := by
  have hread : ∀ i : Nat, (wm[i]?).bind (cfg.wans[·]?) =
      (src.wans[i]?).bind fun w : WanConfig => first_named cfg.wans w.ifname := by
    intro i
    have hi := congrArg (fun l => (l[i]?).bind id) hmap
    rw [List.getElem?_map, List.getElem?_map, Option.bind_map, Option.bind_map] at hi
    exact hi
  have hall : ((sp.wan_indices.zip sp.wan_bandwidth_weight).filterMap fun w =>
      (wm[w.1]?).map (·, w.2)).length ≤ MAX_PROFILE_INTERFACES := by
    refine (List.length_filterMap_le _ _).trans ?_
    rw [List.length_zip]
    exact (Nat.min_le_left _ _).trans harr.wans
  unfold wan_links mapped_profile first_links
  dsimp only
  rw [List.take_of_length_le hall, List.zip_map', List.map_id', List.filterMap_filterMap]
  refine List.filterMap_congr fun w _ => ?_
  have hw := congrArg (Option.map fun wan : WanConfig => (wan.ifname, wan.dst_ip, w.2)) (hread w.1)
  rw [Option.map_bind, Option.map_bind] at hw
  rw [Option.bind_map]
  exact hw

/-- Every profile has only WAN indices that are in the table. -/
def WansInRange (cfg : AppConfig) : Prop :=
  ∀ p ∈ cfg.profiles, ∀ i ∈ p.wan_indices, i < cfg.wans.length

theorem wan_links_prefix {cfg cfg' : AppConfig} {p : ProfileConfig}
    (hpre : cfg.wans <+: cfg'.wans) (hrange : ∀ i ∈ p.wan_indices, i < cfg.wans.length) :
    wan_links cfg' p = wan_links cfg p := by
  obtain ⟨later, hlater⟩ := hpre
  refine List.filterMap_congr fun w hw => ?_
  rw [← hlater, List.getElem?_append_left (hrange w.1 (List.of_mem_zip hw).1)]

theorem first_links_of_initial {ws vs : List WanConfig} {src : AppConfig} {sp : ProfileConfig}
    (hpre : ws <+: vs) (hnames : ∀ w ∈ src.wans, ∃ first, first_named ws w.ifname = some first) :
    first_links vs src sp = first_links ws src sp := by
  refine List.filterMap_congr fun w _ => ?_
  cases hw : src.wans[w.1]? with
  | none => rfl
  | some wan =>
    obtain ⟨first, hfirst⟩ := hnames wan (List.mem_of_getElem? hw)
    rw [Option.bind_some, Option.bind_some, hfirst, first_named_prefix hpre hfirst]

/-- What one merge does: the links of the profiles that were there stay, and those that are
appended lead to the first entries of their names. -/
theorem merge_one_config_links {dst src dst' : AppConfig}
    (harr : ∀ p ∈ src.profiles, FitsArrays p) (hrange : WansInRange dst)
    (h : merge_one_config dst src = some dst') :
    dst.wans <+: dst'.wans ∧ WansInRange dst' ∧
      (∀ name, first_named dst'.wans name = first_named (dst.wans ++ src.wans) name) ∧
      dst'.profiles.map (wan_links dst') =
        dst.profiles.map (wan_links dst) ++ src.profiles.map (first_links dst'.wans src) := by
  obtain ⟨dst1, dst2, dst3, lm, wm, pm, map, h1, h2, h3, h4⟩ := merge_one_config_some h
  have hprofiles := append_all_mapped h4
  obtain ⟨hpre, hnames, hmap⟩ := append_all_wans_first h2
  obtain ⟨-, hw4, -⟩ := append_all_profile_frame h4
  obtain ⟨-, hw3, hf3⟩ := append_all_policy_frame h3
  obtain ⟨-, -, hf2⟩ := append_all_wan_frame h2
  obtain ⟨hw1, -, hf1⟩ := append_all_local_frame h1
  rw [← hw3, ← hw4, hw1] at hpre
  rw [← hw3, ← hw4, hw1] at hnames
  rw [← hw3, ← hw4] at hmap
  rw [hf3, hf2, hf1] at hprofiles
  refine ⟨hpre, ?_, hnames, ?_⟩
  · intro p hp i hi
    rw [hprofiles] at hp
    rcases List.mem_append.mp hp with hp | hp
    · exact (hrange p hp i hi).trans_le hpre.length_le
    · -- a mapped index leads to an entry, as its name is there
      obtain ⟨sp, -, rfl⟩ := List.mem_map.mp hp
      obtain ⟨w, hw, rfl⟩ := List.mem_map.mp hi
      obtain ⟨v, -, hv⟩ := List.mem_filterMap.mp (List.mem_of_mem_take hw)
      obtain ⟨j, hj, rfl⟩ := Option.map_eq_some_iff.mp hv
      have hread : dst'.wans[j]? ∈ wm.map (dst'.wans[·]?) :=
        List.mem_map_of_mem (List.mem_of_getElem? hj)
      rw [hmap] at hread
      obtain ⟨wan, hwan, hfirst⟩ := List.mem_map.mp hread
      obtain ⟨first, hsome⟩ := first_named_of_mem (List.mem_append_right dst.wans hwan)
      rw [hnames, hsome] at hfirst
      exact (List.getElem?_eq_some_iff.mp hfirst.symm).1
  · rw [hprofiles, List.map_append, List.map_map]
    refine congrArg₂ _ ?_ ?_
    · exact List.map_congr_left fun p hp => wan_links_prefix hpre (hrange p hp)
    · exact List.map_congr_left fun sp hsp => mapped_profile_links (harr sp hsp) hmap

theorem merges_links {sources : List AppConfig} {dst dst' : AppConfig}
    (harr : ∀ s ∈ sources, ∀ p ∈ s.profiles, FitsArrays p) (hrange : WansInRange dst)
    (h : sources.foldlM merge_one_config dst = some dst') :
    dst.wans <+: dst'.wans ∧
      (∀ name, first_named dst'.wans name =
        first_named (dst.wans ++ sources.flatMap (·.wans)) name) ∧
      dst'.profiles.map (wan_links dst') = dst.profiles.map (wan_links dst) ++
        sources.flatMap fun s => s.profiles.map (first_links dst'.wans s) := by
  induction sources generalizing dst with
  | nil =>
    obtain rfl := Option.some.inj h
    refine ⟨List.prefix_rfl, fun name => ?_, (List.append_nil _).symm⟩
    rw [List.flatMap_nil, List.append_nil]
  | cons src sources ih =>
    rw [List.foldlM_cons] at h
    obtain ⟨dst1, hone, hrest⟩ := Option.bind_eq_some_iff.mp h
    obtain ⟨hpre1, hrange1, hnames1, hlinks1⟩ :=
      merge_one_config_links (harr src List.mem_cons_self) hrange hone
    obtain ⟨hpre, hnames, hlinks⟩ :=
      ih (fun s hs => harr s (List.mem_cons_of_mem src hs)) hrange1 hrest
    refine ⟨hpre1.trans hpre, fun name => ?_, ?_⟩
    · rw [hnames, first_named_append, hnames1, ← first_named_append, List.flatMap_cons,
        List.append_assoc]
    · rw [hlinks, hlinks1, List.flatMap_cons, List.append_assoc]
      refine congrArg _ (congrArg (· ++ _) (List.map_congr_left fun sp _ => ?_))
      refine (first_links_of_initial hpre fun w hw => ?_).symm
      rw [hnames1]
      exact first_named_of_mem (List.mem_append_right dst.wans hw)

theorem first_links_congr {ws vs : List WanConfig} (src : AppConfig)
    (h : ∀ name, first_named ws name = first_named vs name) :
    first_links ws src = first_links vs src := by
  funext sp
  unfold first_links
  simp only [h]

/-- In a merged configuration each link leads to the first entry of its name in all the sources. -/
theorem merge_configs_links {sources : List AppConfig} {cfg : AppConfig}
    (harr : ∀ s ∈ sources, ∀ p ∈ s.profiles, FitsArrays p)
    (h : merge_configs sources = some cfg) :
    cfg.profiles.map (wan_links cfg) = sources.flatMap fun s =>
      s.profiles.map (first_links (sources.flatMap (·.wans)) s) := by
  obtain ⟨merged, hall, rfl⟩ := merge_configs_some h
  obtain ⟨-, hnames, hlinks⟩ := @merges_links sources {} merged harr (fun p hp => by simp at hp) hall
  have hsame : (merged_crypto merged).profiles.map (wan_links (merged_crypto merged)) =
      merged.profiles.map (wan_links merged) := by
    unfold merged_crypto
    split <;> rfl
  rw [hsame, hlinks]
  refine congrArg (List.flatten) (List.map_congr_left fun s _ => ?_)
  rw [first_links_congr s hnames]
  rfl

/-! ## The links after a load -/

/-- The rows of `ne_wan` of a profile. -/
def wan_rows (db : Db) (id : Int) : List (Bytes × UInt32 × Int) := ((db id).bind (·.wans)).getD []

/-- The name of the row's interface fits `IF_NAMESIZE`; a row with a longer one is skipped. -/
def name_fits (row : Bytes × UInt32 × Int) : Bool := decide (row.1.length < IF_NAMESIZE)

/-- The peer of the first row whose name, as it is stored, is the given one. -/
def first_peer (rows : List (Bytes × UInt32 × Int)) (ifname : Bytes) : Option UInt32 :=
  (rows.find? fun row => row.1.take (IF_NAMESIZE - 1) == ifname).map (·.2.1)

/-- The rows with the peers that a lookup by name gives them. -/
def rows_by (peer : Bytes → Option UInt32) (rows : List (Bytes × UInt32 × Int)) :
    List (Bytes × UInt32 × Int) :=
  rows.filterMap fun row =>
    if name_fits row then (peer row.1).map fun dst_ip => (row.1, dst_ip, row.2.2) else none

theorem first_peer_wan_row (cfg : AppConfig) (rows : List (Bytes × UInt32 × Int))
    (ifname : Bytes) :
    first_peer rows ifname = (first_named (rows.map (wan_row cfg)) ifname).map (·.dst_ip) := by
  unfold first_peer first_named
  rw [List.find?_map, Option.map_map]
  rfl

/-- A row whose name fits is found by its name, and no other. -/
theorem first_peer_isSome {rows all : List (Bytes × UInt32 × Int)} {row : Bytes × UInt32 × Int}
    (hrow : row ∈ rows) (hsub : rows ⊆ all) :
    (first_peer all row.1).isSome = name_fits row := by
  unfold first_peer name_fits
  rw [Option.isSome_map, Bool.eq_iff_iff, List.find?_isSome, decide_eq_true_eq]
  constructor
  · rintro ⟨r, -, hr⟩
    rw [← beq_iff_eq.mp hr, List.length_take]
    exact (Nat.min_le_left _ _).trans_lt (by decide)
  · intro hlt
    refine ⟨row, hsub hrow, ?_⟩
    rw [List.take_of_length_le (Nat.le_sub_one_of_lt hlt)]
    exact beq_self_eq_true _

/-- The rows keep their peers exactly if each lookup gives the row's own. -/
theorem rows_by_eq_iff {peer : Bytes → Option UInt32} {rows : List (Bytes × UInt32 × Int)}
    (hsome : ∀ row ∈ rows, (peer row.1).isSome = name_fits row) :
    rows_by peer rows = rows.filter name_fits ↔
      ∀ row ∈ rows, name_fits row = true → peer row.1 = some row.2.1 := by
  unfold rows_by
  induction rows with
  | nil => simp
  | cons row rows ih =>
    have hrest := ih fun r hr => hsome r (List.mem_cons_of_mem row hr)
    have hone := hsome row List.mem_cons_self
    rw [List.forall_mem_cons, ← hrest, List.filterMap_cons, List.filter_cons]
    by_cases hfits : name_fits row = true
    · rw [hfits] at hone
      obtain ⟨dst_ip, hpeer⟩ := Option.isSome_iff_exists.mp hone
      simp only [hfits, hpeer, if_true, Option.map_some, List.cons.injEq, Option.some.injEq,
        forall_const]
      refine and_congr_left fun _ => ?_
      constructor
      · intro heq
        exact congrArg (fun r => r.2.1) heq
      · rintro rfl
        rfl
    · simp [hfits]

/-- What a load makes of the rows: one profile, whose links it looks up by name. -/
theorem config_load_from_db_wans {db : Db} {id : Int} {tmp : AppConfig}
    (h : config_load_from_db db id = some tmp) :
    ∃ cfg sp, tmp.wans = (wan_rows db id).map (wan_row cfg) ∧ tmp.profiles = [sp] ∧
      sp.wan_indices.zip sp.wan_bandwidth_weight = (wan_rows db id).filterMap fun row =>
        (tmp.wans.findIdx? (·.ifname == row.1)).map (·, row.2.2) := by
  obtain ⟨rows, lans, wans, cfg1, cfg2, hrows, hwans, -, hwan, hpol, -⟩ :=
    config_load_from_db_some h
  obtain ⟨hlen, htmp, -⟩ := load_wan_rows_some hwan
  have hdb : wan_rows db id = wans := by
    unfold wan_rows
    rw [hrows, Option.bind_some, hwans]
    rfl
  unfold load_profiles_and_policies at hpol
  split at hpol
  · simp at hpol
  rw [← Option.some.inj hpol, hdb]
  refine ⟨cfg1, _, htmp, rfl, ?_⟩
  unfold profile_row
  rw [hwans, List.zip_map', List.map_id']
  exact List.take_of_length_le ((List.length_filterMap_le _ _).trans hlen)

theorem rows_by_lookup {peer : Bytes → Option UInt32} {rows : List (Bytes × UInt32 × Int)}
    (hsome : ∀ row ∈ rows, (peer row.1).isSome = name_fits row) :
    rows_by peer rows =
      rows.filterMap fun row => (peer row.1).map fun dst_ip => (row.1, dst_ip, row.2.2) := by
  refine List.filterMap_congr fun row hrow => ?_
  have hone := hsome row hrow
  cases hpeer : peer row.1 with
  | none =>
    rw [Option.map_none]
    exact ite_self none
  | some dst_ip =>
    rw [hpeer] at hone
    exact if_pos hone.symm

theorem first_named_link (wans : List WanConfig) (ifname : Bytes) (weight : Int) :
    ((first_named wans ifname).map fun w => (w.ifname, w.dst_ip, weight)) =
      ((first_named wans ifname).map (·.dst_ip)).map fun dst_ip => (ifname, dst_ip, weight) := by
  cases hfirst : first_named wans ifname with
  | none => rfl
  | some w =>
    rw [Option.map_some, Option.map_some, Option.map_some, first_named_name hfirst]

/-- The links of a loaded profile, and what they are when the first entries of a longer table
decide. -/
theorem config_load_from_db_links {db : Db} {id : Int} {tmp : AppConfig}
    (h : config_load_from_db db id = some tmp) :
    ∃ sp, tmp.profiles = [sp] ∧
      wan_links tmp sp = rows_by (first_peer (wan_rows db id)) (wan_rows db id) ∧
      ∀ (wans : List WanConfig) (all : List (Bytes × UInt32 × Int)),
        (∀ name, first_peer all name = (first_named wans name).map (·.dst_ip)) →
        wan_rows db id ⊆ all →
        first_links wans tmp sp = rows_by (first_peer all) (wan_rows db id) := by
  obtain ⟨cfg, sp, hwans, hsp, hzip⟩ := config_load_from_db_wans h
  have hpeer : ∀ name, first_peer (wan_rows db id) name =
      (first_named tmp.wans name).map (·.dst_ip) := by
    intro name
    rw [first_peer_wan_row cfg, hwans]
  have hown : ∀ row ∈ wan_rows db id,
      (first_peer (wan_rows db id) row.1).isSome = name_fits row :=
    fun row hrow => first_peer_isSome hrow (List.Subset.refl _)
  refine ⟨sp, hsp, ?_, ?_⟩
  · unfold wan_links
    rw [rows_by_lookup hown, hzip, List.filterMap_filterMap]
    refine List.filterMap_congr fun row _ => ?_
    rw [Option.bind_map, hpeer, ← first_named_link, first_named_index, Option.map_bind]
    rfl
  · intro wans all hall hsub
    have hmore : ∀ row ∈ wan_rows db id, (first_peer all row.1).isSome = name_fits row :=
      fun row hrow => first_peer_isSome hrow hsub
    unfold first_links
    rw [rows_by_lookup hmore, hzip, List.filterMap_filterMap]
    refine List.filterMap_congr fun row hrow => ?_
    rw [Option.bind_map, hall, ← first_named_link]
    have hidx := first_named_index tmp.wans row.1
    cases hfirst : first_named tmp.wans row.1 with
    | none =>
      -- the name does not fit, so the longer table has none of it either
      have hno : first_named wans row.1 = none := by
        have hfits := hown row hrow
        rw [hpeer, hfirst] at hfits
        have hlookup := hmore row hrow
        rw [← hfits, hall, Option.isSome_map] at hlookup
        exact Option.isSome_eq_false_iff.mp hlookup |> Option.isNone_iff_eq_none.mp
      rw [hfirst] at hidx
      rw [hno, Option.map_none]
      cases hj : tmp.wans.findIdx? (·.ifname == row.1) with
      | none => rfl
      | some j =>
        rw [hj, Option.bind_some] at hidx
        rw [Option.bind_some, Function.comp_apply, ← hidx]
        rfl
    | some wan =>
      rw [hfirst] at hidx
      obtain ⟨j, hj, hread⟩ := Option.bind_eq_some_iff.mp hidx.symm
      rw [hj, Option.bind_some, Function.comp_apply, hread, Option.bind_some,
        first_named_name hfirst]

/-! ## The law -/

/-- Every profile has in the merged configuration the links it was loaded with, and each row of
`ne_wan` that it takes has given it its own peer. -/
structure KeepsPeers (db : Db) (ids : List Int) (cfg : AppConfig) : Prop where
  merged : cfg.profiles.map (wan_links cfg) =
    ids.flatMap fun id => (loaded db id).profiles.map (wan_links (loaded db id))
  rows : ∀ id ∈ ids, ∀ sp ∈ (loaded db id).profiles,
    wan_links (loaded db id) sp = (wan_rows db id).filter name_fits

/-- Each row whose name fits has the peer that the first row of its name has, in its own profile
and over all the profiles in the order of the merge. -/
def FirstRowsAgree (db : Db) (ids : List Int) : Prop :=
  ∀ id ∈ ids, ∀ row ∈ wan_rows db id, name_fits row = true →
    first_peer (wan_rows db id) row.1 = some row.2.1 ∧
      first_peer (ids.flatMap (wan_rows db)) row.1 = some row.2.1

theorem first_named_congr_names {ws vs : List WanConfig}
    (h : ws.map (fun w => (w.ifname, w.dst_ip)) = vs.map fun w => (w.ifname, w.dst_ip))
    (name : Bytes) :
    (first_named ws name).map (·.dst_ip) = (first_named vs name).map (·.dst_ip) := by
  have hfind := congrArg (fun l => (l.find? fun e => e.1 == name).map fun e => e.2) h
  simp only [List.find?_map, Option.map_map] at hfind
  exact hfind

theorem loads_some {db : Db} {ids : List Int} {sources : List AppConfig}
    (h : ids.mapM (config_load_from_db db) = some sources) :
    sources = ids.map (loaded db) ∧
      ∀ id ∈ ids, config_load_from_db db id = some (loaded db id) := by
  induction ids generalizing sources with
  | nil =>
    obtain rfl := Option.some.inj h
    exact ⟨rfl, fun id hid => absurd hid List.not_mem_nil⟩
  | cons id ids ih =>
    rw [List.mapM_cons] at h
    obtain ⟨tmp, hload, h⟩ := Option.bind_eq_some_iff.mp h
    obtain ⟨rest, hrest, h⟩ := Option.bind_eq_some_iff.mp h
    obtain rfl := Option.some.inj h
    obtain ⟨hsources, hall⟩ := ih hrest
    have hloaded := loaded_eq hload
    refine ⟨by rw [List.map_cons, hloaded, hsources], fun i hi => ?_⟩
    rcases List.mem_cons.mp hi with rfl | hi
    · rw [hloaded]
      exact hload
    · exact hall i hi

/-- The first entry of a name over all that is loaded is that of the first row. -/
theorem first_peer_loaded {db : Db} {ids : List Int}
    (hload : ∀ id ∈ ids, config_load_from_db db id = some (loaded db id)) (name : Bytes) :
    first_peer (ids.flatMap (wan_rows db)) name =
      (first_named ((ids.map (loaded db)).flatMap (·.wans)) name).map (·.dst_ip) := by
  rw [first_peer_wan_row {}]
  refine first_named_congr_names ?_ name
  rw [List.flatMap_map, List.map_flatMap, List.map_flatMap, List.map_flatMap]
  refine List.flatMap_congr fun id hid => ?_
  obtain ⟨cfg, -, hwans, -, -⟩ := config_load_from_db_wans (hload id hid)
  rw [hwans, List.map_map, List.map_map]
  rfl

/-- The links keep their peers exactly if each row agrees with the first one of its interface. -/
theorem wan_peers_are_kept_iff {db : Db} {ids : List Int} {cfg : AppConfig}
    (h : build_merged_config db ids = some cfg) :
    KeepsPeers db ids cfg ↔ FirstRowsAgree db ids := by
  rw [build_merged_config_sources] at h
  obtain ⟨sources, hsources, hmerge⟩ := Option.bind_eq_some_iff.mp h
  obtain ⟨rfl, hload⟩ := loads_some hsources
  have hfits : ∀ s ∈ ids.map (loaded db), ∀ p ∈ s.profiles, FitsArrays p := by
    intro s hs
    obtain ⟨id, hid, rfl⟩ := List.mem_map.mp hs
    exact config_load_from_db_fitsArrays (hload id hid)
  have hown : ∀ id, ∀ row ∈ wan_rows db id,
      (first_peer (wan_rows db id) row.1).isSome = name_fits row :=
    fun id row hrow => first_peer_isSome hrow (List.Subset.refl _)
  have hsub : ∀ id ∈ ids, wan_rows db id ⊆ ids.flatMap (wan_rows db) :=
    fun id hid row hrow => List.mem_flatMap.mpr ⟨id, hid, hrow⟩
  -- every profile's links, merged and loaded, as lookups in the rows
  have hmerged : cfg.profiles.map (wan_links cfg) = ids.map fun id =>
      rows_by (first_peer (ids.flatMap (wan_rows db))) (wan_rows db id) := by
    rw [merge_configs_links hfits hmerge, List.flatMap_map]
    refine Eq.trans (List.flatMap_congr fun id hid => ?_) List.map_eq_flatMap.symm
    obtain ⟨sp, hsp, -, hlinks⟩ := config_load_from_db_links (hload id hid)
    rw [hsp, List.map_singleton, hlinks _ _ (first_peer_loaded hload) (hsub id hid)]
  have hloaded : (ids.flatMap fun id => (loaded db id).profiles.map (wan_links (loaded db id))) =
      ids.map fun id => rows_by (first_peer (wan_rows db id)) (wan_rows db id) := by
    rw [List.map_eq_flatMap]
    refine List.flatMap_congr fun id hid => ?_
    obtain ⟨sp, hsp, hlinks, -⟩ := config_load_from_db_links (hload id hid)
    rw [hsp, List.map_singleton, hlinks]
  constructor
  · intro hkeeps id hid row hrow hname
    have hrows : rows_by (first_peer (wan_rows db id)) (wan_rows db id) =
        (wan_rows db id).filter name_fits := by
      obtain ⟨sp, hsp, hlinks, -⟩ := config_load_from_db_links (hload id hid)
      rw [← hlinks]
      exact hkeeps.rows id hid sp (by rw [hsp]; exact List.mem_singleton_self sp)
    have hsame := hmerged.symm.trans (hkeeps.merged.trans hloaded)
    have hall := (List.map_inj_left.mp hsame id hid).trans hrows
    refine ⟨(rows_by_eq_iff (hown id)).mp hrows row hrow hname, ?_⟩
    exact (rows_by_eq_iff fun r hr => first_peer_isSome hr (hsub id hid)).mp hall row hrow hname
  · intro hfirst
    have hrows : ∀ id ∈ ids, rows_by (first_peer (wan_rows db id)) (wan_rows db id) =
        (wan_rows db id).filter name_fits := fun id hid =>
      (rows_by_eq_iff (hown id)).mpr fun row hrow hname => (hfirst id hid row hrow hname).1
    refine ⟨?_, fun id hid sp hsp => ?_⟩
    · rw [hmerged, hloaded]
      refine List.map_congr_left fun id hid => ?_
      rw [hrows id hid]
      exact (rows_by_eq_iff fun r hr => first_peer_isSome hr (hsub id hid)).mpr
        fun row hrow hname => (hfirst id hid row hrow hname).2
    · obtain ⟨sp', hsp', hlinks, -⟩ := config_load_from_db_links (hload id hid)
      rw [hsp'] at hsp
      rw [List.mem_singleton.mp hsp, hlinks, hrows id hid]

/-- Two profiles with a LAN interface of their own and one WAN interface for both. -/
def sharedWan (peer peer' : UInt32) : Db := fun id =>
  if id = 1 then some (rowsOf [97] peer) else if id = 2 then some (rowsOf [98] peer') else none
where
  rowsOf (lan : Bytes) (dst_ip : UInt32) : ProfileRows :=
    { lans := some [lan]
      wans := some [([119], dst_ip, 100)]
      policies := some []
      policies_le := fun ps h => by
        obtain rfl := Option.some.inj h
        exact Nat.zero_le _ }

theorem one_peer_is_kept :
    ∃ cfg, build_merged_config (sharedWan 1 1) [1, 2] = some cfg ∧
      KeepsPeers (sharedWan 1 1) [1, 2] cfg := by
  have hmerge : (build_merged_config (sharedWan 1 1) [1, 2]).isSome := by decide +kernel
  obtain ⟨cfg, hcfg⟩ := Option.isSome_iff_exists.mp hmerge
  refine ⟨cfg, hcfg, (wan_peers_are_kept_iff hcfg).mpr ?_⟩
  unfold FirstRowsAgree
  decide +kernel

/-- The second profile is loaded with the peer 2 and is merged with the peer of the first. -/
theorem the_second_profile_gets_the_first_peer :
    ∃ cfg, build_merged_config (sharedWan 1 2) [1, 2] = some cfg ∧
      cfg.profiles.map (wan_links cfg) = [[([119], 1, 100)], [([119], 1, 100)]] ∧
      (loaded (sharedWan 1 2) 2).profiles.map (wan_links (loaded (sharedWan 1 2) 2)) =
        [[([119], 2, 100)]] ∧ ¬KeepsPeers (sharedWan 1 2) [1, 2] cfg := by
  have hmerge : (build_merged_config (sharedWan 1 2) [1, 2]).map
      (fun cfg => cfg.profiles.map (wan_links cfg)) =
        some [[([119], 1, 100)], [([119], 1, 100)]] := by decide +kernel
  obtain ⟨cfg, hcfg, hlinks⟩ := Option.map_eq_some_iff.mp hmerge
  refine ⟨cfg, hcfg, hlinks, by decide +kernel, fun hkeeps => ?_⟩
  have hsame := hlinks.symm.trans hkeeps.merged
  exact absurd hsame (by decide +kernel)

end ne_ip.wan_peers
