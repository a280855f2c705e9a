-- Merging keeps the policy of every packet: a LAN interface that one configuration alone
-- has gets from the merged one what it got from its own (crypto_select_policy_for_local).
import NeIp.MergeSources
import NeIp.PolicySelect

open byte_buf index_list ne_ip.config ne_ip.db_runtime ne_ip.merge_order ne_ip.merge_sources
open ne_ip.flow ne_ip.policy_select

namespace ne_ip.merge_select

/-- What a returned policy has at its index, but for its id. -/
def policy_at (cfg : AppConfig) (idx : Nat) : Option CryptoPolicy :=
  (cfg.policies[idx]?).map without_id

/-- The configuration at a place of the merge: its LAN interfaces, its policies and its profiles
stand one after the other in the merged one, and no other profile has one of its interfaces. -/
structure Placed (cfg src : AppConfig) (first_local first_policy : Nat)
    (pre post : List ProfileConfig) (wan_map : List Nat) : Prop where
  locals : Holds (lan_names cfg) first_local (lan_names src)
  policies : Holds (cfg.policies.map without_id) first_policy (src.policies.map without_id)
  profiles : cfg.profiles = pre ++ src.profiles.map (mapped_profile
    (List.range' first_local src.locals.length) wan_map
    (List.range' first_policy src.policies.length)) ++ post
  before : ∀ p ∈ pre, ∀ i ∈ p.local_indices, i < first_local
  after : ∀ p ∈ post, ∀ i ∈ p.local_indices, first_local + src.locals.length ≤ i

/-! ## The selection in a merged configuration -/

/-- The profile of an interface is the one it had, mapped. -/
theorem Placed.profile {cfg src : AppConfig} {a q i : Nat} {pre post : List ProfileConfig}
    {wm : List Nat} (h : Placed cfg src a q pre post wm)
    (harr : ∀ p ∈ src.profiles, FitsArrays p) (hi : i < src.locals.length) :
    config_select_profile_for_local cfg (a + i) =
      (config_select_profile_for_local src i).map (pre.length + ·) := by
  have hlocal : a + i < cfg.locals.length := by
    have hread := h.locals i (by rw [lan_names, List.length_map]; exact hi)
    have hsome : (lan_names src)[i]? = some src.locals[i].ifname := by
      rw [lan_names, List.getElem?_map, List.getElem?_eq_getElem hi]
      rfl
    rw [hsome] at hread
    obtain ⟨hlt, -⟩ := List.getElem?_eq_some_iff.mp hread
    rw [lan_names, List.length_map] at hlt
    exact hlt
  unfold config_select_profile_for_local
  rw [if_neg (Nat.not_le.mpr hlocal), if_neg (Nat.not_le.mpr hi), h.profiles, findIdx?_part,
    List.findIdx?_map]
  · refine congrArg _ (findIdx?_congr fun p hp => ?_)
    have hmem : (mapped_profile (List.range' a src.locals.length) wm
        (List.range' q src.policies.length) p).local_indices = relocate a src.locals.length
          p.local_indices := map_indices_relocate (harr p hp).locals
    rw [Function.comp_apply, hmem, Bool.eq_iff_iff]
    simp only [Bool.and_eq_true, List.contains_iff_mem, mem_relocate hi]
    exact Iff.rfl
  · intro p hp
    rw [Bool.and_eq_false_iff]
    refine Or.inr (Bool.eq_false_iff.mpr fun hmem => ?_)
    have hlt := h.before p hp _ (List.contains_iff_mem.mp hmem)
    omega
  · intro p hp
    rw [Bool.and_eq_false_iff]
    refine Or.inr (Bool.eq_false_iff.mpr fun hmem => ?_)
    have hle := h.after p hp _ (List.contains_iff_mem.mp hmem)
    omega

/-- What a pass selects, without the ids. -/
theorem select_pass_entry (cfg : AppConfig) (p : ProfileConfig) (any : Bool) (f : FlowKey) :
    (select_pass cfg p any f).map (policy_at cfg) =
      ((reads (cfg.policies.map without_id) p.policy_indices).find? (taken_in_pass any f)).map
        some := by
  have hentry := congrArg (Option.map (Option.map without_id))
    (first_index_entry (taken_in_pass any f) cfg.policies p.policy_indices)
  rw [Option.map_map, Option.map_map] at hentry
  rw [← reads_map, List.find?_map, Option.map_map]
  exact hentry

theorem config_select_crypto_policy_entry {cfg : AppConfig} {pi : Nat} {p : ProfileConfig}
    (hp : cfg.profiles[pi]? = some p) (f : FlowKey) :
    (config_select_crypto_policy cfg pi f).map (policy_at cfg) =
      (((reads (cfg.policies.map without_id) p.policy_indices).find? (taken_in_pass false f)).or
        ((reads (cfg.policies.map without_id) p.policy_indices).find? (taken_in_pass true f))).map
          some := by
  unfold config_select_crypto_policy
  rw [hp, Option.bind_some, Option.map_or, Option.map_or, select_pass_entry, select_pass_entry]

/-- A mapped profile has the same policies. -/
theorem Placed.policies_read {cfg src : AppConfig} {a q : Nat} {pre post : List ProfileConfig}
    {wm lm : List Nat} (h : Placed cfg src a q pre post wm) {p : ProfileConfig}
    (harr : FitsArrays p) :
    reads (cfg.policies.map without_id)
        (mapped_profile lm wm (List.range' q src.policies.length) p).policy_indices =
      reads (src.policies.map without_id) p.policy_indices := by
  have hmem : (mapped_profile lm wm (List.range' q src.policies.length) p).policy_indices =
      relocate q (src.policies.map without_id).length p.policy_indices := by
    rw [List.length_map]
    exact map_indices_relocate harr.policies
  rw [hmem, reads_relocate h.policies]

theorem Placed.selects {cfg src : AppConfig} {a q i : Nat} {pre post : List ProfileConfig}
    {wm : List Nat} (h : Placed cfg src a q pre post wm)
    (harr : ∀ p ∈ src.profiles, FitsArrays p) (hi : i < src.locals.length) (f : FlowKey) :
    (crypto_select_policy_for_local cfg (a + i) f).map (policy_at cfg) =
      (crypto_select_policy_for_local src i f).map (policy_at src) := by
  unfold crypto_select_policy_for_local
  rw [h.profile harr hi]
  cases hsel : config_select_profile_for_local src i with
  | none => rfl
  | some pi =>
    obtain ⟨p, hp⟩ := config_select_profile_for_local_some hsel
    have hmapped : cfg.profiles[pre.length + pi]? = some (mapped_profile
        (List.range' a src.locals.length) wm (List.range' q src.policies.length) p) := by
      obtain ⟨hlt, -⟩ := List.getElem?_eq_some_iff.mp hp.profile
      rw [h.profiles, holds_append _ _ _ pi (by rw [List.length_map]; exact hlt),
        List.getElem?_map, hp.profile]
      rfl
    have hfits : FitsArrays p := harr p (List.mem_of_getElem? hp.profile)
    rw [Option.map_some, Option.bind_some, Option.bind_some,
      config_select_crypto_policy_entry hmapped, config_select_crypto_policy_entry hp.profile,
      h.policies_read hfits]

/-! ## Where a merge places its sources -/

/-- What one merge appends, when the names of the LAN interfaces are new. -/
theorem merge_one_config_appends {dst src dst' : AppConfig}
    (hnames : (lan_names dst ++ lan_names src).Nodup)
    (h : merge_one_config dst src = some dst') :
    dst'.locals = dst.locals ++ src.locals ∧
      dst'.policies.map without_id = dst.policies.map without_id ++ src.policies.map without_id ∧
      ∃ wm, dst'.profiles = dst.profiles ++ src.profiles.map (mapped_profile
        (List.range' dst.locals.length src.locals.length) wm
        (List.range' dst.policies.length src.policies.length)) := by
  obtain ⟨dst1, dst2, dst3, lm, wm, pm, map, h1, h2, h3, h4⟩ := merge_one_config_some h
  obtain ⟨hlocals, hlm⟩ := append_all_new_locals hnames h1
  obtain ⟨-, hpm, -⟩ := append_all_policies h3
  have hpolicies := append_all_contents h3
  have hprofiles := append_all_mapped h4
  obtain ⟨hl4, -, hp4⟩ := append_all_profile_frame h4
  obtain ⟨hl3, -, hf3⟩ := append_all_policy_frame h3
  obtain ⟨hl2, hp2, hf2⟩ := append_all_wan_frame h2
  obtain ⟨-, hp1, hf1⟩ := append_all_local_frame h1
  refine ⟨?_, ?_, wm, ?_⟩
  · rw [hl4, hl3, hl2, hlocals]
  · rw [hp4, hpolicies, hp2, hp1]
  · rw [hprofiles, hf3, hf2, hf1, hlm, hpm, hp2, hp1]

/-- What a mapped profile has of the LAN interfaces is among those of its source. -/
theorem mapped_profile_locals {a n i : Nat} {wm pm : List Nat} {sp : ProfileConfig}
    (h : i ∈ (mapped_profile (List.range' a n) wm pm sp).local_indices) : a ≤ i ∧ i < a + n :=
  relocate_range (List.mem_of_mem_take h)

/-- What the merges of some sources append: the profiles have interfaces that are appended too. -/
theorem merges_append {sources : List AppConfig} {dst dst' : AppConfig}
    (hnames : (lan_names dst ++ sources.flatMap lan_names).Nodup)
    (h : sources.foldlM merge_one_config dst = some dst') :
    lan_names dst' = lan_names dst ++ sources.flatMap lan_names ∧
      dst.policies.map without_id <+: dst'.policies.map without_id ∧
      ∃ later, dst'.profiles = dst.profiles ++ later ∧
        ∀ p ∈ later, ∀ i ∈ p.local_indices,
          dst.locals.length ≤ i ∧ i < dst'.locals.length := by
  induction sources generalizing dst with
  | nil =>
    obtain rfl := Option.some.inj h
    refine ⟨(List.append_nil _).symm, List.prefix_rfl, [], (List.append_nil _).symm, ?_⟩
    intro p hp
    simp at hp
  | cons src sources ih =>
    rw [List.foldlM_cons] at h
    obtain ⟨dst1, hone, hrest⟩ := Option.bind_eq_some_iff.mp h
    rw [List.flatMap_cons, ← List.append_assoc] at hnames
    obtain ⟨hlocals, hpolicies, wm, hprofiles⟩ :=
      merge_one_config_appends (List.nodup_append.mp hnames).1 hone
    have hlan1 : lan_names dst1 = lan_names dst ++ lan_names src := by
      unfold lan_names
      rw [hlocals, List.map_append]
    obtain ⟨hlan, hpol, later, hprof, hrange⟩ := ih (by rw [hlan1]; exact hnames) hrest
    have hlen1 : dst1.locals.length = dst.locals.length + src.locals.length := by
      rw [hlocals, List.length_append]
    have hlen : dst1.locals.length ≤ dst'.locals.length := by
      have hcount := congrArg List.length hlan
      simp only [lan_names, List.length_append, List.length_map] at hcount
      omega
    refine ⟨?_, ?_, _, by rw [hprof, hprofiles, List.append_assoc], ?_⟩
    · rw [hlan, hlan1, List.flatMap_cons, List.append_assoc]
    · exact (hpolicies ▸ List.prefix_append _ _ : _ <+: dst1.policies.map without_id).trans hpol
    · intro p hp i hi
      rcases List.mem_append.mp hp with hp | hp
      · obtain ⟨sp, -, rfl⟩ := List.mem_map.mp hp
        have hbounds := mapped_profile_locals hi
        omega
      · have hbounds := hrange p hp i hi
        omega

/-- Each source has its place in the merged configuration. -/
theorem merge_places {pre post : List AppConfig} {src cfg : AppConfig}
    (hnames : ((pre ++ src :: post).flatMap lan_names).Nodup)
    (h : (pre ++ src :: post).foldlM merge_one_config {} = some cfg) :
    ∃ q before after wm,
      Placed cfg src (pre.flatMap lan_names).length q before after wm := by
  rw [List.foldlM_append] at h
  obtain ⟨m1, hpre, h⟩ := Option.bind_eq_some_iff.mp h
  rw [List.foldlM_cons] at h
  obtain ⟨m2, hone, hpost⟩ := Option.bind_eq_some_iff.mp h
  rw [List.flatMap_append, List.flatMap_cons, ← List.append_assoc] at hnames
  have hnames1 := (List.nodup_append.mp hnames).1
  obtain ⟨hlan1, -, before, hprof1, hrange1⟩ :=
    @merges_append pre {} m1 (List.nodup_append.mp hnames1).1 hpre
  have hlan1 : lan_names m1 = pre.flatMap lan_names := hlan1
  have hlen1 : m1.locals.length = (pre.flatMap lan_names).length := by
    rw [← hlan1, lan_names, List.length_map]
  obtain ⟨hlocals2, hpolicies2, wm, hprof2⟩ :=
    merge_one_config_appends (by rw [hlan1]; exact hnames1) hone
  have hlan2 : lan_names m2 = pre.flatMap lan_names ++ lan_names src := by
    rw [← hlan1]
    unfold lan_names
    rw [hlocals2, List.map_append]
  have hlen2 : m2.locals.length = m1.locals.length + src.locals.length := by
    rw [hlocals2, List.length_append]
  obtain ⟨hlan3, hpol3, after, hprof3, hrange3⟩ :=
    merges_append (by rw [hlan2]; exact hnames) hpost
  refine ⟨m1.policies.length, m1.profiles, after, wm, ?_, ?_, ?_, ?_, ?_⟩
  · rw [hlan3, hlan2]
    exact holds_append _ _ _
  · refine Holds.prefix ?_ hpol3
    have hholds := holds_append (m1.policies.map without_id) (src.policies.map without_id) []
    rw [List.append_nil, ← hpolicies2, List.length_map] at hholds
    exact hholds
  · rw [hprof3, hprof2, hlen1]
  · intro p hp i hi
    rw [← hlen1]
    rw [hprof1] at hp
    exact (hrange1 p hp i hi).2
  · intro p hp i hi
    rw [← hlen1, ← hlen2]
    exact (hrange3 p hp i hi).1

/-! ## The law -/

theorem selects_after_merged_crypto (cfg : AppConfig) (i : Nat) (f : FlowKey) :
    (crypto_select_policy_for_local (merged_crypto cfg) i f).map (policy_at (merged_crypto cfg)) =
      (crypto_select_policy_for_local cfg i f).map (policy_at cfg) := by
  unfold merged_crypto
  split <;> rfl

/-- For a LAN interface that stands once in all the sources, the merged configuration has one
entry, and the policy it gives a packet there is the one its source gives, or none as there. -/
theorem merging_keeps_the_selection {sources : List AppConfig} {cfg src : AppConfig} {k i : Nat}
    {lan : LocalConfig} (harr : ∀ s ∈ sources, ∀ p ∈ s.profiles, FitsArrays p)
    (hnames : (sources.flatMap lan_names).Nodup) (h : merge_configs sources = some cfg)
    (hk : sources[k]? = some src) (hi : src.locals[i]? = some lan) (f : FlowKey) :
    ∃ m, (∀ n, (lan_names cfg)[n]? = some lan.ifname ↔ n = m) ∧
      (crypto_select_policy_for_local cfg m f).map (policy_at cfg) =
        (crypto_select_policy_for_local src i f).map (policy_at src) := by
  obtain ⟨merged, hall, rfl⟩ := merge_configs_some h
  obtain ⟨hklt, rfl⟩ := List.getElem?_eq_some_iff.mp hk
  obtain ⟨hilt, rfl⟩ := List.getElem?_eq_some_iff.mp hi
  have hsplit : sources = sources.take k ++ sources[k] :: sources.drop (k + 1) := by
    rw [List.getElem_cons_drop, List.take_append_drop]
  obtain ⟨q, before, after, wm, hplace⟩ :=
    @merge_places _ _ _ merged (hsplit ▸ hnames) (hsplit ▸ hall)
  have hnodup : (lan_names merged).Nodup := by
    have hlan := (@merges_append sources {} merged hnames hall).1
    rw [hlan]
    exact hnames
  have hlan : lan_names (merged_crypto merged) = lan_names merged := by
    unfold lan_names
    rw [(merged_crypto_fields merged).1]
  refine ⟨((sources.take k).flatMap lan_names).length + i, fun n => ?_, ?_⟩
  · have hentry := hplace.locals i (by rw [lan_names, List.length_map]; exact hilt)
    rw [lan_names, lan_names, List.getElem?_map, List.getElem?_map,
      List.getElem?_eq_getElem hilt] at hentry
    rw [hlan]
    constructor
    · intro hn
      obtain ⟨hnlt, hn⟩ := List.getElem?_eq_some_iff.mp hn
      rw [← List.getElem?_map] at hentry
      obtain ⟨hmlt, hm⟩ := List.getElem?_eq_some_iff.mp hentry
      exact (List.Nodup.getElem_inj_iff hnodup).mp (hn.trans hm.symm)
    · rintro rfl
      rw [lan_names, List.getElem?_map]
      exact hentry
  · rw [selects_after_merged_crypto]
    exact hplace.selects (harr _ (List.getElem_mem hklt)) hilt f

/-- One LAN interface and one policy for everything, under the wire id 5. -/
def oneLan (ifname : Bytes) (action : PolicyAction) : AppConfig where
  locals := [{ ifname }]
  wans := [{ ifname := [119] }]
  profiles := [⟨1, [], true, [0], [0], [100], [0]⟩]
  policies := [⟨5, 0, 0, action, 0, -1, -1, -1, -1, true, true, false, false, 0, 0, 0, 0, .gcm, 128, 12,
    Vector.replicate AES_KEY_LEN 7⟩]
  locals_le := Nat.le_add_left 1 15
  policies_le := Nat.le_add_left 1 127

theorem the_second_interface_keeps_its_policy :
    ∃ cfg m, merge_configs [oneLan [97] .encrypt_l3, oneLan [98] .encrypt_l4] = some cfg ∧
      (∀ n, (lan_names cfg)[n]? = some [98] ↔ n = m) ∧
      (crypto_select_policy_for_local cfg m ⟨1, 2, 3, 4, 17⟩).map (policy_at cfg) =
        some ((oneLan [98] .encrypt_l4).policies[0]?.map without_id) := by
  have hmerge : (merge_configs [oneLan [97] .encrypt_l3, oneLan [98] .encrypt_l4]).isSome := by
    decide +kernel
  obtain ⟨cfg, hcfg⟩ := Option.isSome_iff_exists.mp hmerge
  have hfits : ∀ s ∈ [oneLan [97] .encrypt_l3, oneLan [98] .encrypt_l4], ∀ p ∈ s.profiles,
      FitsArrays p := by
    intro s hs p hp
    simp only [List.mem_cons, List.not_mem_nil, or_false] at hs
    rcases hs with rfl | rfl <;>
      (obtain rfl := List.mem_singleton.mp hp
       exact ⟨by decide, by decide, rfl, by decide⟩)
  obtain ⟨m, hm, hsel⟩ := merging_keeps_the_selection (k := 1) (i := 0) hfits (by decide) hcfg rfl
    rfl ⟨1, 2, 3, 4, 17⟩
  exact ⟨cfg, m, hcfg, hm, hsel.trans (by decide +kernel)⟩

end ne_ip.merge_select
