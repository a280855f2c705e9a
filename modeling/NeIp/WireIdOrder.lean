-- Wire ids and the order of the profiles: a policy has the same wire id after every merge
-- exactly when those that can come before it do not reach its number.
import NeIp.MergeOrder
import NeIp.Sample

open byte_buf ne_ip.config ne_ip.db_runtime ne_ip.merge_order ne_ip.sample

namespace ne_ip.wire_id_order

/-- Any two orders of the profiles give each encrypt policy the same wire id. -/
def OrderFree (db : Db) (ids : List Int) : Prop :=
  ∀ p q cfg cfg', p.Perm ids → q.Perm ids → build_merged_config db p = some cfg →
    build_merged_config db q = some cfg' → ∀ a ∈ ids, ∀ k cp,
      (loaded db a).policies[k]? = some cp → cp.action ≠ .bypass →
        wire_id_of cfg a k = wire_id_of cfg' a k

/-- The wire id of a policy when its profile is the only one. -/
def own_wire_id (db : Db) (profile_id : Int) (k : Nat) : Option Nat :=
  (build_merged_config db [profile_id]).bind (wire_id_of · profile_id k)

/-- The ids of the policies that some order merges before it: those of the other profiles and
those before it in its own. -/
def rivals (db : Db) (ids : List Int) (profile_id : Int) (k : Nat) : List Nat :=
  (all_policies db (ids.erase profile_id) ++ (loaded db profile_id).policies.take k).map (·.id)

/-- Its rivals cannot take the number that it has alone. -/
def KeepsItsNumber (db : Db) (ids : List Int) (profile_id : Int) (k : Nat) : Prop :=
  ∃ r, own_wire_id db profile_id k = some r ∧
    first_come.Unreached 255 r (rivals db ids profile_id k)

/-! ## One policy in one order -/

theorem own_wire_id_eq {db : Db} {ids : List Int} {a : Int} {k : Nat} {cp : CryptoPolicy}
    (hfits : Fits db ids) (ha : a ∈ ids) (hk : (loaded db a).policies[k]? = some cp) :
    ∃ used r, first_come.serve 255 [] (((loaded db a).policies.take k).map (·.id)) = some used ∧
      first_come.number 255 used cp.id = some r ∧ own_wire_id db a k = some r := by
  have hone : Fits db [a] := hfits.sublist (List.singleton_sublist.mpr ha)
  obtain ⟨cfg, hcfg⟩ := Option.isSome_iff_exists.mp (build_merged_config_isSome_iff.mpr hone)
  have halone : ([] ++ a :: []).Nodup := List.nodup_singleton a
  obtain ⟨used, r, hserve, hr, hwid⟩ := wire_id_of_merged halone hcfg hk
  refine ⟨used, r, hserve, hr, ?_⟩
  unfold own_wire_id
  rw [hcfg]
  exact hwid

/-- A policy has the number that it has alone exactly when those before it do not reach it. -/
theorem wire_id_of_eq_own_iff {db : Db} {pre post : List Int} {a : Int} {cfg : AppConfig} {k r : Nat}
    {cp : CryptoPolicy} (hids : (pre ++ a :: post).Nodup)
    (hcfg : build_merged_config db (pre ++ a :: post) = some cfg)
    (hk : (loaded db a).policies[k]? = some cp) (hown : own_wire_id db a k = some r) :
    wire_id_of cfg a k = some r ↔ first_come.Unreached 255 r
      ((all_policies db pre ++ (loaded db a).policies.take k).map (·.id)) := by
  have hfits := build_merged_config_isSome_iff.mp (Option.isSome_iff_exists.mpr ⟨cfg, hcfg⟩)
  obtain ⟨used0, r0, hserve0, hr0, hown0⟩ :=
    own_wire_id_eq hfits (List.mem_append_right pre List.mem_cons_self) hk
  obtain rfl : r = r0 := Option.some.inj (hown.symm.trans hown0)
  obtain ⟨used, j, hserve, hj, hwid⟩ := wire_id_of_merged hids hcfg hk
  obtain ⟨h1, h255, -, -⟩ := first_come.number_eq_some_iff.mp hr0
  have hsub : used0 ⊆ used :=
    first_come.taken_subset hserve0 hserve ((List.sublist_append_right _ _).map _)
  rw [hwid, ← hj, first_come.number_more_iff hsub hr0]
  exact first_come.not_mem_taken_iff hserve h1 h255

/-! ## Every order -/

/-- Those that come before a policy in some order are rivals. -/
theorem unreached_of_rivals {db : Db} {ids pre post : List Int} {a : Int} {k r : Nat}
    (hids : ids.Nodup) (hperm : (pre ++ a :: post).Perm ids)
    (h : first_come.Unreached 255 r (rivals db ids a k)) :
    first_come.Unreached 255 r
      ((all_policies db pre ++ (loaded db a).policies.take k).map (·.id)) := by
  have hnd : (pre ++ a :: post).Nodup := hperm.nodup_iff.mpr hids
  have hothers : (pre ++ post).Perm (ids.erase a) := by
    have hpre : a ∉ pre := fun ha => (List.nodup_append.mp hnd).2.2 a ha a List.mem_cons_self rfl
    have herase : (pre ++ a :: post).erase a = pre ++ post := by
      rw [List.erase_append_right _ hpre, List.erase_cons_head]
    rw [← herase]
    exact hperm.erase a
  have hall : (all_policies db (pre ++ post)).Perm (all_policies db (ids.erase a)) :=
    hothers.flatMap_right _
  have hsub : (all_policies db pre).Sublist (all_policies db (pre ++ post)) :=
    (List.sublist_append_left pre post).flatMap _
  unfold rivals at h
  exact (h.perm ((hall.append_right _).map _)).sublist ((hsub.append_right _).map _)

/-- The wire ids of the encrypt policies do not depend on the order of the profiles exactly
when no policy's own number can be reached by its rivals. -/
theorem wire_ids_do_not_depend_on_the_order_iff_each_keeps_its_number {db : Db} {ids : List Int}
    {cfg : AppConfig} (hids : ids.Nodup) (hcfg : build_merged_config db ids = some cfg) :
    OrderFree db ids ↔ ∀ a ∈ ids, ∀ k cp, (loaded db a).policies[k]? = some cp →
      cp.action ≠ .bypass → KeepsItsNumber db ids a k := by
  have hfits := build_merged_config_isSome_iff.mp (Option.isSome_iff_exists.mpr ⟨cfg, hcfg⟩)
  constructor
  · intro hfree a ha k cp hk henc
    obtain ⟨used0, r, hserve, hr, hown⟩ := own_wire_id_eq hfits ha hk
    -- the profile once before all the others and once after them
    have hfirst : (a :: ids.erase a).Perm ids := (List.perm_cons_erase ha).symm
    have hlast : (ids.erase a ++ [a]).Perm ids :=
      (List.perm_append_singleton a _).trans hfirst
    obtain ⟨cfg1, hcfg1⟩ := build_merged_config_perm hcfg hfirst
    obtain ⟨cfg2, hcfg2⟩ := build_merged_config_perm hcfg hlast
    have hwid1 : wire_id_of cfg1 a k = some r := by
      have hnd : ([] ++ a :: ids.erase a).Nodup := hfirst.nodup_iff.mpr hids
      obtain ⟨used, r1, hserve1, hr1, hwid⟩ := wire_id_of_merged hnd hcfg1 hk
      obtain rfl := Option.some.inj (hserve.symm.trans hserve1)
      rw [hwid, ← hr1, hr]
    have hsame := hfree _ _ cfg1 cfg2 hfirst hlast hcfg1 hcfg2 a ha k cp hk henc
    exact ⟨r, hown, (wire_id_of_eq_own_iff (hlast.nodup_iff.mpr hids) hcfg2 hk hown).mp
      (hsame.symm.trans hwid1)⟩
  · intro hkeeps p q cfg1 cfg2 hp hq hcfg1 hcfg2 a ha k cp hk henc
    obtain ⟨r, hown, hunreached⟩ := hkeeps a ha k cp hk henc
    have hnumber : ∀ p cfg, p.Perm ids → build_merged_config db p = some cfg →
        wire_id_of cfg a k = some r := by
      intro p cfg hp hcfg
      obtain ⟨pre, post, rfl⟩ := List.append_of_mem (hp.mem_iff.mpr ha)
      exact (wire_id_of_eq_own_iff (hp.nodup_iff.mpr hids) hcfg hk hown).mpr
        (unreached_of_rivals hids hp hunreached)
    rw [hnumber p cfg1 hp hcfg1, hnumber q cfg2 hq hcfg2]

/-- A database with two profiles of one LAN and one WAN interface and these policies. -/
def twoProfiles (first second : List CryptoPolicy) (h1 : first.length ≤ MAX_CRYPTO_POLICIES)
    (h2 : second.length ≤ MAX_CRYPTO_POLICIES) : Db := fun id =>
  let row (policies : List CryptoPolicy) (h : policies.length ≤ MAX_CRYPTO_POLICIES) :
      ProfileRows :=
    { lans := some [[0x6c, 0x61, 0x6e, 0x30]]
      wans := some [([0x77, 0x61, 0x6e, 0x30], 0, 100)]
      policies := some policies
      policies_le := by
        intro ps hps
        rw [← Option.some.inj hps]
        exact h }
  if id = 1 then some (row first h1) else if id = 2 then some (row second h2) else none

/-- The policies 7 of one profile and a bypass and 9 of the other. -/
def calmDb : Db :=
  twoProfiles [samplePolicy 7 .encrypt_l4] [samplePolicy 0 .bypass, samplePolicy 9 .encrypt_l3]
    one_policy_le (by decide)

theorem the_policies_7_and_9_have_their_numbers_in_both_orders : OrderFree calmDb [1, 2] := by
  have hcfg : build_merged_config calmDb [1, 2] =
      some ((build_merged_config calmDb [1, 2]).getD {}) := rfl
  refine (wire_ids_do_not_depend_on_the_order_iff_each_keeps_its_number (by decide) hcfg).mpr ?_
  intro a ha k cp hk henc
  have hcases : ∀ a ∈ ([1, 2] : List Int), ∀ k < (loaded calmDb a).policies.length,
      ((loaded calmDb a).policies[k]?).map (·.action) ≠ some .bypass →
        ∃ r ∈ (own_wire_id calmDb a k).toList, first_come.Unreached 255 r (rivals calmDb [1, 2] a k) := by
    decide +kernel
  obtain ⟨hkl, -⟩ := List.getElem?_eq_some_iff.mp hk
  obtain ⟨r, hr, hunreached⟩ := hcases a ha k hkl (by
    rw [hk]
    exact fun h => henc (Option.some.inj h))
  exact ⟨r, Option.mem_toList.mp hr, hunreached⟩

/-- The bypass of the first profile takes the number 1 of the other one's policy. -/
def bypassDb : Db :=
  twoProfiles [samplePolicy 0 .bypass] [samplePolicy 1 .encrypt_l3] (by decide) (by decide)

theorem the_policy_1_is_2_behind_a_bypass_and_1_before_it :
    ¬OrderFree bypassDb [1, 2] ∧
      (build_merged_config bypassDb [1, 2]).bind (wire_id_of · 2 0) = some 2 ∧
      (build_merged_config bypassDb [2, 1]).bind (wire_id_of · 2 0) = some 1 := by
  refine ⟨fun h => ?_, rfl, rfl⟩
  have hsame := h [1, 2] [2, 1] _ _ (List.Perm.refl _) (List.Perm.swap _ _ _) rfl rfl 2
    (by decide) 0 (samplePolicy 1 .encrypt_l3) rfl (by decide)
  exact absurd hsame (by decide +kernel)

end ne_ip.wire_id_order
