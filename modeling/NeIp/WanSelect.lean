-- The WAN interface of a packet (select_wan_idx_for_packet in forwarder.c): one of the
-- profile of its LAN interface, or what the flow table says when there is none.
import NeIp.FlowTable
import NeIp.PolicySelect

open ne_ip.config ne_ip.flow ne_ip.flow_table ne_ip.policy_select

namespace ne_ip.wan_select

/-- The globals that a selection reads and changes. -/
structure WanPicker where
  g_pkt_wrr_seq : Nat
  next_wan : Int
  g_flow_table : FlowTable

/-- `wan_indices` and `wan_bandwidth_weight` side by side. A weight that was never written is 0. -/
def wan_entries (p : ProfileConfig) : List (Nat × Int) :=
  p.wan_indices.zipIdx.map fun w => (w.1, p.wan_bandwidth_weight.getD w.2 0)

/-- `any_weight`. -/
def any_weight (p : ProfileConfig) : Bool := (wan_entries p).any fun w => decide (0 < w.2)

/-- The arrays `allowed` and `weights`: the interfaces that there are, and when some weight is
positive only those with a positive one. -/
def allowed_wans (cfg : AppConfig) (p : ProfileConfig) : List (Nat × Int) :=
  ((wan_entries p).filter fun w =>
    decide (w.1 < cfg.wans.length) && !(any_weight p && decide (w.2 ≤ 0))).take MAX_INTERFACES

/-- The part of `select_wan_idx_for_packet` for a packet with a profile: the interface and
`g_pkt_wrr_seq`, or `none` when the flow table has to say. -/
def select_of_profile (cfg : AppConfig) (p : ProfileConfig) (g_pkt_wrr_seq : Nat) :
    Option (Nat × Nat) :=
  if 1 < p.wan_indices.length then
    match allowed_wans cfg p with
    | [] => none
    | [a] => some (a.1, g_pkt_wrr_seq)
    | allowed => some (flow_table_pick_wan_per_packet g_pkt_wrr_seq (any_weight p) allowed)
  else
    match p.wan_indices with
    | [wi] => if wi < cfg.wans.length then some (wi, g_pkt_wrr_seq) else none
    | _ => none

/-- At the time `now`: the interface and the globals after it; `undef` as in `flow_table_get_wan`. -/
def select_wan_idx_for_packet (undef : Int) (now : Nat) (cfg : AppConfig) (g : WanPicker)
    (local_idx : Nat) (f : FlowKey) (pkt_len : Nat) : Int × WanPicker :=
  match (config_select_profile_for_local cfg local_idx).bind fun pi =>
      (cfg.profiles[pi]?).bind fun p => select_of_profile cfg p g.g_pkt_wrr_seq with
  | some (wan, seq) => (wan, { g with g_pkt_wrr_seq := seq })
  | none =>
    let r := flow_table_get_wan undef now g.next_wan g.g_flow_table f pkt_len
    (r.1, { g with next_wan := r.2.1, g_flow_table := r.2.2 })

/-! ## The pickers stay in their list -/

theorem wrr_loop_mem {s acc : Int} {allowed : List (Nat × Int)} {wan : Nat}
    (h : wrr_loop s acc allowed = some wan) : wan ∈ allowed.map (·.1) := by
  induction allowed generalizing acc with
  | nil => simp [wrr_loop] at h
  | cons a rest ih =>
    obtain ⟨w, x⟩ := a
    rw [List.map_cons, List.mem_cons]
    unfold wrr_loop at h
    split at h
    · exact Or.inr (ih h)
    · dsimp only at h
      split at h
      · exact Or.inl (Option.some.inj h).symm
      · exact Or.inr (ih h)

theorem wrr_slot_to_wan_mem (slot sumw : Int) {allowed : List (Nat × Int)} (hne : allowed ≠ []) :
    wrr_slot_to_wan slot allowed sumw ∈ allowed.map (·.1) := by
  unfold wrr_slot_to_wan
  dsimp only
  cases hl : wrr_loop ((int32 (slot.tmod sumw + sumw)).tmod sumw) 0 allowed with
  | some wan => exact wrr_loop_mem hl
  | none =>
    have hmap : allowed.map (·.1) ≠ [] := by simpa using hne
    rw [Option.getD_none, List.getLastD_eq_getLast?, List.getLast?_eq_some_getLast hmap]
    exact List.getLast_mem hmap

theorem flow_table_pick_wan_per_packet_mem (seq : Nat) (weighted : Bool) {allowed : List (Nat × Int)}
    (hne : allowed ≠ []) :
    (flow_table_pick_wan_per_packet seq weighted allowed).1 ∈ allowed.map (·.1) := by
  unfold flow_table_pick_wan_per_packet
  split
  · exact absurd rfl hne
  · simp
  · dsimp only
    split
    · exact wrr_slot_to_wan_mem _ _ hne
    · have hlen : seq % allowed.length < (allowed.map (·.1)).length := by
        rw [List.length_map]
        exact Nat.mod_lt _ (List.length_pos_iff.mpr hne)
      rw [List.getD_eq_getElem _ _ hlen]
      exact List.getElem_mem hlen

/-! ## The allowed interfaces -/

theorem wan_entries_fst (p : ProfileConfig) : (wan_entries p).map (·.1) = p.wan_indices := by
  unfold wan_entries
  rw [List.map_map]
  exact List.zipIdx_map_fst 0 _

theorem length_wan_entries (p : ProfileConfig) :
    (wan_entries p).length = p.wan_indices.length := by
  rw [← wan_entries_fst p, List.length_map]

/-- What is allowed is an entry of the profile, with a positive weight when there is one. -/
theorem allowed_wans_sound {cfg : AppConfig} {p : ProfileConfig} {a : Nat × Int}
    (h : a ∈ allowed_wans cfg p) :
    a ∈ wan_entries p ∧ (any_weight p = true → 0 < a.2) := by
  unfold allowed_wans at h
  have hf := List.mem_of_mem_take h
  rw [List.mem_filter] at hf
  refine ⟨hf.1, fun hany => ?_⟩
  have hcond := hf.2
  simp only [hany, Bool.true_and, Bool.and_eq_true, Bool.not_eq_true', decide_eq_false_iff_not,
    not_le] at hcond
  exact hcond.2

/-- With interfaces that there are, something is allowed. -/
theorem allowed_wans_ne_nil {cfg : AppConfig} {p : ProfileConfig} (h1 : 1 ≤ p.wan_indices.length)
    (hvalid : ∀ wi ∈ p.wan_indices, wi < cfg.wans.length) : allowed_wans cfg p ≠ [] := by
  have hin : ∀ a ∈ wan_entries p, a.1 < cfg.wans.length := by
    intro a ha
    apply hvalid
    rw [← wan_entries_fst p]
    exact List.mem_map_of_mem ha
  -- some entry passes the filter
  obtain ⟨a, ha, hpass⟩ : ∃ a ∈ wan_entries p, (any_weight p = true → 0 < a.2) := by
    by_cases hany : any_weight p = true
    · have h := hany
      unfold any_weight at h
      obtain ⟨a, ha, hpos⟩ := List.any_eq_true.mp h
      exact ⟨a, ha, fun _ => of_decide_eq_true hpos⟩
    · have hlen : 0 < (wan_entries p).length := by
        rw [length_wan_entries]
        exact h1
      exact ⟨(wan_entries p)[0], List.getElem_mem hlen, fun h => absurd h hany⟩
  intro hnil
  unfold allowed_wans at hnil
  rw [List.take_eq_nil_iff] at hnil
  rcases hnil with h | h
  · exact absurd h (by decide)
  rw [List.filter_eq_nil_iff] at h
  apply h a ha
  by_cases hany : any_weight p = true
  · simp [hin a ha, hany, hpass hany]
  · simp [hin a ha, hany]

/-! ## The selection of a profile -/

/-- A selected interface is one of the profile's, with a positive weight when there is one. -/
structure SelectedFrom (p : ProfileConfig) (wan : Nat) : Prop where
  mem : wan ∈ p.wan_indices
  weight : any_weight p = true → ∃ a ∈ wan_entries p, a.1 = wan ∧ 0 < a.2

theorem selected_from_allowed {cfg : AppConfig} {p : ProfileConfig} {wan : Nat}
    (h : wan ∈ (allowed_wans cfg p).map (·.1)) : SelectedFrom p wan := by
  obtain ⟨a, ha, rfl⟩ := List.mem_map.mp h
  obtain ⟨hmem, hweight⟩ := allowed_wans_sound ha
  refine ⟨?_, fun hany => ⟨a, hmem, rfl, hweight hany⟩⟩
  rw [← wan_entries_fst p]
  exact List.mem_map_of_mem hmem

/-- A profile with valid interfaces always says which one. -/
theorem select_of_profile_some {cfg : AppConfig} {p : ProfileConfig} (seq : Nat)
    (h1 : 1 ≤ p.wan_indices.length) (hvalid : ∀ wi ∈ p.wan_indices, wi < cfg.wans.length) :
    ∃ wan seq', select_of_profile cfg p seq = some (wan, seq') ∧ SelectedFrom p wan := by
  unfold select_of_profile
  split
  · have hne := allowed_wans_ne_nil h1 hvalid
    have hfrom : ∀ wan ∈ (allowed_wans cfg p).map (·.1), SelectedFrom p wan := fun _ =>
      selected_from_allowed
    revert hne hfrom
    generalize allowed_wans cfg p = allowed
    intro hne hfrom
    split
    · exact absurd rfl hne
    · exact ⟨_, _, rfl, hfrom _ (by simp)⟩
    · exact ⟨_, _, rfl, hfrom _ (flow_table_pick_wan_per_packet_mem seq _ hne)⟩
  · rename_i hlen
    obtain ⟨wi, hwi⟩ := List.length_eq_one_iff.mp (show p.wan_indices.length = 1 by omega)
    have hlt : wi < cfg.wans.length := hvalid wi (by rw [hwi]; exact List.mem_singleton_self wi)
    refine ⟨wi, seq, ?_, ?_, ?_⟩
    · rw [hwi]
      exact if_pos hlt
    · rw [hwi]
      exact List.mem_singleton_self wi
    · intro hany
      have hent : wan_entries p = [(wi, p.wan_bandwidth_weight.getD 0 0)] := by
        unfold wan_entries
        rw [hwi]
        rfl
      unfold any_weight at hany
      rw [hent] at hany ⊢
      simp only [List.any_cons, List.any_nil, Bool.or_false, decide_eq_true_eq] at hany
      exact ⟨_, List.mem_singleton_self _, rfl, hany⟩

/-- Whatever the counters and the flow table hold, a packet leaves by an interface of the first
enabled profile that has its LAN interface, and by no unweighted one next to a weighted one. -/
theorem a_packet_leaves_by_a_wan_of_its_profile {cfg : AppConfig}
    (hwans : ∀ p ∈ cfg.profiles, p.enabled = true →
      1 ≤ p.wan_indices.length ∧ ∀ wi ∈ p.wan_indices, wi < cfg.wans.length)
    {local_idx : Nat} (hlocal : local_idx < cfg.locals.length)
    (hprofile : ∃ p ∈ cfg.profiles, p.enabled = true ∧ local_idx ∈ p.local_indices) (undef : Int)
    (now : Nat) (g : WanPicker) (f : FlowKey) (pkt_len : Nat) :
    ∃ (pi : Nat) (p : ProfileConfig) (wan : Nat), FirstProfile cfg local_idx pi p ∧
      (select_wan_idx_for_packet undef now cfg g local_idx f pkt_len).1 = (wan : Int) ∧
      SelectedFrom p wan := by
  obtain ⟨q, hq, hen, hmem⟩ := hprofile
  obtain ⟨pi, p, hpi, hfirst⟩ := first_profile_of_enabled hlocal hq hen hmem
  obtain ⟨h1, hvalid⟩ := hwans p (List.mem_of_getElem? hfirst.profile) hfirst.enabled
  obtain ⟨wan, seq', hsel, hfrom⟩ := select_of_profile_some g.g_pkt_wrr_seq h1 hvalid
  refine ⟨pi, p, wan, hfirst, ?_, hfrom⟩
  unfold select_wan_idx_for_packet
  rw [hpi, Option.bind_some, hfirst.profile, Option.bind_some, hsel]

/-- Three interfaces, of which the first has no weight and the last has two entries. -/
def weightedProfile : ProfileConfig where
  id := 1
  local_indices := [0]
  wan_indices := [0, 1, 2, 2]
  wan_bandwidth_weight := [0, 2, 1, 0]

def weightedCfg : AppConfig where
  locals := [{ ifname := [0x6c, 0x61, 0x6e, 0x30] }]
  wans := [{ ifname := [0x77, 0x61, 0x6e, 0x30] }, { ifname := [0x77, 0x61, 0x6e, 0x31] },
    { ifname := [0x77, 0x61, 0x6e, 0x32] }]
  profiles := [weightedProfile]

/-- The globals after `forwarder_init`. -/
def WanPicker.start : WanPicker where
  g_pkt_wrr_seq := 0
  next_wan := 0
  g_flow_table := { buckets := fun _ => [], wan_count := 3, wan_window_sizes := [] }

theorem a_packet_of_three_weighted_wans_leaves_by_one_of_them :
    ∃ (pi : Nat) (p : ProfileConfig) (wan : Nat), FirstProfile weightedCfg 0 pi p ∧
      (select_wan_idx_for_packet (-2) 5 weightedCfg WanPicker.start 0 ⟨1, 2, 3, 4, 6⟩ 60).1 =
        (wan : Int) ∧
      SelectedFrom p wan :=
  a_packet_leaves_by_a_wan_of_its_profile
    (by
      intro p hp _
      obtain rfl := List.mem_singleton.mp hp
      decide)
    (by decide) ⟨weightedProfile, List.mem_singleton_self _, rfl, by decide⟩ (-2) 5 _ _ 60

end ne_ip.wan_select
