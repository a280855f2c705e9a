-- Which profile a LAN interface belongs to and which policy a packet of it gets
-- (config.c, crypto_policy_utils.c).
import NeIp.Config
import NeIp.Flow

open ne_ip.config ne_ip.flow

namespace ne_ip.policy_select

def POLICY_PROTO_ANY : UInt8 := 0

/-- The first enabled profile that has the interface; -1 is `none`. -/
def config_select_profile_for_local (cfg : AppConfig) (local_idx : Nat) : Option Nat :=
  if cfg.locals.length ≤ local_idx then none
  else cfg.profiles.findIdx? fun p => p.enabled && p.local_indices.contains local_idx

/-! ## The match of one policy -/

def cidr_match_with_negate (any_flag negate : Bool) (ip net mask : UInt32) : Bool :=
  if any_flag then true
  else
    let in_cidr := (ip &&& mask) == (net &&& mask)
    if negate then !in_cidr else in_cidr

/-- The test of a port, which is not made when a bound is not given. -/
def port_match (port_from port_to : Int) (port : Nat) : Bool :=
  if 0 ≤ port_from ∧ 0 ≤ port_to then decide (port_from ≤ port ∧ (port : Int) ≤ port_to) else true

def crypto_policy_match_packet (cp : CryptoPolicy) (f : FlowKey) : Bool :=
  cidr_match_with_negate cp.src_any cp.src_negate f.src_ip cp.src_net cp.src_mask &&
    cidr_match_with_negate cp.dst_any cp.dst_negate f.dst_ip cp.dst_net cp.dst_mask &&
    port_match cp.src_port_from cp.src_port_to f.src_port &&
    port_match cp.dst_port_from cp.dst_port_to f.dst_port &&
    (cp.protocol == POLICY_PROTO_ANY || cp.protocol == f.protocol)

/-- The way back. -/
def reverse (f : FlowKey) : FlowKey :=
  { f with
    src_ip := f.dst_ip
    dst_ip := f.src_ip
    src_port := f.dst_port
    dst_port := f.src_port }

/-! ## The selection -/

/-- A policy that a pass takes: the first pass takes those with a protocol, the second those
for any. -/
def taken_in_pass (any : Bool) (f : FlowKey) (cp : CryptoPolicy) : Bool :=
  (cp.protocol == POLICY_PROTO_ANY) == any &&
    (crypto_policy_match_packet cp f || crypto_policy_match_packet cp (reverse f))

/-- One pass over the policies of a profile. -/
def select_pass (cfg : AppConfig) (p : ProfileConfig) (any : Bool) (f : FlowKey) : Option Nat :=
  p.policy_indices.find? fun pi => (cfg.policies[pi]?).any (taken_in_pass any f)

/-- The index of the policy; a null pointer is `none`. -/
def config_select_crypto_policy (cfg : AppConfig) (profile_idx : Nat) (f : FlowKey) : Option Nat :=
  (cfg.profiles[profile_idx]?).bind fun p => (select_pass cfg p false f).or (select_pass cfg p true f)

def crypto_select_policy_for_local (cfg : AppConfig) (local_idx : Nat) (f : FlowKey) : Option Nat :=
  (config_select_profile_for_local cfg local_idx).bind fun pi => config_select_crypto_policy cfg pi f

/-! ## What is selected -/

/-- The first enabled profile with the interface. -/
structure FirstProfile (cfg : AppConfig) (local_idx pi : Nat) (p : ProfileConfig) : Prop where
  profile : cfg.profiles[pi]? = some p
  enabled : p.enabled = true
  has_local : local_idx ∈ p.local_indices
  first : ∀ pj q, pj < pi → cfg.profiles[pj]? = some q → q.enabled = true →
    local_idx ∉ q.local_indices

theorem config_select_profile_for_local_some {cfg : AppConfig} {local_idx pi : Nat}
    (h : config_select_profile_for_local cfg local_idx = some pi) :
    ∃ p, FirstProfile cfg local_idx pi p := by
  unfold config_select_profile_for_local at h
  split at h
  · simp at h
  obtain ⟨hlt, hfound, hfirst⟩ := List.findIdx?_eq_some_iff_getElem.mp h
  simp only [Bool.and_eq_true, List.contains_iff_mem] at hfound
  refine ⟨cfg.profiles[pi], List.getElem?_eq_getElem hlt, hfound.1, hfound.2, ?_⟩
  intro pj q hpj hq hen hmem
  obtain ⟨hpj', rfl⟩ := List.getElem?_eq_some_iff.mp hq
  have hno := hfirst pj hpj
  simp only [Bool.and_eq_true, List.contains_iff_mem, not_and] at hno
  exact hno hen hmem

/-- An interface of an enabled profile has a first one. -/
theorem first_profile_of_enabled {cfg : AppConfig} {local_idx : Nat} {p : ProfileConfig}
    (hlocal : local_idx < cfg.locals.length) (hp : p ∈ cfg.profiles) (hen : p.enabled = true)
    (hmem : local_idx ∈ p.local_indices) :
    ∃ pi q, config_select_profile_for_local cfg local_idx = some pi ∧
      FirstProfile cfg local_idx pi q := by
  have hsome : (config_select_profile_for_local cfg local_idx).isSome := by
    unfold config_select_profile_for_local
    rw [if_neg (by omega), List.findIdx?_isSome, List.any_eq_true]
    exact ⟨p, hp, by simp [hen, hmem]⟩
  obtain ⟨pi, hpi⟩ := Option.isSome_iff_exists.mp hsome
  obtain ⟨q, hq⟩ := config_select_profile_for_local_some hpi
  exact ⟨pi, q, hpi, hq⟩

/-! ## The order of the policies -/

/-- A policy that the packet matches on its way there or on its way back. -/
def matches_flow (f : FlowKey) (cp : CryptoPolicy) : Bool :=
  crypto_policy_match_packet cp f || crypto_policy_match_packet cp (reverse f)

/-- The policies of a profile for one protocol, or those for any, as they stand in its list. -/
def policies_for (cfg : AppConfig) (p : ProfileConfig) (any : Bool) : List (Nat × CryptoPolicy) :=
  (p.policy_indices.filterMap fun pi => (cfg.policies[pi]?).map fun cp => (pi, cp)).filter
    fun q => (q.2.protocol == POLICY_PROTO_ANY) == any

/-- The order of the selection: the policies for one protocol come first. -/
def policy_order (cfg : AppConfig) (p : ProfileConfig) : List (Nat × CryptoPolicy) :=
  policies_for cfg p false ++ policies_for cfg p true

@[simp] theorem reverse_reverse (f : FlowKey) : reverse (reverse f) = f := rfl

theorem matches_flow_reverse (f : FlowKey) : matches_flow (reverse f) = matches_flow f := by
  funext cp
  unfold matches_flow
  rw [reverse_reverse, Bool.or_comm]

/-- A pass takes the first of its policies that the packet matches; an index without a policy
is skipped. -/
theorem select_pass_eq (cfg : AppConfig) (p : ProfileConfig) (any : Bool) (f : FlowKey) :
    select_pass cfg p any f =
      ((policies_for cfg p any).find? fun q => matches_flow f q.2).map (·.1) := by
  have htaken : ∀ q : Nat × CryptoPolicy,
      decide (((q.2.protocol == POLICY_PROTO_ANY) == any) = true ∧ matches_flow f q.2 = true) =
        taken_in_pass any f q.2 := by
    intro q
    unfold taken_in_pass matches_flow
    rw [Bool.decide_and, Bool.decide_eq_true, Bool.decide_eq_true]
  unfold select_pass policies_for
  rw [List.find?_filter]
  simp only [htaken]
  induction p.policy_indices with
  | nil => rfl
  | cons pi rest ih =>
    rw [List.find?_cons, List.filterMap_cons]
    cases hcp : cfg.policies[pi]? with
    | none => exact ih
    | some cp =>
      simp only [Option.map_some, Option.any_some, List.find?_cons]
      split
      · rfl
      · exact ih

theorem config_select_crypto_policy_eq (cfg : AppConfig) (profile_idx : Nat) (f : FlowKey) :
    config_select_crypto_policy cfg profile_idx f =
      (cfg.profiles[profile_idx]?).bind fun p =>
        ((policy_order cfg p).find? fun q => matches_flow f q.2).map (·.1) := by
  unfold config_select_crypto_policy policy_order
  congr 1
  funext p
  rw [select_pass_eq, select_pass_eq, List.find?_append, Option.map_or]

/-- What the order holds: the policies that the indices of the profile name. -/
theorem mem_policy_order {cfg : AppConfig} {p : ProfileConfig} {pi : Nat} {cp : CryptoPolicy} :
    (pi, cp) ∈ policy_order cfg p ↔ pi ∈ p.policy_indices ∧ cfg.policies[pi]? = some cp := by
  have hmem : ∀ any, (pi, cp) ∈ policies_for cfg p any ↔
      (pi ∈ p.policy_indices ∧ cfg.policies[pi]? = some cp) ∧
        (cp.protocol == POLICY_PROTO_ANY) = any := by
    intro any
    unfold policies_for
    rw [List.mem_filter, List.mem_filterMap, beq_iff_eq]
    refine and_congr_left fun _ => ⟨?_, fun h => ⟨pi, h.1, by rw [h.2]; rfl⟩⟩
    rintro ⟨pj, hpj, hmap⟩
    obtain ⟨cq, hcq, heq⟩ := Option.map_eq_some_iff.mp hmap
    obtain ⟨rfl, rfl⟩ := Prod.mk.inj heq
    exact ⟨hpj, hcq⟩
  unfold policy_order
  rw [List.mem_append, hmem, hmem, ← and_or_left]
  refine and_iff_left ?_
  cases cp.protocol == POLICY_PROTO_ANY with
  | true => exact Or.inr rfl
  | false => exact Or.inl rfl

/-- The selection takes the first policy in the order of the profile that the packet matches in
either direction, and none exactly when there is no such policy; the way back gets the same
policy and with it the same key. -/
theorem the_first_policy_that_matches_either_way_is_selected (cfg : AppConfig) (profile_idx : Nat)
    (f : FlowKey) :
    (∀ pi, config_select_crypto_policy cfg profile_idx f = some pi ↔
      ∃ p before cp after, cfg.profiles[profile_idx]? = some p ∧
        policy_order cfg p = before ++ (pi, cp) :: after ∧ matches_flow f cp = true ∧
        ∀ q ∈ before, matches_flow f q.2 = false) ∧
    (config_select_crypto_policy cfg profile_idx f = none ↔
      ∀ p, cfg.profiles[profile_idx]? = some p → ∀ pi ∈ p.policy_indices, ∀ cp,
        cfg.policies[pi]? = some cp → matches_flow f cp = false) ∧
    config_select_crypto_policy cfg profile_idx (reverse f) =
      config_select_crypto_policy cfg profile_idx f ∧
    ((config_select_crypto_policy cfg profile_idx (reverse f)).bind fun pi =>
        (cfg.policies[pi]?).map (·.key)) =
      (config_select_crypto_policy cfg profile_idx f).bind fun pi =>
        (cfg.policies[pi]?).map (·.key) := by
  have hreverse : config_select_crypto_policy cfg profile_idx (reverse f) =
      config_select_crypto_policy cfg profile_idx f := by
    rw [config_select_crypto_policy_eq, config_select_crypto_policy_eq, matches_flow_reverse]
  refine ⟨fun pi => ?_, ?_, hreverse, by rw [hreverse]⟩
  · rw [config_select_crypto_policy_eq, Option.bind_eq_some_iff]
    constructor
    · rintro ⟨p, hp, hfind⟩
      obtain ⟨q, hq, rfl⟩ := Option.map_eq_some_iff.mp hfind
      obtain ⟨hmatch, before, after, horder, hbefore⟩ := List.find?_eq_some_iff_append.mp hq
      exact ⟨p, before, q.2, after, hp, horder, hmatch, fun r hr => by simpa using hbefore r hr⟩
    · rintro ⟨p, before, cp, after, hp, horder, hmatch, hbefore⟩
      have hfind : (policy_order cfg p).find? (fun q => matches_flow f q.2) = some (pi, cp) :=
        List.find?_eq_some_iff_append.mpr
          ⟨hmatch, before, after, horder, fun r hr => by simpa using hbefore r hr⟩
      exact ⟨p, hp, by rw [hfind]; rfl⟩
  · rw [config_select_crypto_policy_eq, Option.bind_eq_none_iff]
    refine forall_congr' fun p => imp_congr_right fun _ => ?_
    rw [Option.map_eq_none_iff, List.find?_eq_none]
    constructor
    · intro h pi hpi cp hcp
      simpa using h (pi, cp) (mem_policy_order.mpr ⟨hpi, hcp⟩)
    · intro h q hq
      obtain ⟨hpi, hcp⟩ := mem_policy_order.mp hq
      simpa using h q.1 hpi q.2 hcp

end ne_ip.policy_select
