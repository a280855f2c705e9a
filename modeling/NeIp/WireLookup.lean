-- The laws of the wire ids: the ids of a merged configuration, and what the
-- tables that are built for it find under them.
import NeIp.Sample

open ne_ip.packet_crypto ne_ip.config ne_ip.crypto_dispatch ne_ip.db_runtime ne_ip.forwarder
open ne_ip.sample

namespace ne_ip.wire_lookup

/-! ## The index -/

/-- The policy `pi` of the list has the action and the id. -/
def Carries (policies : List CryptoPolicy) (a : PolicyAction) (id : UInt8) (pi : Nat) : Prop :=
  ∃ cp, policies[pi]? = some cp ∧ cp.action = a ∧ cp.wire_id = id

/-- A table whose index holds the ready policies under their actions and ids and nothing else,
and in which the lookup of an id finds the one policy that carries it. -/
structure ExactLookup (t : PolicyTables) : Prop where
  index : ∀ a id pi, t.index_by_action_id a id = some pi ↔
    Carries t.policies a id pi ∧ t.ready pi = true
  lookup : ∀ a id pi, lookup_policy_index t a id = some pi ↔ Carries t.policies a id pi
  unique : ∀ a b id pi pj, Carries t.policies a id pi → Carries t.policies b id pj → pi = pj

theorem carries_unique {policies : List CryptoPolicy} (hd : DistinctWireIds policies)
    {a b : PolicyAction} {id : UInt8} {pi pj : Nat} (hi : Carries policies a id pi)
    (hj : Carries policies b id pj) : pi = pj := by
  obtain ⟨p, hp, -, hpid⟩ := hi
  obtain ⟨q, hq, -, hqid⟩ := hj
  exact hd.index_eq hp hq (hpid.trans hqid.symm)

/-- What a lookup gives carries the id that was looked up. -/
theorem lookup_policy_index_carries {t : PolicyTables}
    (hidx : ∀ a id pi, t.index_by_action_id a id = some pi → Carries t.policies a id pi)
    {a : PolicyAction} {id : UInt8} {pi : Nat} (h : lookup_policy_index t a id = some pi) :
    Carries t.policies a id pi := by
  have hfind : (t.policies.findIdx? fun cp => cp.action == a && cp.wire_id == id) = some pi →
      Carries t.policies a id pi := by
    intro hf
    rw [List.findIdx?_eq_some_iff_getElem] at hf
    obtain ⟨hlt, hmatch, -⟩ := hf
    simp only [Bool.and_eq_true, beq_iff_eq] at hmatch
    exact ⟨t.policies[pi], List.getElem?_eq_getElem hlt, hmatch.1, hmatch.2⟩
  unfold lookup_policy_index at h
  split at h
  · rename_i pj hentry
    split at h
    · obtain rfl := Option.some.inj h
      exact hidx a id _ hentry
    · exact hfind h
  · exact hfind h

/-- The tables of a rebuild for policies with distinct ids, whatever was there before. -/
theorem rebuild_exactLookup (o : Openssl) (tls : Tls) (cfg : AppConfig) (rt : Runtime)
    (hd : DistinctWireIds cfg.policies) :
    ExactLookup (rebuild_crypto_runtime o tls cfg rt).1.active := by
  have hentry := rebuild_loop_entry o tls rt.active rt.nonce_counter cfg.policies
  have hindexed := rebuild_loop_indexed o tls rt.active rt.nonce_counter cfg.policies
  have hcarries : ∀ a id pi,
      (rebuild_crypto_runtime o tls cfg rt).1.active.index_by_action_id a id = some pi →
        Carries cfg.policies a id pi := fun a id pi h => (hentry a id pi h).1
  refine ⟨?_, ?_, fun a b id pi pj => carries_unique hd⟩
  · intro a id pi
    constructor
    · exact hentry a id pi
    · rintro ⟨⟨cp, hcp, rfl, rfl⟩, hr⟩
      obtain ⟨pj, hpj⟩ := hindexed pi cp hcp hr
      obtain rfl := carries_unique hd (hcarries _ _ _ hpj) ⟨cp, hcp, rfl, rfl⟩
      exact hpj
  · intro a id pi
    constructor
    · exact lookup_policy_index_carries hcarries
    · rintro ⟨cp, hcp, rfl, rfl⟩
      exact lookup_policy_index_of_index hd hcarries hcp

/-! ## The law -/

/-- Every merged configuration has distinct ids in 1..255, a merge refuses a policy only when
the array is full, and the tables that are rebuilt for it are exact. -/
theorem wire_ids_are_distinct_and_their_lookup_is_exact {db : Db} {ids : List Int}
    {cfg : AppConfig} (h : build_merged_config db ids = some cfg) (o : Openssl) (tls : Tls)
    (rt : Runtime) :
    WireIds cfg ∧
      (∀ dst cp, (append_policy_unique dst cp).isSome = true ↔
        dst.policies.length < MAX_CRYPTO_POLICIES) ∧
      ExactLookup (rebuild_crypto_runtime o tls cfg rt).1.active :=
  ⟨build_merged_config_ids h, append_policy_unique_isSome,
    rebuild_exactLookup o tls cfg rt (build_merged_config_ids h).distinct⟩

/-- Profile 2 has a bypass policy and one for layer 3, which both ask for the id 7 that the policy
of profile 1 has. -/
def askedTwiceDb : Db := fun id =>
  if id = 2 then
    some {
      lans := some [[0x6c, 0x61, 0x6e, 0x31]]
      wans := some [([0x77, 0x61, 0x6e, 0x30], 0, 100)]
      policies := some [samplePolicy 7 .bypass, samplePolicy 7 .encrypt_l3]
      policies_le := by
        intro ps h
        rw [← Option.some.inj h]
        decide }
  else sampleDb id

def askedTwiceCfg : AppConfig := (build_merged_config askedTwiceDb [1, 2]).getD {}

theorem askedTwiceCfg_build : build_merged_config askedTwiceDb [1, 2] = some askedTwiceCfg := rfl

/-- The tables that are rebuilt for the two profiles. -/
def askedTwiceTables : PolicyTables :=
  (rebuild_crypto_runtime sampleOpenssl {} askedTwiceCfg Runtime.boot).1.active

/-- The policies of profile 2 get the ids 1 and 2. The bypass is not in the index and is found
among the policies. -/
theorem the_ids_of_the_sample_are_exact :
    (WireIds askedTwiceCfg ∧
      (∀ dst cp, (append_policy_unique dst cp).isSome = true ↔
        dst.policies.length < MAX_CRYPTO_POLICIES) ∧
      ExactLookup askedTwiceTables) ∧
    askedTwiceCfg.policies.map (fun cp => (cp.action, cp.id)) =
      [(.encrypt_l4, 7), (.bypass, 1), (.encrypt_l3, 2)] ∧
    askedTwiceTables.index_by_action_id .bypass 1 = none ∧
    lookup_policy_index askedTwiceTables .bypass 1 = some 1 ∧
    lookup_policy_index askedTwiceTables .encrypt_l3 2 = some 2 ∧
    lookup_policy_index askedTwiceTables .encrypt_l3 7 = none :=
  ⟨wire_ids_are_distinct_and_their_lookup_is_exact askedTwiceCfg_build sampleOpenssl {}
    Runtime.boot, rfl, rfl, by decide +kernel, by decide +kernel, by decide +kernel⟩

end ne_ip.wire_lookup
