-- The runtime of the forwarder (forwarder.c): the crypto tables that packets are
-- handled with, how init and hot reload replace them, and who gets to use them.
import NeIp.CryptoDispatch

open byte_buf ne_ip.packet_crypto ne_ip.config ne_ip.crypto_dispatch

namespace ne_ip.forwarder

def POLICY_RELOAD_GRACE_MS : Nat := 60000

/-- The globals of forwarder.c and packet_crypto.c, and the configuration in the slot that
`fwd->cfg` points to. `base_ctx` is `crypto_ctx`. -/
structure Runtime where
  fwd_cfg : AppConfig
  crypto_enabled : Bool
  crypto_layer : Nat
  base_ctx : PacketCryptoCtx
  active : PolicyTables
  prev : PolicyTables
  prev_grace_until_ms : Nat
  nonce_counter : Nat
  fake_ethertype_ipv4 : Nat

/-- The globals at process start: zeros, with no policies that the index could point to. -/
def Runtime.boot : Runtime :=
  let zero_ctx : PacketCryptoCtx :=
    { master_key := List.replicate AES_MAX_KEY_SIZE 0
      key_prev := List.replicate AES_MAX_KEY_SIZE 0
      key_current := List.replicate AES_MAX_KEY_SIZE 0
      key_next := List.replicate AES_MAX_KEY_SIZE 0
      initialized := false }
  let zero_tables : PolicyTables :=
    { policies := []
      ctx := fun _ => zero_ctx
      ready := fun _ => false
      index_by_action_id := fun _ _ => some 0 }
  { fwd_cfg := {}
    crypto_enabled := false
    crypto_layer := 0
    base_ctx := zero_ctx
    active := zero_tables
    prev := zero_tables
    prev_grace_until_ms := 0
    nonce_counter := 0
    fake_ethertype_ipv4 := 0 }

/-! ## The tables -/

def key_nonzero (cp : CryptoPolicy) : Bool := cp.key.toList.any (· != 0)

/-- The policies that get a context. -/
def wants_ctx (cp : CryptoPolicy) : Bool := cp.action != .bypass && key_nonzero cp

/-- The ready old context of the same policy, by its index. -/
def reusable (old : PolicyTables) (cp : CryptoPolicy) : Option Nat :=
  old.policies.zipIdx.findSome? fun q =>
    if old.ready q.2 && same_crypto_policy q.1 cp then some q.2 else none

/-- What the loop of `rebuild_crypto_runtime` has filled in so far. -/
structure Rebuild where
  ctx : Nat → PacketCryptoCtx
  ready : Nat → Bool
  index_by_action_id : PolicyAction → UInt8 → Option Nat
  nonce_counter : Nat
  has_encrypt_l2 : Bool

/-- The first policy of an action and id keeps its place in the index. -/
def Rebuild.add_index (s : Rebuild) (cp : CryptoPolicy) (pi : Nat) : Rebuild :=
  { s with
    index_by_action_id := fun a id =>
      if a = cp.action ∧ id = cp.wire_id ∧ s.index_by_action_id a id = none then some pi
      else s.index_by_action_id a id
    has_encrypt_l2 := s.has_encrypt_l2 || cp.action == .encrypt_l2 }

/-- One turn of the loop. A new context is initialised with the AES size of its policy, and
`packet_crypto_init` sets the nonce counter back. -/
def rebuild_policy (o : Openssl) (tls : Tls) (old : PolicyTables) (s : Rebuild)
    (q : CryptoPolicy × Nat) : Rebuild :=
  if !wants_ctx q.1 then s
  else
    match reusable old q.1 with
    | some oi =>
      Rebuild.add_index { s with
        ctx := fun i => if i = q.2 then old.ctx oi else s.ctx i
        ready := fun i => if i = q.2 then true else s.ready i } q.1 q.2
    | none =>
      let r := packet_crypto_init o { tls with aes_bits := q.1.aes_bits } q.1.key.toList
      let s := { s with
        ctx := fun i => if i = q.2 then r.2.1 else s.ctx i
        nonce_counter := r.2.2 }
      match r.1 with
      | none => s
      | some _ =>
        Rebuild.add_index { s with ready := fun i => if i = q.2 then true else s.ready i } q.1 q.2

def rebuild_loop (o : Openssl) (tls : Tls) (old : PolicyTables) (nonce_counter : Nat)
    (policies : List CryptoPolicy) : Rebuild :=
  policies.zipIdx.foldl (rebuild_policy o tls old)
    { ctx := old.ctx
      ready := fun _ => false
      index_by_action_id := fun _ _ => none
      nonce_counter := nonce_counter
      has_encrypt_l2 := false }

/-- The runtime after it and `has_encrypt_l2`. -/
def rebuild_crypto_runtime (o : Openssl) (tls : Tls) (cfg : AppConfig) (rt : Runtime) :
    Runtime × Bool :=
  let s := rebuild_loop o tls rt.active rt.nonce_counter cfg.policies
  ({ rt with
      active :=
        { policies := cfg.policies
          ctx := s.ctx
          ready := s.ready
          index_by_action_id := s.index_by_action_id }
      nonce_counter := s.nonce_counter },
    s.has_encrypt_l2)

def prev_policy_grace_active (rt : Runtime) (now : Nat) : Bool :=
  !rt.prev.policies.isEmpty && now != 0 && rt.prev_grace_until_ms != 0 &&
    decide (now ≤ rt.prev_grace_until_ms)

/-! ## Init and hot reload -/

/-- The queue counts that init and reload write into the slot. -/
def set_queue_counts (cfg : AppConfig) : AppConfig :=
  { cfg with
    locals := cfg.locals.map fun l => { l with queue_count := FORWARDER_XSK_QUEUE_COUNT }
    wans := cfg.wans.map fun w => { w with queue_count := FORWARDER_XSK_QUEUE_COUNT }
    locals_le := by rw [List.length_map]; exact cfg.locals_le
    wans_le := by rw [List.length_map]; exact cfg.wans_le }

/-- The snapshot of the active tables that `forwarder_init` takes before it replaces them. -/
def snapshot_prev (now : Nat) (rt : Runtime) : Runtime :=
  if rt.active.policies.isEmpty then
    { rt with
      prev := { rt.prev with
        policies := []
        ready := fun _ => false
        index_by_action_id := fun _ _ => none }
      prev_grace_until_ms := 0 }
  else
    { rt with
      prev := rt.active
      prev_grace_until_ms := (now + POLICY_RELOAD_GRACE_MS) % 2 ^ 64 }

/-- The crypto part of `forwarder_init`, at the time `now` of its `monotonic_ms()`: whether
it goes on, and the runtime. -/
def init_crypto (o : Openssl) (tls : Tls) (now : Nat) (cfg : AppConfig) (rt : Runtime) :
    Bool × Runtime :=
  let rt := { rt with
    fwd_cfg := set_queue_counts cfg
    crypto_enabled := cfg.crypto_enabled
    crypto_layer := cfg.encrypt_layer }
  if !cfg.crypto_enabled then (true, { rt with active := { rt.active with policies := [] } })
  else
    let rt := snapshot_prev now rt
    let r := packet_crypto_init o { tls with aes_bits := cfg.aes_bits } cfg.crypto_key.toList
    let rt := { rt with base_ctx := r.2.1, nonce_counter := r.2.2 }
    if r.1 = none then (false, rt)
    else
      let s := rebuild_crypto_runtime o tls cfg rt
      if s.2 then
        let fake := if cfg.fake_ethertype_ipv4 = 0 then 0x88b5 else cfg.fake_ethertype_ipv4
        (true, { s.1 with
          fwd_cfg := { s.1.fwd_cfg with fake_ethertype_ipv4 := fake }
          fake_ethertype_ipv4 := fake })
      else (true, s.1)

/-- What `forwarder_init` writes into the LAN entries: `addr i` is what the kernel tells of
interface `i`, when its ARP socket could be opened. -/
def fill_locals (addr : Nat → Option (UInt32 × Option UInt32)) (cfg : AppConfig) : AppConfig :=
  { cfg with
    locals := cfg.locals.mapIdx fun i l => local_config_fill_ipv4_from_iface (addr i) l
    locals_le := by rw [List.length_mapIdx]; exact cfg.locals_le }

/-- `forwarder_init` on a system where every interface comes up. -/
def forwarder_init (o : Openssl) (tls : Tls) (now : Nat)
    (addr : Nat → Option (UInt32 × Option UInt32)) (cfg : AppConfig) (rt : Runtime) :
    Bool × Runtime :=
  let r := init_crypto o tls now cfg rt
  if r.1 then (true, { r.2 with fwd_cfg := fill_locals addr r.2.fwd_cfg }) else r

/-- `forwarder_reload_config`; -1 is `none`. -/
def forwarder_reload_config (o : Openssl) (tls : Tls) (cfg : AppConfig) (rt : Runtime) :
    Option Runtime :=
  if !same_topology rt.fwd_cfg cfg then none
  else
    let need_crypto_reload := crypto_runtime_changed rt.fwd_cfg cfg
    let need_forwarding_reload := forwarding_runtime_changed rt.fwd_cfg cfg
    if !need_crypto_reload && !need_forwarding_reload then some { rt with fwd_cfg := cfg }
    else
      let rt := { rt with
        fwd_cfg := set_queue_counts cfg
        crypto_enabled := cfg.crypto_enabled
        crypto_layer := cfg.encrypt_layer }
      if cfg.crypto_enabled && need_crypto_reload then
        let s := rebuild_crypto_runtime o tls cfg rt
        if s.2 then some { s.1 with fake_ethertype_ipv4 := cfg.fake_ethertype_ipv4 }
        else some s.1
      else some rt

/-! ## Who uses the tables -/

/-- The `dctx` of `decrypt_packet_auto_by_action`: the policies are those of the slot, the
contexts and the index are the globals. -/
def dispatch_ctx (rt : Runtime) (now : Nat) : CryptoDispatchCtx where
  base_ctx := rt.base_ctx
  active := { rt.active with policies := rt.fwd_cfg.policies }
  prev := rt.prev
  prev_grace_active := prev_policy_grace_active rt now

/-- The lookup that the three resolvers make in one set of tables: the context of the
policy that the index gives, and the thread that has taken the policy over. -/
def resolve_in (t : PolicyTables) (action : PolicyAction) (policy_id : UInt8)
    (accepts : CryptoPolicy → Bool) (tls : Tls) : Option (PacketCryptoCtx × Tls) :=
  match t.index_by_action_id action policy_id with
  | none => none
  | some pi =>
    match t.policies[pi]? with
    | none => none
    | some cp =>
      if t.ready pi && accepts cp then some (t.ctx pi, crypto_apply_from_policy cp tls) else none

/-- What the resolvers do with a parsed id: the current tables, and during grace the
previous ones. -/
def resolve_policy (rt : Runtime) (now : Nat) (action : PolicyAction) (policy_id : UInt8)
    (accepts : CryptoPolicy → Bool) (tls : Tls) : Option (PacketCryptoCtx × Tls) :=
  match resolve_in (dispatch_ctx rt now).active action policy_id accepts tls with
  | some r => some r
  | none =>
    if prev_policy_grace_active rt now then resolve_in rt.prev action policy_id accepts tls
    else none

/-- A resolved policy is one that the caller accepts. -/
theorem resolve_policy_accepts {rt : Runtime} {now : Nat} {action : PolicyAction}
    {policy_id : UInt8} {accepts : CryptoPolicy → Bool} {tls tls' : Tls} {ctx : PacketCryptoCtx}
    (h : resolve_policy rt now action policy_id accepts tls = some (ctx, tls')) :
    ∃ cp, accepts cp = true ∧ tls' = crypto_apply_from_policy cp tls := by
  have hin : ∀ t : PolicyTables, resolve_in t action policy_id accepts tls = some (ctx, tls') →
      ∃ cp, accepts cp = true ∧ tls' = crypto_apply_from_policy cp tls := by
    intro t ht
    unfold resolve_in at ht
    split at ht
    · simp at ht
    split at ht
    · simp at ht
    rename_i cp _
    split at ht
    · rename_i hok
      exact ⟨cp, (Bool.and_eq_true_iff.mp hok).2, (Prod.mk.inj (Option.some.inj ht)).2.symm⟩
    · simp at ht
  unfold resolve_policy at h
  split at h
  · rename_i r hact
    rw [h] at hact
    exact hin _ hact
  split at h
  · exact hin _ h
  · simp at h

def forwarder_resolve_l3_decrypt_ctx (magic : UInt8) (rt : Runtime) (now : Nat) (tls : Tls)
    (pkt : Buf) (pkt_len : Nat) : Option (PacketCryptoCtx × Tls) :=
  if rt.fwd_cfg.policies = [] then some (rt.base_ctx, crypto_apply_default_from_cfg rt.fwd_cfg tls)
  else
    match crypto_l3_extract_policy_id magic tls rt.fwd_cfg pkt pkt_len with
    | none => none
    | some policy_id => resolve_policy rt now .encrypt_l3 policy_id (fun _ => true) tls

/-- The only one of the three that takes the id from its byte without a parser. -/
def forwarder_resolve_l2_decrypt_ctx (rt : Runtime) (now : Nat) (tls : Tls) (pkt : Buf) :
    Option (PacketCryptoCtx × Tls) :=
  if rt.fwd_cfg.policies = [] then some (rt.base_ctx, crypto_apply_default_from_cfg rt.fwd_cfg tls)
  else resolve_policy rt now .encrypt_l2 (pkt 13) (fun _ => true) tls

def forwarder_resolve_l4_decrypt_ctx (rt : Runtime) (now : Nat) (tls : Tls) (pkt : Buf)
    (pkt_len : Nat) : Option (PacketCryptoCtx × Tls) :=
  if rt.fwd_cfg.policies = [] then some (rt.base_ctx, crypto_apply_default_from_cfg rt.fwd_cfg tls)
  else
    match crypto_l4_extract_policy_id_ipv4 rt.fwd_cfg pkt pkt_len with
    | none => none
    | some (policy_id, nonce_size) =>
      resolve_policy rt now .encrypt_l4 policy_id
        (fun cp => cp.nonce_size != 0 && cp.nonce_size == nonce_size) tls

/-! ## What a rebuild makes -/

/-- A reused context belongs to a policy equal to the new one. -/
theorem reusable_some {old : PolicyTables} {cp : CryptoPolicy} {oi : Nat}
    (h : reusable old cp = some oi) : old.policies[oi]? = some cp ∧ old.ready oi = true := by
  unfold reusable at h
  obtain ⟨q, hq, hsome⟩ := List.exists_of_findSome?_eq_some h
  split at hsome
  · rename_i hc
    obtain rfl := Option.some.inj hsome
    simp only [Bool.and_eq_true, same_crypto_policy, beq_iff_eq] at hc
    rw [List.mem_zipIdx_iff_getElem?.mp hq, hc.2]
    exact ⟨rfl, hc.1⟩
  · simp at hsome

/-- What holds of the tables after every turn of the loop. -/
structure RebuildOf (o : Openssl) (policies : List CryptoPolicy) (s : Rebuild) : Prop where
  ctx_eq : CtxsOf o policies s.ctx s.ready
  index_eq : ∀ a id pi, s.index_by_action_id a id = some pi →
    ∃ cp, policies[pi]? = some cp ∧ cp.action = a ∧ cp.wire_id = id

/-- A turn that puts the policy's context in its place and enters it into the index. -/
theorem RebuildOf.add {o : Openssl} {policies : List CryptoPolicy} {s : Rebuild}
    (h : RebuildOf o policies s) {cp : CryptoPolicy} {pi : Nat} (hpi : policies[pi]? = some cp)
    {c : PacketCryptoCtx} (hc : c = init_ctx o cp.aes_bits cp.key.toList) (n : Nat) :
    RebuildOf o policies (Rebuild.add_index
      { s with
        ctx := fun i => if i = pi then c else s.ctx i
        ready := fun i => if i = pi then true else s.ready i
        nonce_counter := n } cp pi) := by
  refine ⟨?_, ?_⟩
  · intro i q hi hr
    by_cases hip : i = pi
    · subst hip
      rw [hpi] at hi
      obtain rfl := Option.some.inj hi
      simp [Rebuild.add_index, hc]
    · simp only [Rebuild.add_index, if_neg hip] at hr ⊢
      exact h.ctx_eq i q hi hr
  · intro a id i hidx
    simp only [Rebuild.add_index] at hidx
    split at hidx
    · rename_i hcond
      obtain rfl := Option.some.inj hidx
      exact ⟨cp, hpi, hcond.1.symm, hcond.2.1.symm⟩
    · exact h.index_eq a id i hidx

theorem rebuild_policy_of {o : Openssl} {tls : Tls} {old : PolicyTables}
    (hold : CtxsOf o old.policies old.ctx old.ready) {policies : List CryptoPolicy} {s : Rebuild}
    (h : RebuildOf o policies s) {q : CryptoPolicy × Nat} (hq : policies[q.2]? = some q.1) :
    RebuildOf o policies (rebuild_policy o tls old s q) := by
  unfold rebuild_policy
  split
  · exact h
  · split
    · rename_i oi hre
      obtain ⟨hop, hor⟩ := reusable_some hre
      exact h.add hq (hold oi q.1 hop hor) s.nonce_counter
    · simp only [packet_crypto_init]
      split
      · refine ⟨?_, h.index_eq⟩
        intro i cp hi hr
        by_cases hip : i = q.2
        · subst hip
          rw [hq] at hi
          obtain rfl := Option.some.inj hi
          simp
        · simp only [if_neg hip]
          exact h.ctx_eq i cp hi hr
      · exact h.add hq rfl 0

/-- After a rebuild the tables belong to the policies of the new configuration. -/
theorem rebuild_loop_of {o : Openssl} {tls : Tls} {old : PolicyTables}
    (hold : CtxsOf o old.policies old.ctx old.ready) (n : Nat) (policies : List CryptoPolicy) :
    RebuildOf o policies (rebuild_loop o tls old n policies) := by
  unfold rebuild_loop
  refine List.foldlRecOn _ _ ⟨?_, by simp⟩ ?_
  · intro pi cp _ hr
    simp at hr
  intro s hs q hq
  exact rebuild_policy_of hold hs (List.mem_zipIdx_iff_getElem?.mp hq)

theorem rebuild_crypto_runtime_tablesOf {o : Openssl} (tls : Tls) (cfg : AppConfig)
    {rt : Runtime} (h : CtxsOf o rt.active.policies rt.active.ctx rt.active.ready) :
    TablesOf o cfg.policies (rebuild_crypto_runtime o tls cfg rt).1.active where
  policies_eq := rfl
  ctx_eq := (rebuild_loop_of h rt.nonce_counter cfg.policies).ctx_eq
  index_eq := (rebuild_loop_of h rt.nonce_counter cfg.policies).index_eq

/-- The index has an entry for every ready policy. -/
def Indexed (policies : List CryptoPolicy) (ready : Nat → Bool)
    (index_by_action_id : PolicyAction → UInt8 → Option Nat) : Prop :=
  ∀ pi cp, policies[pi]? = some cp → ready pi = true →
    ∃ pj, index_by_action_id cp.action cp.wire_id = some pj

/-- A policy becomes ready together with its entry, and an entry stays. -/
theorem Indexed.add {policies : List CryptoPolicy} {s : Rebuild}
    (h : Indexed policies s.ready s.index_by_action_id) {cp : CryptoPolicy} {pi : Nat}
    (hpi : policies[pi]? = some cp) (ctx : Nat → PacketCryptoCtx) (n : Nat) :
    let t := Rebuild.add_index
      { s with ctx, ready := fun i => if i = pi then true else s.ready i, nonce_counter := n } cp pi
    Indexed policies t.ready t.index_by_action_id := by
  intro t i q hi hr
  have hkeep : ∀ a id pj, s.index_by_action_id a id = some pj → t.index_by_action_id a id = some pj := by
    intro a id pj hs
    simp only [t, Rebuild.add_index, hs, reduceCtorEq, and_false, if_false]
  by_cases hip : i = pi
  · subst hip
    rw [hpi] at hi
    obtain rfl := Option.some.inj hi
    cases hs : s.index_by_action_id cp.action cp.wire_id with
    | some pj => exact ⟨pj, hkeep _ _ _ hs⟩
    | none =>
      exact ⟨i, if_pos ⟨rfl, rfl, hs⟩⟩
  · simp only [t, Rebuild.add_index, if_neg hip] at hr
    obtain ⟨pj, hs⟩ := h i q hi hr
    exact ⟨pj, hkeep _ _ _ hs⟩

theorem rebuild_loop_indexed (o : Openssl) (tls : Tls) (old : PolicyTables) (n : Nat)
    (policies : List CryptoPolicy) :
    Indexed policies (rebuild_loop o tls old n policies).ready
      (rebuild_loop o tls old n policies).index_by_action_id := by
  unfold rebuild_loop
  refine List.foldlRecOn
    (motive := fun s : Rebuild => Indexed policies s.ready s.index_by_action_id) _ _ ?_ ?_
  · intro pi cp _ hr
    simp at hr
  intro s hs q hq
  have hqi := List.mem_zipIdx_iff_getElem?.mp hq
  unfold rebuild_policy
  split
  · exact hs
  split
  · exact hs.add hqi _ s.nonce_counter
  simp only [packet_crypto_init]
  split
  · exact hs
  · exact hs.add hqi _ 0

/-- An entry of the index points to a policy of its action and id that has a context. -/
theorem rebuild_loop_entry (o : Openssl) (tls : Tls) (old : PolicyTables) (n : Nat)
    (policies : List CryptoPolicy) (a : PolicyAction) (id : UInt8) (pi : Nat)
    (h : (rebuild_loop o tls old n policies).index_by_action_id a id = some pi) :
    (∃ cp, policies[pi]? = some cp ∧ cp.action = a ∧ cp.wire_id = id) ∧
      (rebuild_loop o tls old n policies).ready pi = true := by
  revert a id pi
  unfold rebuild_loop
  refine List.foldlRecOn
    (motive := fun s : Rebuild => ∀ a id pi, s.index_by_action_id a id = some pi →
      (∃ cp, policies[pi]? = some cp ∧ cp.action = a ∧ cp.wire_id = id) ∧ s.ready pi = true)
    _ _ ?_ ?_
  · intro a id pi h
    simp at h
  intro s hs q hq
  have hqi := List.mem_zipIdx_iff_getElem?.mp hq
  have hadd : ∀ (ctx : Nat → PacketCryptoCtx) (n : Nat) (a : PolicyAction) (id : UInt8) (pi : Nat),
      let t := Rebuild.add_index { s with
        ctx, ready := fun i => if i = q.2 then true else s.ready i, nonce_counter := n } q.1 q.2
      t.index_by_action_id a id = some pi →
        (∃ cp, policies[pi]? = some cp ∧ cp.action = a ∧ cp.wire_id = id) ∧ t.ready pi = true := by
    intro ctx n a id pi t h
    simp only [t, Rebuild.add_index] at h ⊢
    split at h
    · rename_i hc
      obtain rfl := Option.some.inj h
      exact ⟨⟨q.1, hqi, hc.1.symm, hc.2.1.symm⟩, if_pos rfl⟩
    · obtain ⟨hcp, hr⟩ := hs a id pi h
      exact ⟨hcp, by rw [hr, ite_self]⟩
  unfold rebuild_policy
  split
  · exact hs
  split
  · exact hadd _ s.nonce_counter
  simp only [packet_crypto_init]
  split
  · exact hs
  · exact hadd _ 0

/-! ## What init does -/

/-- Everything that a completed init with crypto does to the tables: they are rebuilt for
the new policies, and the old ones become the previous ones. -/
theorem init_crypto_some {o : Openssl} {tls : Tls} {now : Nat} {cfg : AppConfig}
    {rt rt' : Runtime} (h : init_crypto o tls now cfg rt = (true, rt'))
    (hen : cfg.crypto_enabled = true) :
    rt'.fwd_cfg.policies = cfg.policies ∧
    rt'.active = (rebuild_crypto_runtime o tls cfg { rt with nonce_counter := 0 }).1.active ∧
    rt'.prev = (snapshot_prev now rt).prev ∧
    rt'.prev_grace_until_ms = (snapshot_prev now rt).prev_grace_until_ms := by
  unfold init_crypto at h
  rw [hen] at h
  cases he : rt.active.policies.isEmpty with
  | true =>
    simp only [snapshot_prev, he, Bool.not_true, Bool.false_eq_true, if_false, if_true] at h ⊢
    split at h
    · simp at h
    · split at h <;> obtain rfl := (Prod.mk.inj h).2 <;> exact ⟨rfl, rfl, rfl, rfl⟩
  | false =>
    simp only [snapshot_prev, he, Bool.not_true, Bool.false_eq_true, if_false] at h ⊢
    split at h
    · simp at h
    · split at h <;> obtain rfl := (Prod.mk.inj h).2 <;> exact ⟨rfl, rfl, rfl, rfl⟩

/-- The settings that packets are handled with are those of the configuration. -/
theorem init_crypto_settings {o : Openssl} {tls : Tls} {now : Nat} {cfg : AppConfig}
    {rt rt' : Runtime} (h : init_crypto o tls now cfg rt = (true, rt')) :
    rt'.crypto_enabled = cfg.crypto_enabled ∧ rt'.crypto_layer = cfg.encrypt_layer ∧
      rt'.fwd_cfg.encrypt_layer = cfg.encrypt_layer ∧
      rt'.fwd_cfg.fake_protocol = cfg.fake_protocol ∧
      rt'.fwd_cfg.nonce_size = cfg.nonce_size := by
  rw [← show (init_crypto o tls now cfg rt).2 = rt' by rw [h]]
  unfold init_crypto snapshot_prev rebuild_crypto_runtime
  cases hen : cfg.crypto_enabled with
  | false => exact ⟨rfl, rfl, rfl, rfl, rfl⟩
  | true =>
    cases he : rt.active.policies.isEmpty <;>
      simp only [he, Bool.not_true, Bool.false_eq_true, if_false, if_true] <;> split
    · exact ⟨rfl, rfl, rfl, rfl, rfl⟩
    · split <;> exact ⟨rfl, rfl, rfl, rfl, rfl⟩
    · exact ⟨rfl, rfl, rfl, rfl, rfl⟩
    · split <;> exact ⟨rfl, rfl, rfl, rfl, rfl⟩

/-! ## What a reload does -/

/-- The condition under which a reload rebuilds the tables. -/
def rebuilds (rt : Runtime) (cfg : AppConfig) : Bool :=
  cfg.crypto_enabled && crypto_runtime_changed rt.fwd_cfg cfg

/-- Everything that an accepted reload does: the slot changes, the tables and the nonce
counter change only by a rebuild, and the previous tables do not change. -/
theorem forwarder_reload_config_some {o : Openssl} {tls : Tls} {cfg : AppConfig}
    {rt rt' : Runtime} (h : forwarder_reload_config o tls cfg rt = some rt') :
    same_topology rt.fwd_cfg cfg = true ∧
    (rt'.fwd_cfg = cfg ∨ rt'.fwd_cfg = set_queue_counts cfg) ∧
    rt'.prev = rt.prev ∧ rt'.prev_grace_until_ms = rt.prev_grace_until_ms ∧
    ((rebuilds rt cfg = false ∧ rt'.active = rt.active ∧
        rt'.nonce_counter = rt.nonce_counter) ∨
      (rebuilds rt cfg = true ∧ rt'.active = (rebuild_crypto_runtime o tls cfg rt).1.active ∧
        rt'.nonce_counter = (rebuild_crypto_runtime o tls cfg rt).1.nonce_counter)) := by
  unfold forwarder_reload_config at h
  split at h
  · simp at h
  rename_i htop
  have htop' : same_topology rt.fwd_cfg cfg = true := by simpa using htop
  simp only at h
  split at h
  · rename_i hsame
    obtain rfl := Option.some.inj h
    have hno : rebuilds rt cfg = false := by
      unfold rebuilds
      simp only [Bool.and_eq_true, Bool.not_eq_true'] at hsame
      rw [hsame.1, Bool.and_false]
    exact ⟨htop', Or.inl rfl, rfl, rfl, Or.inl ⟨hno, rfl, rfl⟩⟩
  split at h
  · rename_i hre
    split at h
    · obtain rfl := Option.some.inj h
      exact ⟨htop', Or.inr rfl, rfl, rfl, Or.inr ⟨hre, rfl, rfl⟩⟩
    · obtain rfl := Option.some.inj h
      exact ⟨htop', Or.inr rfl, rfl, rfl, Or.inr ⟨hre, rfl, rfl⟩⟩
  · rename_i hre
    obtain rfl := Option.some.inj h
    exact ⟨htop', Or.inr rfl, rfl, rfl, Or.inl ⟨Bool.eq_false_iff.mpr hre, rfl, rfl⟩⟩

/-- A reload is accepted exactly when the interfaces stay. -/
theorem forwarder_reload_config_isSome (o : Openssl) (tls : Tls) (cfg : AppConfig)
    (rt : Runtime) :
    (forwarder_reload_config o tls cfg rt).isSome = same_topology rt.fwd_cfg cfg := by
  unfold forwarder_reload_config
  cases htop : same_topology rt.fwd_cfg cfg with
  | false => rfl
  | true =>
    simp only [Bool.not_true, Bool.false_eq_true, if_false]
    split
    · rfl
    · split
      · split <;> rfl
      · rfl

/-- Init writes into the slot, but not into its profiles. -/
theorem forwarder_init_profiles (o : Openssl) (tls : Tls) (now : Nat)
    (addr : Nat → Option (UInt32 × Option UInt32)) (cfg : AppConfig) (rt : Runtime) :
    (forwarder_init o tls now addr cfg rt).2.fwd_cfg.profiles = cfg.profiles := by
  have hcrypto : (init_crypto o tls now cfg rt).2.fwd_cfg.profiles = cfg.profiles := by
    unfold init_crypto snapshot_prev rebuild_crypto_runtime
    cases cfg.crypto_enabled with
    | false => rfl
    | true =>
      cases he : rt.active.policies.isEmpty <;>
        simp only [he, Bool.not_true, Bool.false_eq_true, if_false, if_true] <;> split
      · rfl
      · split <;> rfl
      · rfl
      · split <;> rfl
  unfold forwarder_init
  dsimp only
  split
  · exact hcrypto
  · exact hcrypto

/-- The policies that a rebuild has to initialise a context for. -/
def needs_new_ctx (old : PolicyTables) (cp : CryptoPolicy) : Bool :=
  wants_ctx cp && (reusable old cp).isNone

theorem rebuild_policy_nonce_counter (o : Openssl) (tls : Tls) (old : PolicyTables) (s : Rebuild)
    (q : CryptoPolicy × Nat) :
    (rebuild_policy o tls old s q).nonce_counter =
      if needs_new_ctx old q.1 then 0 else s.nonce_counter := by
  unfold rebuild_policy needs_new_ctx
  cases hw : wants_ctx q.1 with
  | false => rfl
  | true =>
    cases hre : reusable old q.1 with
    | some oi => rfl
    | none =>
      simp only [Bool.not_true, Bool.false_eq_true, if_false, Option.isNone_none, Bool.and_self,
        if_true]
      split <;> rfl

/-- A rebuild sets the nonce counter back exactly when it initialises a context. -/
theorem rebuild_loop_nonce_counter (o : Openssl) (tls : Tls) (old : PolicyTables) (n : Nat)
    (policies : List CryptoPolicy) :
    (rebuild_loop o tls old n policies).nonce_counter =
      if policies.any (needs_new_ctx old) then 0 else n := by
  have hfold : ∀ (qs : List (CryptoPolicy × Nat)) (s : Rebuild),
      (qs.foldl (rebuild_policy o tls old) s).nonce_counter =
        if (qs.map Prod.fst).any (needs_new_ctx old) then 0 else s.nonce_counter := by
    intro qs
    induction qs with
    | nil => intro s; rfl
    | cons q qs ih =>
      intro s
      rw [List.foldl_cons, ih, rebuild_policy_nonce_counter, List.map_cons, List.any_cons]
      cases needs_new_ctx old q.1 with
      | false => rw [Bool.false_or, if_neg Bool.false_ne_true]
      | true => rw [Bool.true_or, if_pos rfl, ite_self]
  unfold rebuild_loop
  rw [hfold, List.zipIdx_map_fst]

end ne_ip.forwarder
