-- The laws of nonces over a run of the daemon: encryptions on all threads draw
-- from one counter, and a reload that initialises a context sets it back.
import NeIp.Runs
import NeIp.Sample

open byte_buf runs ne_ip.packet_crypto ne_ip.tunnel ne_ip.config ne_ip.crypto_layer2
open ne_ip.crypto_layer3 ne_ip.crypto_layer4 ne_ip.crypto_dispatch ne_ip.forwarder ne_ip.sample

namespace ne_ip.nonce_use

/-! ## Encryptions and reloads as steps -/

/-- A call of one of the six functions that encrypt, with its arguments. -/
inductive EncryptCall where
  | layer2 (packet : Buf) (pkt_len : Nat)
  | layer3 (packet : Buf) (pkt_len : Nat)
  | layer4 (packet : Buf) (pkt_len : Nat)
  | fragment2 (eth_hdr enc_plain : Bytes) (pkt_id : Nat) (frag_index : UInt8) (out_buf : Buf)
      (out_max : Nat)
  | fragment3 (eth_hdr ip_hdr enc_plain : Bytes) (pkt_id : Nat) (frag_index : UInt8)
      (out_buf : Buf) (out_max : Nat)
  | fragment4 (eth_hdr ip_hdr wire_ports enc_plain : Bytes) (pkt_id : Nat) (frag_index : UInt8)
      (out_buf : Buf) (out_max : Nat)

def EncryptCall.run (o : Openssl) (fake : Nat) (tls : Tls) (ctx : PacketCryptoCtx)
    (counter : Nat) : EncryptCall → EncResult
  | .layer2 packet pkt_len => crypto_layer2_encrypt o fake tls ctx counter packet pkt_len
  | .layer3 packet pkt_len => crypto_layer3_encrypt o tls ctx counter packet pkt_len
  | .layer4 packet pkt_len => crypto_layer4_encrypt o tls ctx counter packet pkt_len
  | .fragment2 eth_hdr enc_plain pkt_id frag_index out_buf out_max =>
    crypto_layer2_encrypt_fragment_single o fake tls ctx counter eth_hdr enc_plain pkt_id frag_index
      out_buf out_max
  | .fragment3 eth_hdr ip_hdr enc_plain pkt_id frag_index out_buf out_max =>
    crypto_layer3_encrypt_fragment_single o tls ctx counter eth_hdr ip_hdr enc_plain pkt_id
      frag_index out_buf out_max
  | .fragment4 eth_hdr ip_hdr wire_ports enc_plain pkt_id frag_index out_buf out_max =>
    crypto_layer4_encrypt_fragment_single o tls ctx counter eth_hdr ip_hdr wire_ports enc_plain
      pkt_id frag_index out_buf out_max

theorem EncryptCall.run_oneNonce (o : Openssl) (fake : Nat) (tls : Tls) (ctx : PacketCryptoCtx)
    (counter : Nat) (call : EncryptCall) :
    OneNonce tls ctx counter (call.run o fake tls ctx counter) := by
  cases call with
  | layer2 => exact crypto_layer2_encrypt_oneNonce _ _ _ _ _ _ _
  | layer3 => exact crypto_layer3_encrypt_oneNonce _ _ _ _ _ _
  | layer4 => exact crypto_layer4_encrypt_oneNonce _ _ _ _ _ _
  | fragment2 => exact crypto_layer2_encrypt_fragment_single_oneNonce _ _ _ _ _ _ _ _ _ _ _
  | fragment3 => exact crypto_layer3_encrypt_fragment_single_oneNonce _ _ _ _ _ _ _ _ _ _ _
  | fragment4 => exact crypto_layer4_encrypt_fragment_single_oneNonce _ _ _ _ _ _ _ _ _ _ _ _

/-- What happens in the daemon: thread `thread` encrypts under the policy with index `pi`, with
the settings `tls` it has taken over, or a reload replaces the configuration. -/
inductive Event where
  | encrypt (thread : Nat) (tls : Tls) (pi : Nat) (call : EncryptCall)
  | reload (tls : Tls) (cfg : AppConfig)

/-- The runtime, and the keys and nonces of all encryptions so far. -/
structure State where
  rt : Runtime
  used : List (Bytes × Bytes) := []

/-- One step. The salt of a thread is drawn once and stays; the context of the policy has to be
ready, and a reload has to be accepted. -/
def step (o : Openssl) (salt : Nat → Buf) (s : State) : Event → Option State
  | .encrypt thread tls pi call =>
    if s.rt.active.ready pi ∧ 4 ≤ tls.nonce_size ∧ tls.nonce_size ≤ 16 then
      let r := call.run o s.rt.fake_ethertype_ipv4 { tls with nonce_salt := salt thread }
        (s.rt.active.ctx pi) s.rt.nonce_counter
      some { rt := { s.rt with nonce_counter := r.counter }, used := s.used ++ r.used }
    else none
  | .reload tls cfg => (forwarder_reload_config o tls cfg s.rt).map fun rt => { s with rt }

def Step (o : Openssl) (salt : Nat → Buf) (s : State) (e : Event) (t : State) : Prop :=
  step o salt s e = some t

/-- The encryptions of a run. -/
def encryptions (es : List Event) : Nat :=
  es.countP fun e => match e with
    | .encrypt .. => true
    | .reload .. => false

/-! ## What a step does to the counter -/

/-- A reload that leaves the counter where it is: it rebuilds nothing, or it finds an old
context for every policy that wants one, or nothing was drawn from the counter yet. -/
def KeepsCounter (rt : Runtime) (cfg : AppConfig) : Prop :=
  rebuilds rt cfg = true → cfg.policies.any (needs_new_ctx rt.active) = true →
    rt.nonce_counter = 0

theorem reload_nonce_counter {o : Openssl} {tls : Tls} {cfg : AppConfig} {rt rt' : Runtime}
    (h : forwarder_reload_config o tls cfg rt = some rt') :
    rt'.nonce_counter =
      if rebuilds rt cfg ∧ cfg.policies.any (needs_new_ctx rt.active) then 0
      else rt.nonce_counter := by
  obtain ⟨-, -, -, -, ⟨hre, -, hc⟩ | ⟨hre, -, hc⟩⟩ := forwarder_reload_config_some h
  · rw [hc, hre, if_neg (fun h => Bool.false_ne_true h.1)]
  · rw [hc, hre]
    unfold rebuild_crypto_runtime
    dsimp only
    rw [rebuild_loop_nonce_counter]
    simp only [true_and]

/-- `KeepsCounter` is exactly the condition that the reload leaves the counter alone. -/
theorem reload_keeps_counter_iff {o : Openssl} {tls : Tls} {cfg : AppConfig} {rt rt' : Runtime}
    (h : forwarder_reload_config o tls cfg rt = some rt') :
    rt'.nonce_counter = rt.nonce_counter ↔ KeepsCounter rt cfg := by
  rw [reload_nonce_counter h]
  unfold KeepsCounter
  split
  · rename_i hc
    exact ⟨fun h0 _ _ => h0.symm, fun hk => (hk hc.1 hc.2).symm⟩
  · rename_i hc
    exact ⟨fun _ h1 h2 => absurd ⟨h1, h2⟩ hc, fun _ => rfl⟩

/-! ## What a run has used -/

/-- The nonce of the `i`th value after `c0`, on some thread. -/
def NonceOf (c0 i : Nat) (nonce : Bytes) : Prop :=
  ∃ tls : Tls, 4 ≤ tls.nonce_size ∧ nonce = next_nonce tls (c0 + i)

/-- A nonce sees the 64 bit counter only. -/
theorem next_nonce_congr {tls : Tls} {c c' : Nat} (h : c % 2 ^ 64 = c' % 2 ^ 64) :
    next_nonce tls c = next_nonce tls c' := by
  have hc : c % 2 ^ 31 = c' % 2 ^ 31 := by omega
  unfold next_nonce packet_crypto_next_counter
  rw [hc]

/-- Values that are less than a wrap of the counter apart give different nonces. -/
theorem NonceOf.ne {c0 i j : Nat} {nonce nonce' : Bytes} (h : NonceOf c0 i nonce)
    (h' : NonceOf c0 j nonce') (hij : i < j) (hj : j < 2 ^ 31) : nonce ≠ nonce' := by
  obtain ⟨tls, hns, rfl⟩ := h
  obtain ⟨tls', hns', rfl⟩ := h'
  intro he
  have hc := counter_of_nonce_eq hns hns' (Nat.mod_lt _ (by decide)) (Nat.mod_lt _ (by decide)) he
  omega

/-- After `n` encryptions: the counter stands at `k ≤ n` values after `c0`, what was used
comes from values before that, and nothing was used twice. -/
structure Drawn (c0 n k : Nat) (s : State) : Prop where
  le : k ≤ n
  counter : s.rt.nonce_counter % 2 ^ 64 = (c0 + k) % 2 ^ 64
  drawn : ∀ u ∈ s.used, ∃ i, i < k ∧ NonceOf c0 i u.2
  nodup : s.used.Nodup

/-- An encryption draws at most one value. -/
theorem Drawn.encrypt {c0 n k : Nat} {s : State} (h : Drawn c0 n k s) (hn : n + 1 < 2 ^ 31)
    (tls : Tls) (hns : 4 ≤ tls.nonce_size) {ctx : PacketCryptoCtx} {r : EncResult}
    (hr : OneNonce tls ctx s.rt.nonce_counter r) :
    ∃ k', Drawn c0 (n + 1) k'
      { rt := { s.rt with nonce_counter := r.counter }, used := s.used ++ r.used } := by
  have hk := h.le
  have hnonce : next_nonce tls s.rt.nonce_counter = next_nonce tls (c0 + k) :=
    next_nonce_congr h.counter
  rcases hr with ⟨hc, hu⟩ | ⟨hc, hu⟩
  · refine ⟨k, by omega, (congrArg (· % 2 ^ 64) hc).trans h.counter, ?_, ?_⟩
    · rw [hu, List.append_nil]
      exact h.drawn
    · rw [hu, List.append_nil]
      exact h.nodup
  · have hc' : r.counter % 2 ^ 64 = (c0 + (k + 1)) % 2 ^ 64 := by
      have hcounter := h.counter
      rw [hc]
      unfold packet_crypto_next_counter
      dsimp only
      omega
    have hold : ∀ u ∈ s.used, ∃ i, i < k + 1 ∧ NonceOf c0 i u.2 := by
      intro u hu
      obtain ⟨i, hi, hd⟩ := h.drawn u hu
      exact ⟨i, by omega, hd⟩
    refine ⟨k + 1, by omega, hc', ?_, ?_⟩
    · rcases hu with hu | hu
      · rw [hu, List.append_nil]
        exact hold
      · rw [hu, hnonce]
        intro u hmem
        rcases List.mem_append.mp hmem with hmem | hmem
        · exact hold u hmem
        · rw [List.mem_singleton.mp hmem]
          exact ⟨k, by omega, tls, hns, rfl⟩
    · rcases hu with hu | hu
      · rw [hu, List.append_nil]
        exact h.nodup
      · rw [hu, hnonce]
        refine List.nodup_append.mpr ⟨h.nodup, List.nodup_singleton _, ?_⟩
        intro u hmem v hv huv
        obtain ⟨i, hi, hd⟩ := h.drawn u hmem
        rw [huv, List.mem_singleton.mp hv] at hd
        exact hd.ne (j := k) ⟨tls, hns, rfl⟩ hi (by omega) rfl

/-! ## Runs -/

/-- The reloads of a run keep the counter. -/
def Keeps (s : State) : Event → Prop
  | .encrypt .. => True
  | .reload _ cfg => KeepsCounter s.rt cfg

theorem drawn_step {o : Openssl} {salt : Nat → Buf} {c0 k : Nat} {es : List Event} {s t : State}
    {e : Event} (h : Drawn c0 (encryptions es) k s) (he : Guarded Keeps (Step o salt) s e t)
    (hn : encryptions (es ++ [e]) < 2 ^ 31) : ∃ k', Drawn c0 (encryptions (es ++ [e])) k' t := by
  obtain ⟨hgood, hstep⟩ := he
  unfold Step step at hstep
  cases e with
  | encrypt thread tls pi call =>
    have hcount : encryptions (es ++ [.encrypt thread tls pi call]) = encryptions es + 1 := by
      unfold encryptions
      rw [List.countP_append]
      rfl
    rw [hcount] at hn ⊢
    dsimp only at hstep
    split at hstep
    · rename_i hc
      rw [← Option.some.inj hstep]
      exact h.encrypt hn { tls with nonce_salt := salt thread } hc.2.1
        (call.run_oneNonce _ _ _ _ _)
    · simp at hstep
  | reload tls cfg =>
    have hcount : encryptions (es ++ [.reload tls cfg]) = encryptions es := by
      unfold encryptions
      rw [List.countP_append]
      rfl
    rw [hcount]
    obtain ⟨rt', hre, rfl⟩ := Option.map_eq_some_iff.mp hstep
    have hkeep := (reload_keeps_counter_iff hre).mpr hgood
    exact ⟨k, h.le, (congrArg (· % 2 ^ 64) hkeep).trans h.counter, h.drawn, h.nodup⟩

/-- From any runtime: while every reload keeps the counter, fewer than 2^31 encryptions on
whatever threads and under whatever policies never run AES under the same key and nonce. -/
theorem no_key_meets_a_nonce_twice_while_reloads_keep_the_counter (o : Openssl)
    (salt : Nat → Buf) (rt : Runtime) {es : List Event} {s : State}
    (h : Run (Guarded Keeps (Step o salt)) { rt := rt } es s) (hn : encryptions es < 2 ^ 31) :
    s.used.Nodup := by
  have hinv : encryptions es < 2 ^ 31 → ∃ k, Drawn rt.nonce_counter (encryptions es) k s := by
    refine h.history (P := fun es s => encryptions es < 2 ^ 31 →
      ∃ k, Drawn rt.nonce_counter (encryptions es) k s) ?_ ?_
    · intro _
      exact ⟨0, Nat.le_refl 0, rfl, by simp, List.nodup_nil⟩
    · intro es t e u ih he hlt
      have hle : encryptions es ≤ encryptions (es ++ [e]) := by
        unfold encryptions
        rw [List.countP_append]
        omega
      obtain ⟨k, hk⟩ := ih (by omega)
      exact drawn_step hk he hlt
  obtain ⟨k, hk⟩ := hinv hn
  exact hk.nodup

/-- The state after the first init with policy 7. -/
def start : State where
  rt := sampleRuntime [samplePolicy 7 .encrypt_l3] one_policy_le

/-- One encryption under policy 7 on thread 0. -/
def underPolicy7 : Event :=
  .encrypt 0 (crypto_apply_from_policy (samplePolicy 7 .encrypt_l3) {}) 0
    (.layer3 (ofBytes tcpPing) 58)

/-- A reload that changes nothing. -/
def sameAgain : Event := .reload {} (sampleCfg [samplePolicy 7 .encrypt_l3] one_policy_le)

/-- The reload that adds policy 8 and leaves policy 7 as it is. -/
def addPolicy8 : Event :=
  .reload {} (sampleCfg [samplePolicy 7 .encrypt_l3, samplePolicy 8 .encrypt_l3] (by decide))

/-- A step of a concrete run. -/
def after (s : State) (e : Event) : State := (step sampleOpenssl (fun _ _ => 0) s e).getD s

/-- An encryption before a reload that keeps every policy, and one after it. -/
theorem two_encryptions_around_a_reload_without_a_new_policy :
    (after (after (after start underPolicy7) sameAgain) underPolicy7).used.Nodup :=
  no_key_meets_a_nonce_twice_while_reloads_keep_the_counter sampleOpenssl (fun _ _ => 0) start.rt
    (((Run.single (e := underPolicy7) ⟨trivial, rfl⟩).snoc (t := after start underPolicy7) (e := sameAgain)
      ⟨fun h => absurd h (by decide), rfl⟩).snoc
      (t := after (after start underPolicy7) sameAgain) (e := underPolicy7) ⟨trivial, rfl⟩)
    (by decide)

/-- An encryption under policy 7, a reload that adds policy 8, and one more encryption under
policy 7 on the same thread. -/
theorem a_new_policy_makes_an_old_one_repeat_a_nonce :
    ∃ s, Run (Step sampleOpenssl fun _ _ => 0) start [underPolicy7, addPolicy8, underPolicy7] s ∧
      encryptions [underPolicy7, addPolicy8, underPolicy7] < 2 ^ 31 ∧ ¬ s.used.Nodup :=
  ⟨after (after (after start underPolicy7) addPolicy8) underPolicy7,
    ((Run.single rfl).snoc (t := after start underPolicy7) (e := addPolicy8) rfl).snoc
      (t := after (after start underPolicy7) addPolicy8) rfl, by decide, by decide⟩

end ne_ip.nonce_use
