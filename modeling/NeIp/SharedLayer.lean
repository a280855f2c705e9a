-- The crypto parameters of several threads (packet_crypto.c): all of them are
-- thread-local except the layer, which a thread sets for every other thread too.
import Mathlib.Data.Fintype.Basic
import NeIp.Runs
import NeIp.Sample

open runs byte_buf ne_ip.packet_crypto ne_ip.config ne_ip.crypto_dispatch ne_ip.sample

namespace ne_ip.shared_layer

/-! ## The variables and the calls -/

/-- `g_encrypt_layer` and `g_nonce_counter`, and what each thread has of its own. -/
structure Globals (ι : Type) where
  encrypt_layer : Nat
  nonce_counter : Nat
  tls : ι → Tls

inductive Op where
  | encrypt
  | decrypt
  deriving DecidableEq, Repr

/-- A `packet_encrypt` or `packet_decrypt` with a policy's context. -/
structure Call where
  cp : CryptoPolicy
  op : Op
  ctx : PacketCryptoCtx
  pkt : Buf
  pkt_len : Nat

/-- What a call returns and makes of its packet. -/
structure Outcome where
  ret : Option Nat
  pkt : Buf

/-- What `crypto_apply_from_policy` makes of `g_encrypt_layer`. -/
def set_encrypt_layer (action : PolicyAction) (encrypt_layer : Nat) : Nat :=
  match action with
  | .encrypt_l2 => 2
  | .encrypt_l3 => 3
  | .encrypt_l4 => 4
  | .bypass => encrypt_layer

theorem set_encrypt_layer_eq {action : PolicyAction} (h : action ≠ .bypass) (m n : Nat) :
    set_encrypt_layer action m = set_encrypt_layer action n := by
  cases action <;> first | rfl | exact absurd rfl h

variable {ι : Type} [DecidableEq ι]

/-- `crypto_apply_from_policy` on thread `t`. -/
def apply_from_policy (g : Globals ι) (t : ι) (cp : CryptoPolicy) : Globals ι :=
  { g with
    encrypt_layer := set_encrypt_layer cp.action g.encrypt_layer
    tls := Function.update g.tls t (crypto_apply_from_policy cp (g.tls t)) }

/-- A call of thread `t`, with whatever layer is set. -/
def run_call (o : Openssl) (fake : Nat) (g : Globals ι) (t : ι) (c : Call) :
    Globals ι × Outcome :=
  match c.op with
  | .encrypt =>
    let r := packet_encrypt o fake g.encrypt_layer (g.tls t) c.ctx g.nonce_counter c.pkt c.pkt_len
    ({ g with nonce_counter := r.counter }, { ret := r.ret, pkt := r.pkt })
  | .decrypt =>
    let r := packet_decrypt o fake g.encrypt_layer (g.tls t) c.ctx c.pkt c.pkt_len
    (g, { ret := r.1, pkt := r.2 })

/-! ## One after the other -/

/-- A thread takes its policy over and makes its call, and nobody comes between. -/
def serve (o : Openssl) (fake : Nat) (g : Globals ι) (t : ι) (c : Call) : Globals ι × Outcome :=
  run_call o fake (apply_from_policy g t c.cp) t c

def serial (o : Openssl) (fake : Nat) (g : Globals ι) (cs : List (ι × Call)) :
    Globals ι × List Outcome :=
  cs.foldl (fun s c => ((serve o fake s.1 c.1 c.2).1, s.2 ++ [(serve o fake s.1 c.1 c.2).2])) (g, [])

/-! ## Interleaved -/

/-- `pending t` is the policy that thread `t` has taken over for its next call. The log has the
calls so far in their order. -/
structure State (ι : Type) where
  globals : Globals ι
  pending : ι → Option CryptoPolicy
  log : List ((ι × Call) × Outcome)

def start (g : Globals ι) : State ι where
  globals := g
  pending := fun _ => none
  log := []

inductive Event (ι : Type) where
  | apply (t : ι) (cp : CryptoPolicy)
  | call (t : ι) (op : Op) (ctx : PacketCryptoCtx) (pkt : Buf) (pkt_len : Nat)

/-- Only a policy that encrypts has a context. -/
def step (o : Openssl) (fake : Nat) (s : State ι) : Event ι → Option (State ι)
  | .apply t cp =>
    if s.pending t = none ∧ cp.action ≠ .bypass then
      some { s with
        globals := apply_from_policy s.globals t cp
        pending := Function.update s.pending t (some cp) }
    else none
  | .call t op ctx pkt pkt_len =>
    match s.pending t with
    | none => none
    | some cp =>
      let c : Call := { cp, op, ctx, pkt, pkt_len }
      let r := run_call o fake s.globals t c
      some { globals := r.1
             pending := Function.update s.pending t none
             log := s.log ++ [((t, c), r.2)] }

def Step (o : Openssl) (fake : Nat) (s : State ι) (e : Event ι) (s' : State ι) : Prop :=
  step o fake s e = some s'

/-! ## The law -/

/-- A policy is taken over only while every thread that is about to make a call has one of the
same layer. -/
def Undisturbed (s : State ι) : Event ι → Prop
  | .apply _ cp => ∀ u, ∀ q ∈ s.pending u, q.action = cp.action
  | .call .. => True

instance [Fintype ι] (s : State ι) : (e : Event ι) → Decidable (Undisturbed s e)
  | .apply _ cp => inferInstanceAs (Decidable (∀ u, ∀ q ∈ s.pending u, q.action = cp.action))
  | .call .. => inferInstanceAs (Decidable True)

/-- What a thread's variables are when those of `g` are from before its pending policy. -/
def tookOver (pending : Option CryptoPolicy) (tls : Tls) : Tls :=
  match pending with
  | none => tls
  | some cp => crypto_apply_from_policy cp tls

structure Serial (o : Openssl) (fake : Nat) (g0 : Globals ι) (s : State ι) : Prop where
  outcomes : s.log.map (·.2) = (serial o fake g0 (s.log.map (·.1))).2
  counter : s.globals.nonce_counter = (serial o fake g0 (s.log.map (·.1))).1.nonce_counter
  tls : ∀ t, s.globals.tls t =
    tookOver (s.pending t) ((serial o fake g0 (s.log.map (·.1))).1.tls t)
  layer : ∀ t cp, s.pending t = some cp →
    cp.action ≠ .bypass ∧ s.globals.encrypt_layer = set_encrypt_layer cp.action 0

theorem serial_snoc (o : Openssl) (fake : Nat) (g : Globals ι) (cs : List (ι × Call)) (c : ι × Call) :
    serial o fake g (cs ++ [c]) =
      ((serve o fake (serial o fake g cs).1 c.1 c.2).1,
        (serial o fake g cs).2 ++ [(serve o fake (serial o fake g cs).1 c.1 c.2).2]) := by
  unfold serial
  rw [List.foldl_append]
  rfl

omit [DecidableEq ι] in
@[simp] theorem run_call_tls (o : Openssl) (fake : Nat) (g : Globals ι) (t : ι) (c : Call) :
    (run_call o fake g t c).1.tls = g.tls := by
  unfold run_call
  cases c.op <;> rfl

omit [DecidableEq ι] in
@[simp] theorem run_call_encrypt_layer (o : Openssl) (fake : Nat) (g : Globals ι) (t : ι) (c : Call) :
    (run_call o fake g t c).1.encrypt_layer = g.encrypt_layer := by
  unfold run_call
  cases c.op <;> rfl

omit [DecidableEq ι] in
/-- A call depends on the layer, the counter and its own thread. -/
theorem run_call_congr (o : Openssl) (fake : Nat) {g g' : Globals ι} {t : ι} (c : Call)
    (hlayer : g.encrypt_layer = g'.encrypt_layer) (hcounter : g.nonce_counter = g'.nonce_counter)
    (htls : g.tls t = g'.tls t) :
    (run_call o fake g t c).2 = (run_call o fake g' t c).2 ∧
      (run_call o fake g t c).1.nonce_counter = (run_call o fake g' t c).1.nonce_counter := by
  unfold run_call
  rw [hlayer, hcounter, htls]
  cases c.op with
  | encrypt => exact ⟨rfl, rfl⟩
  | decrypt => exact ⟨rfl, hcounter⟩

theorem serial_start (o : Openssl) (fake : Nat) (g0 : Globals ι) : Serial o fake g0 (start g0) where
  outcomes := rfl
  counter := rfl
  tls _ := rfl
  layer t cp h := by simp [start] at h

theorem Serial.apply {o : Openssl} {fake : Nat} {g0 : Globals ι} {s : State ι}
    (h : Serial o fake g0 s) {t : ι} {cp : CryptoPolicy} (hnone : s.pending t = none)
    (hcp : cp.action ≠ .bypass) (hu : Undisturbed s (.apply t cp)) :
    Serial o fake g0 { s with
      globals := apply_from_policy s.globals t cp
      pending := Function.update s.pending t (some cp) } where
  outcomes := h.outcomes
  counter := h.counter
  tls u := by
    have hold := h.tls u
    by_cases hut : u = t
    · subst hut
      rw [hnone] at hold
      simp only [apply_from_policy, Function.update_self, hold]
      rfl
    · simp only [apply_from_policy, Function.update_of_ne hut, hold]
  layer u q hq := by
    dsimp only at hq ⊢
    by_cases hut : u = t
    · subst hut
      rw [Function.update_self] at hq
      obtain rfl := Option.some.inj hq
      exact ⟨hcp, set_encrypt_layer_eq hcp _ _⟩
    · rw [Function.update_of_ne hut] at hq
      obtain ⟨hqa, -⟩ := h.layer u q hq
      refine ⟨hqa, ?_⟩
      rw [hu u q hq]
      exact set_encrypt_layer_eq hcp _ _

theorem Serial.call {o : Openssl} {fake : Nat} {g0 : Globals ι} {s : State ι}
    (h : Serial o fake g0 s) {t : ι} {c : Call} (hpend : s.pending t = some c.cp) :
    Serial o fake g0
      { globals := (run_call o fake s.globals t c).1
        pending := Function.update s.pending t none
        log := s.log ++ [((t, c), (run_call o fake s.globals t c).2)] } := by
  obtain ⟨hout, hcounter, htls, hlayer⟩ := h
  have hser := serial_snoc o fake g0 (s.log.map (·.1)) (t, c)
  generalize serial o fake g0 (s.log.map (·.1)) = gs at hout hcounter htls hser
  obtain ⟨hcp, hl⟩ := hlayer t c.cp hpend
  -- the variables are those of a thread that is served alone
  have hself : s.globals.tls t = (apply_from_policy gs.1 t c.cp).tls t := by
    rw [htls t, hpend]
    simp only [apply_from_policy, Function.update_self]
    rfl
  have hsame : s.globals.encrypt_layer = (apply_from_policy gs.1 t c.cp).encrypt_layer :=
    hl.trans (set_encrypt_layer_eq hcp _ _)
  have hcall := run_call_congr o fake c hsame hcounter hself
  refine ⟨?_, ?_, ?_, ?_⟩
  · simp only [List.map_append, List.map_cons, List.map_nil, hser, hout, serve, hcall.1]
  · simp only [List.map_append, List.map_cons, List.map_nil, hser, serve, hcall.2]
  · intro u
    simp only [List.map_append, List.map_cons, List.map_nil, hser, serve, run_call_tls, htls u]
    by_cases hut : u = t
    · subst hut
      simp only [hpend, apply_from_policy, Function.update_self]
      rfl
    · simp only [apply_from_policy, Function.update_of_ne hut]
  · intro u q hq
    dsimp only at hq ⊢
    by_cases hut : u = t
    · subst hut
      simp at hq
    · rw [Function.update_of_ne hut] at hq
      rw [run_call_encrypt_layer]
      exact hlayer u q hq

theorem Serial.step {o : Openssl} {fake : Nat} {g0 : Globals ι} {s s' : State ι} {e : Event ι}
    (h : Serial o fake g0 s) (hu : Undisturbed s e) (hstep : Step o fake s e s') :
    Serial o fake g0 s' := by
  unfold Step shared_layer.step at hstep
  cases e with
  | apply t cp =>
    dsimp only at hstep
    split at hstep
    · rename_i hc
      obtain rfl := Option.some.inj hstep
      exact h.apply hc.1 hc.2 hu
    · simp at hstep
  | call t op ctx pkt pkt_len =>
    dsimp only at hstep
    split at hstep
    · simp at hstep
    · rename_i cp hpend
      obtain rfl := Option.some.inj hstep
      exact h.call hpend

/-- For any number of threads and any interleaving in which nobody takes a policy over while
another thread is about to make a call at another layer, every call gives what it gives when
the threads are served one after the other in the order of their calls. -/
theorem threads_are_served_as_alone_unless_a_policy_of_another_layer_comes_between {o : Openssl}
    {fake : Nat} {g0 : Globals ι} {es : List (Event ι)} {s : State ι}
    (hrun : Run (Guarded Undisturbed (Step o fake)) (start g0) es s) :
    s.log.map (·.2) = (serial o fake g0 (s.log.map (·.1))).2 := by
  have h := hrun.invariant (serial_start o fake g0) fun _ _ _ h hstep => h.step hstep.1 hstep.2
  exact h.outcomes

local instance threads_ne_zero : NeZero 2 := Nat.instNeZeroSucc

/-- Two threads, the first before it has handled a packet. -/
def sampleGlobals : Globals (Fin 2) where
  encrypt_layer := 3
  nonce_counter := 0
  tls := fun _ => {}

def sampleCtx : PacketCryptoCtx := init_ctx sampleOpenssl 128 masterKey.toList

def afterAll (es : List (Event (Fin 2))) : State (Fin 2) :=
  (es.foldlM (step sampleOpenssl 0x88b5) (start sampleGlobals)).getD (start sampleGlobals)

/-- Each of the threads takes a policy over, and then each encrypts the packet. -/
def bothEncrypt (a b : PolicyAction) : List (Event (Fin 2)) :=
  [.apply 0 (samplePolicy 7 a), .apply 1 (samplePolicy 8 b),
    .call 0 .encrypt sampleCtx (ofBytes tcpPing) 58, .call 1 .encrypt sampleCtx (ofBytes tcpPing) 58]

theorem two_threads_of_one_layer_are_served_as_alone :
    (afterAll (bothEncrypt .encrypt_l3 .encrypt_l3)).log.map (·.2) =
      (serial sampleOpenssl 0x88b5 sampleGlobals
        ((afterAll (bothEncrypt .encrypt_l3 .encrypt_l3)).log.map (·.1))).2 :=
  have hrun : Run (Guarded Undisturbed (Step sampleOpenssl 0x88b5)) (start sampleGlobals)
      (bothEncrypt .encrypt_l3 .encrypt_l3) (afterAll (bothEncrypt .encrypt_l3 .encrypt_l3)) :=
    Run.guarded_of_foldlM rfl
  threads_are_served_as_alone_unless_a_policy_of_another_layer_comes_between hrun

/-- With an L3 and an L4 policy the first thread encrypts at layer 4: the packet keeps its
protocol byte, which a thread alone replaces by the marker of layer 3. -/
theorem a_thread_encrypts_at_the_layer_of_another_thread :
    Run (Step sampleOpenssl 0x88b5) (start sampleGlobals) (bothEncrypt .encrypt_l3 .encrypt_l4)
      (afterAll (bothEncrypt .encrypt_l3 .encrypt_l4)) ∧
    (afterAll (bothEncrypt .encrypt_l3 .encrypt_l4)).log.map (·.2) ≠
      (serial sampleOpenssl 0x88b5 sampleGlobals
        ((afterAll (bothEncrypt .encrypt_l3 .encrypt_l4)).log.map (·.1))).2 := by
  refine ⟨Run.of_foldlM rfl, fun h => ?_⟩
  have hbyte : ([6, 6] : List UInt8) = [99, 6] := congrArg (List.map fun r : Outcome => r.pkt 23) h
  exact absurd hbyte (by decide)

end ne_ip.shared_layer
