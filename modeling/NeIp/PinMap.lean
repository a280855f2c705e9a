-- The pin table is a map from flows to policies (forwarder.c): a flow is the pair of its ends,
-- which may come in either order.
import Mathlib.Data.Set.Finite.Lattice
import Mathlib.Logic.Function.Basic
import NeIp.ChainedTable
import NeIp.PinReload

open ne_ip.packet_crypto ne_ip.config ne_ip.crypto_layer4 ne_ip.flow ne_ip.flow_table
open ne_ip.forwarder ne_ip.tcp_policy_pin ne_ip.pin_reload ne_ip.sample chained_table

namespace ne_ip.pin_map

/-! ## The calls -/

/-- `tcp_policy_pin_gc`, at the time that it has read. -/
def tcp_policy_pin_gc (crypto_enabled : Bool) (now : Nat) (pins : PinTable) : PinTable :=
  if !crypto_enabled ∨ now = 0 then pins
  else (List.range FLOW_TABLE_SIZE).foldl (fun pins i => tcp_policy_pin_gc_bucket now i pins) pins

/-- A call, at its own reading of the clock. A set may come with any `int`. -/
inductive PinCall where
  | set (now : Nat) (f : FlowKey) (policy_pi : Int)
  | lookup (rt : Runtime) (now : Nat) (f : FlowKey)
  | remove (f : FlowKey)
  | gc (now : Nat)
  | clear_all

/-- What a call does while crypto is enabled: the index that a lookup gives, and the table. -/
def PinCall.run : PinCall → PinTable → Option Nat × PinTable
  | .set now f pi, pins =>
    (none, if pi < 0 then pins else tcp_policy_pin_set true now f pi.toNat pins)
  | .lookup rt now f, pins => tcp_policy_pin_lookup { rt with crypto_enabled := true } now f pins
  | .remove f, pins => (none, tcp_policy_pin_remove true f pins)
  | .gc now, pins => (none, tcp_policy_pin_gc true now pins)
  | .clear_all, _ => (none, tcp_policy_pin_clear_all)

/-- Calls in a row: what each gives, and the state after them. -/
def run_calls {σ : Type*} (step : PinCall → σ → Option Nat × σ) :
    List PinCall → σ → List (Option Nat) × σ
  | [], s => ([], s)
  | c :: cs, s =>
    let r := step c s
    let rest := run_calls step cs r.2
    (r.1 :: rest.1, rest.2)

/-! ## The map -/

/-- The ends of a flow, in no order. -/
def ends (f : FlowKey) : Sym2 (UInt32 × Nat) := s((f.src_ip, f.src_port), (f.dst_ip, f.dst_port))

def key_ends (key : PinKey) : Sym2 (UInt32 × Nat) :=
  s((key.src_ip, key.src_port), (key.dst_ip, key.dst_port))

/-- The policy of a flow and when it was last seen. -/
abbrev PinMap := Sym2 (UInt32 × Nat) → Option (Nat × Nat)

/-- What a call means. -/
def PinCall.spec : PinCall → PinMap → Option Nat × PinMap
  | .set now f pi, m =>
    (none, if 0 ≤ pi ∧ pi < MAX_CRYPTO_POLICIES then Function.update m (ends f) (some (pi.toNat, now))
      else m)
  | .lookup rt now f, m =>
    match m (ends f) with
    | none => (none, m)
    | some (pi, _) =>
      if pin_usable rt pi then (some pi, Function.update m (ends f) (some (pi, now)))
      else (none, Function.update m (ends f) none)
  | .remove f, m => (none, Function.update m (ends f) none)
  | .gc now, m =>
    (none, if now = 0 then m
      else fun e => (m e).filter fun v => size_sub now v.2 ≤ TCP_POLICY_PIN_TIMEOUT_SEC)
  | .clear_all, _ => (none, fun _ => none)

/-- The flow that a call is about, if it is about one. -/
def PinCall.flow : PinCall → Option FlowKey
  | .set _ f _ | .lookup _ _ f | .remove f => some f
  | .gc _ | .clear_all => none

/-! ## What an entry is found by -/

theorem key_ends_pin_key (f : FlowKey) : key_ends (pin_key f) = ends f :=
  normalize_flow_5tuple_mk f.src_ip f.dst_ip f.src_port f.dst_port

/-- Two flows have one key when they have the same ends. -/
theorem pin_key_eq_iff {f g : FlowKey} : pin_key f = pin_key g ↔ ends f = ends g := by
  constructor
  · intro h
    rw [← key_ends_pin_key, h, key_ends_pin_key]
  · intro h
    rcases Sym2.eq_iff.mp h with ⟨hsrc, hdst⟩ | ⟨hsrc, hdst⟩
    · obtain ⟨hs, hsp⟩ := Prod.mk.inj hsrc
      obtain ⟨hd, hdp⟩ := Prod.mk.inj hdst
      unfold pin_key
      rw [hs, hsp, hd, hdp]
    · obtain ⟨hs, hsp⟩ := Prod.mk.inj hsrc
      obtain ⟨hd, hdp⟩ := Prod.mk.inj hdst
      unfold pin_key
      rw [hs, hsp, hd, hdp, normalize_flow_5tuple_swap]

def pinKeyed : Keyed PinEntry PinKey where
  key := PinEntry.key
  hash := tcp_policy_pin_hash

theorem mix_lt (hash : UInt32) : mix hash < FLOW_TABLE_SIZE := Nat.mod_lt _ (by decide)

theorem pinKeyed_hash_lt (key : PinKey) : pinKeyed.hash key < FLOW_TABLE_SIZE := mix_lt _

/-- What the map holds of an entry. -/
def pinned (e : PinEntry) : Nat × Nat := (e.policy_pi, e.last_seen_sec)

/-- The table holds what the map says, every entry in its place and under the key of a flow. -/
structure Represents (pins : PinTable) (m : PinMap) : Prop where
  wf : pinKeyed.Wf pins
  normal : ∀ i, ∀ e ∈ pins i, ∃ f, e.key = pin_key f
  find : ∀ f, (pinKeyed.find pins (pin_key f)).map pinned = m (ends f)
  finite : {e | m e ≠ none}.Finite

theorem Represents.empty : Represents tcp_policy_pin_clear_all fun _ => none := by
  refine ⟨Keyed.Wf.empty, fun i e he => ?_, fun f => rfl, ?_⟩
  · simp [tcp_policy_pin_clear_all] at he
  · simp

/-! ## What a call does to a table -/

section

variable {pins pins' : PinTable} {m : PinMap}

/-- A change of the entry of one flow. -/
theorem Represents.update (h : Represents pins m) {f : FlowKey} {r : Option PinEntry}
    (hwf : pinKeyed.Wf pins') (hnormal : ∀ i, ∀ e ∈ pins' i, ∃ f, e.key = pin_key f)
    (hfind : ∀ key, pinKeyed.find pins' key =
      if key = pin_key f then r else pinKeyed.find pins key) :
    Represents pins' (Function.update m (ends f) (r.map pinned)) := by
  refine ⟨hwf, hnormal, fun g => ?_, ?_⟩
  · rw [hfind, Function.update_apply]
    by_cases hg : ends g = ends f
    · rw [if_pos hg, if_pos (pin_key_eq_iff.mpr hg)]
    · rw [if_neg hg, if_neg fun hk => hg (pin_key_eq_iff.mp hk)]
      exact h.find g
  · refine (h.finite.insert (ends f)).subset fun e he => ?_
    by_cases hef : e = ends f
    · exact Set.mem_insert_iff.mpr (Or.inl hef)
    · rw [Set.mem_ofPred_eq, Function.update_of_ne hef] at he
      exact Set.mem_insert_of_mem _ he

theorem Represents.modify (h : Represents pins m) (f : FlowKey) {g : PinEntry → PinEntry}
    (hg : ∀ e, (g e).key = e.key) :
    Represents (pinKeyed.modify (pin_key f) g pins)
      (Function.update m (ends f)
        ((pinKeyed.find pins (pin_key f)).map fun e => pinned (g e))) := by
  have hkey : ∀ e, pinKeyed.key e = pin_key f → pinKeyed.key (g e) = pin_key f := fun e he =>
    (hg e).trans he
  rw [show ((pinKeyed.find pins (pin_key f)).map fun e => pinned (g e)) =
    ((pinKeyed.find pins (pin_key f)).map g).map pinned by rw [Option.map_map]; rfl]
  refine h.update (h.wf.modify hkey) (fun i e he => ?_) fun key => Keyed.find_modify hkey key
  obtain ⟨a, ha, rfl⟩ := List.mem_map.mp he
  split
  · rw [hg]
    exact h.normal i a ha
  · exact h.normal i a ha

theorem Represents.remove (h : Represents pins m) (f : FlowKey) :
    Represents (pinKeyed.remove (pin_key f) pins) (Function.update m (ends f) none) :=
  h.update (r := none) (h.wf.remove _) (fun i e he => h.normal i e (List.mem_of_mem_filter he))
    fun key => Keyed.find_remove _ key

theorem Represents.insert (h : Represents pins m) {f : FlowKey} {e : PinEntry}
    (he : e.key = pin_key f)
    (hnew : pinKeyed.find pins (pin_key f) = none) :
    Represents (pinKeyed.insert e pins) (Function.update m (ends f) (some (pinned e))) := by
  rw [← he] at hnew
  refine h.update (r := some e) (h.wf.insert hnew) (fun i a ha => ?_) fun key => ?_
  · unfold Keyed.insert at ha
    split at ha
    · rcases List.mem_cons.mp ha with rfl | hmem
      · exact ⟨f, he⟩
      · exact h.normal i a hmem
    · exact h.normal i a ha
  · rw [← he]
    exact Keyed.find_insert e key

theorem touch_pin (h : pinKeyed.Wf pins) (key : PinKey) (touch : PinEntry → PinEntry) :
    pins.set_bucket (tcp_policy_pin_hash key)
        (touch_first (·.key == key) touch (pins (tcp_policy_pin_hash key))) =
      pinKeyed.modify key touch pins := by
  rw [h.modify_eq]
  refine set_eq ?_ fun j hj => (if_neg hj).symm
  exact (touch_first_eq_map key touch (h.nodup _)).trans (if_pos rfl).symm

theorem erase_pin (h : pinKeyed.Wf pins) (key : PinKey) :
    pins.set_bucket (tcp_policy_pin_hash key)
        ((pins (tcp_policy_pin_hash key)).eraseP (·.key == key)) =
      pinKeyed.remove key pins := by
  rw [h.remove_eq]
  refine set_eq ?_ fun j hj => (if_neg hj).symm
  exact (eraseP_eq_filter key (h.nodup _)).trans (if_pos rfl).symm

theorem insert_pin (e : PinEntry) :
    pins.set_bucket (tcp_policy_pin_hash e.key) (e :: pins (tcp_policy_pin_hash e.key)) =
      pinKeyed.insert e pins :=
  set_eq (if_pos rfl).symm fun _ hj => (if_neg hj).symm

/-- A set changes the entry of the flow, or adds one. -/
theorem Represents.set (h : Represents pins m) (now : Nat) (f : FlowKey) {pi : Nat}
    (hpi : pi < MAX_CRYPTO_POLICIES) :
    Represents (tcp_policy_pin_set true now f pi pins)
      (Function.update m (ends f) (some (pi, now))) := by
  unfold tcp_policy_pin_set
  rw [if_neg (by simp; exact hpi)]
  dsimp only
  unfold pin_bucket
  cases hfind : pinKeyed.find pins (pin_key f) with
  | none =>
    have hnew : ¬(pins (tcp_policy_pin_hash (pin_key f))).any (·.key == pin_key f) := by
      rw [List.any_eq_true]
      rintro ⟨e, he, hk⟩
      exact Keyed.find_none.mp hfind e he (beq_iff_eq.mp hk)
    rw [if_neg hnew]
    have hins := h.insert (e := { key := pin_key f, policy_pi := pi, last_seen_sec := now }) rfl
      hfind
    rw [← insert_pin] at hins
    exact hins
  | some e =>
    obtain ⟨he, hk⟩ := Keyed.find_some hfind
    have hold : (pins (tcp_policy_pin_hash (pin_key f))).any (·.key == pin_key f) :=
      List.any_eq_true.mpr ⟨e, he, beq_iff_eq.mpr hk⟩
    rw [if_pos hold, touch_pin h.wf]
    have hmod := h.modify f (g := fun e => { e with policy_pi := pi, last_seen_sec := now })
      fun _ => rfl
    rw [hfind] at hmod
    exact hmod

/-- A lookup touches an entry that can be used, and removes one that cannot. -/
theorem Represents.lookup (h : Represents pins m) (rt : Runtime) (now : Nat) (f : FlowKey) :
    ((PinCall.lookup rt now f).run pins).1 = ((PinCall.lookup rt now f).spec m).1 ∧
      Represents ((PinCall.lookup rt now f).run pins).2 ((PinCall.lookup rt now f).spec m).2 := by
  have hentry := h.find f
  dsimp only [PinCall.run, PinCall.spec]
  unfold tcp_policy_pin_lookup
  rw [if_neg (by simp)]
  dsimp only
  change _ = _ at hentry
  cases hfind : pinKeyed.find pins (pin_key f) with
  | none =>
    rw [hfind] at hentry
    rw [← hentry]
    have hfind' : (pins (tcp_policy_pin_hash (pin_key f))).find? (·.key == pin_key f) = none :=
      hfind
    rw [hfind']
    exact ⟨rfl, h⟩
  | some e =>
    rw [hfind] at hentry
    rw [← hentry]
    have hfind' : (pins (tcp_policy_pin_hash (pin_key f))).find? (·.key == pin_key f) = some e :=
      hfind
    rw [hfind']
    dsimp only [Option.map_some, pinned]
    have hrt : pin_usable { rt with crypto_enabled := true } e.policy_pi =
        pin_usable rt e.policy_pi :=
      rfl
    rw [hrt]
    split
    · refine ⟨rfl, ?_⟩
      dsimp only
      rw [touch_pin h.wf]
      have hmod := h.modify f (g := fun e => { e with last_seen_sec := now }) fun _ => rfl
      rw [hfind] at hmod
      exact hmod
    · refine ⟨rfl, ?_⟩
      dsimp only
      rw [erase_pin h.wf]
      exact h.remove f

/-- The gc drops what the map forgets. -/
theorem Represents.gc (h : Represents pins m) (now : Nat) :
    Represents (tcp_policy_pin_gc true now pins) ((PinCall.gc now).spec m).2 := by
  unfold tcp_policy_pin_gc
  dsimp only [PinCall.spec]
  by_cases hnow : now = 0
  · rw [if_pos (Or.inr hnow), if_pos hnow]
    exact h
  rw [if_neg (by simpa using hnow), if_neg hnow]
  have hsweep := h.wf.sweep_eq pinKeyed_hash_lt fun e => !pin_expired now e
  change Represents (List.foldl (fun t i j => if j = i then (t i).filter (fun e => !pin_expired now e)
    else t j) pins (List.range FLOW_TABLE_SIZE)) _
  rw [hsweep]
  refine ⟨h.wf.retain _, fun i e he => h.normal i e (List.mem_of_mem_filter he), fun f => ?_, ?_⟩
  · rw [h.wf.find_retain, ← h.find f]
    cases pinKeyed.find pins (pin_key f) with
    | none => rfl
    | some e =>
      rw [Option.map_some, Option.filter_some, Option.filter_some]
      have hexp : (!pin_expired now e) =
          decide (size_sub now (pinned e).2 ≤ TCP_POLICY_PIN_TIMEOUT_SEC) := by
        unfold pin_expired pinned
        rw [← decide_not]
        simp
      rw [hexp]
      split
      · rfl
      · rfl
  · refine h.finite.subset fun e he hm => he ?_
    rw [hm]
    rfl

/-- Each call gives what it means, and does what it means. -/
theorem Represents.step (h : Represents pins m) (c : PinCall) :
    (c.run pins).1 = (c.spec m).1 ∧ Represents (c.run pins).2 (c.spec m).2 := by
  cases c with
  | set now f pi =>
    refine ⟨rfl, ?_⟩
    dsimp only [PinCall.run, PinCall.spec]
    split
    · rw [if_neg (by omega)]
      exact h
    · split
      · exact h.set now f (by omega)
      · unfold tcp_policy_pin_set
        rw [if_pos (Or.inr (by omega))]
        exact h
  | lookup rt now f => exact h.lookup rt now f
  | remove f =>
    refine ⟨rfl, ?_⟩
    dsimp only [PinCall.run, PinCall.spec]
    unfold tcp_policy_pin_remove
    rw [if_neg (by simp)]
    dsimp only
    rw [erase_pin h.wf]
    exact h.remove f
  | gc now => exact ⟨rfl, h.gc now⟩
  | clear_all => exact ⟨rfl, Represents.empty⟩

theorem Represents.run_calls (h : Represents pins m) (cs : List PinCall) :
    (run_calls PinCall.run cs pins).1 = (run_calls PinCall.spec cs m).1 ∧
      Represents (run_calls PinCall.run cs pins).2 (run_calls PinCall.spec cs m).2 := by
  induction cs generalizing pins m with
  | nil => exact ⟨rfl, h⟩
  | cons c cs ih =>
    obtain ⟨hout, hnext⟩ := h.step c
    obtain ⟨houts, hlast⟩ := ih hnext
    refine ⟨?_, hlast⟩
    dsimp only [pin_map.run_calls]
    rw [hout, houts]

/-- The entries are what the map holds, under the keys of flows. -/
theorem Represents.mem_iff (h : Represents pins m) {i : Nat} {a : PinEntry} :
    a ∈ pins i ↔
      tcp_policy_pin_hash a.key = i ∧ (∃ f, a.key = pin_key f) ∧
        m (key_ends a.key) = some (pinned a) := by
  constructor
  · intro ha
    obtain ⟨hfind, hi⟩ := h.wf.mem_iff.mp ha
    obtain ⟨f, hf⟩ := h.normal i a ha
    refine ⟨hi, ⟨f, hf⟩, ?_⟩
    rw [hf, key_ends_pin_key, ← h.find f, ← hf]
    exact congrArg (Option.map pinned) hfind
  · rintro ⟨hi, ⟨f, hf⟩, hm⟩
    rw [hf, key_ends_pin_key, ← h.find f] at hm
    obtain ⟨b, hfind, hb⟩ := Option.map_eq_some_iff.mp hm
    obtain ⟨hmem, hkey⟩ := Keyed.find_some hfind
    -- an entry is its key and what the map holds
    have hab : b = a := by
      obtain ⟨hpi, hseen⟩ := Prod.mk.inj hb
      have hk : b.key = a.key := hkey.trans hf.symm
      cases a
      cases b
      simp only at hk hpi hseen
      rw [hk, hpi, hseen]
    rw [← hab, ← hi, ← hab]
    have hb' : pinKeyed.key b = b.key := rfl
    rw [← hkey, hb'] at hmem
    exact hmem

theorem Represents.mem_flow_iff (h : Represents pins m) {e : Sym2 (UInt32 × Nat)} {v : Nat × Nat} :
    m e = some v ↔ ∃ i, ∃ a ∈ pins i, key_ends a.key = e ∧ pinned a = v := by
  constructor
  · intro hm
    obtain ⟨⟨src, dst⟩, rfl⟩ := Sym2.mk_surjective e
    have hf := h.find ⟨src.1, dst.1, src.2, dst.2, IPPROTO_TCP⟩
    obtain ⟨a, hfind, ha⟩ := Option.map_eq_some_iff.mp (hf.trans hm)
    obtain ⟨hmem, hkey⟩ := Keyed.find_some hfind
    refine ⟨_, a, hmem, ?_, ha⟩
    rw [show a.key = _ from hkey, key_ends_pin_key]
    rfl
  · rintro ⟨i, a, ha, rfl, rfl⟩
    exact (h.mem_iff.mp ha).2.2

theorem Represents.unique (h : Represents pins m) {i j k n : Nat} {a b : PinEntry}
    (ha : (pins i)[k]? = some a) (hb : (pins j)[n]? = some b)
    (hends : key_ends a.key = key_ends b.key) : i = j ∧ k = n := by
  obtain ⟨f, hf⟩ := h.normal i a (List.mem_of_getElem? ha)
  obtain ⟨g, hg⟩ := h.normal j b (List.mem_of_getElem? hb)
  refine h.wf.unique ha hb ?_
  rw [hf, hg, key_ends_pin_key, key_ends_pin_key] at hends
  exact hf.trans ((pin_key_eq_iff.mpr hends).trans hg.symm)

end

/-- A call about one flow means nothing to another. -/
theorem PinCall.spec_other {c : PinCall} {f : FlowKey} (hc : c.flow = some f) (m : PinMap)
    {e : Sym2 (UInt32 × Nat)} (he : e ≠ ends f) : (c.spec m).2 e = m e := by
  cases c with
  | set now g pi =>
    obtain rfl := Option.some.inj hc
    dsimp only [PinCall.spec]
    split
    · exact Function.update_of_ne he _ _
    · rfl
  | lookup rt now g =>
    obtain rfl := Option.some.inj hc
    dsimp only [PinCall.spec]
    split
    · rfl
    · split
      · exact Function.update_of_ne he _ _
      · exact Function.update_of_ne he _ _
  | remove g =>
    obtain rfl := Option.some.inj hc
    exact Function.update_of_ne he _ _
  | gc now => simp [PinCall.flow] at hc
  | clear_all => simp [PinCall.flow] at hc

/-- What calls give from the start, and the table after them. -/
def pins_after (cs : List PinCall) : List (Option Nat) × PinTable :=
  run_calls PinCall.run cs tcp_policy_pin_clear_all

def map_after (cs : List PinCall) : List (Option Nat) × PinMap :=
  run_calls PinCall.spec cs fun _ => none

/-- Whatever is called, the lookups give what the map of the flows gives. The buckets hold the
entries of that map, which is finite, each of them once, and a call about one flow leaves the
entries of all others as they are. -/
theorem the_pins_are_a_map_on_undirected_flows (cs : List PinCall) :
    (pins_after cs).1 = (map_after cs).1 ∧
    (∀ e v, (map_after cs).2 e = some v ↔
      ∃ i, ∃ a ∈ (pins_after cs).2 i, key_ends a.key = e ∧ pinned a = v) ∧
    {e | (map_after cs).2 e ≠ none}.Finite ∧
    (∀ (i j k n : Nat) (a b : PinEntry), ((pins_after cs).2 i)[k]? = some a →
      ((pins_after cs).2 j)[n]? = some b → key_ends a.key = key_ends b.key → i = j ∧ k = n) ∧
    ∀ c : PinCall, ∀ f, c.flow = some f → ∀ i a, key_ends a.key ≠ ends f →
      (a ∈ (c.run (pins_after cs).2).2 i ↔ a ∈ (pins_after cs).2 i) := by
  obtain ⟨hout, hrep⟩ := Represents.empty.run_calls cs
  refine ⟨hout, fun e v => hrep.mem_flow_iff, hrep.finite, fun i j k n a b => hrep.unique, ?_⟩
  intro c f hc i a ha
  have hnext := (hrep.step c).2
  have hother := PinCall.spec_other hc (map_after cs).2 ha
  exact hnext.mem_iff.trans (hother ▸ hrep.mem_iff.symm)

/-- The answers to the packets of `webFlow`. -/
def webAnswers : FlowKey := ⟨webFlow.dst_ip, webFlow.src_ip, webFlow.dst_port, webFlow.src_port, 6⟩

example : (pins_after [.set 5 webAnswers 1, .set 6 webFlow 0, .lookup pinRuntime 7 webAnswers,
    .remove webAnswers, .lookup pinRuntime 8 webFlow]).1 = [none, none, some 0, none, none] := by
  decide +kernel

end ne_ip.pin_map
