-- How far the reassembly functions (fragment.c) write into the buffer of their caller.
-- They bound the sum of the two halves, and write the headers before them.
import NeIp.Reassembly
import NeIp.Runs
import NeIp.Sample

open runs byte_buf ne_ip.packet_crypto ne_ip.crypto_layer2 ne_ip.crypto_layer4 ne_ip.fragment
open ne_ip.reassembly ne_ip.sample

namespace ne_ip.reassembly_bounds

/-! ## Calls -/

/-- A call of one of the three functions: the layer, the clock, and the half with its tag. -/
structure Call where
  layer : Layer
  now : Nat
  pkt : Buf
  pkt_len : Nat
  pkt_id : Nat
  frag_index : UInt8

def Call.run (c : Call) (ft : FragTable) (out_buf : Buf) : Reassembled × FragTable :=
  c.layer.try_reassemble c.now ft c.pkt c.pkt_len c.pkt_id c.frag_index out_buf

def Call.slot (c : Call) : Nat := c.pkt_id % FRAG_TABLE_SIZE

/-- The header that the function of a layer wants to see. -/
def HeaderOk (pkt : Buf) (pkt_len : Nat) : Layer → Prop
  | .l2 => ETH_HEADER_SIZE + 20 ≤ pkt_len
  | .l3 => (frag_require_ipv4 pkt pkt_len).isSome = true
  | .l4 => 14 + 20 ≤ pkt_len ∧ be16 pkt 12 = 0x0800

/-- The check of the length of both halves together. -/
def LengthOk (total : Nat) : Layer → Prop
  | .l2 | .l3 => total ≤ REASSEMBLED_SIZE
  | .l4 => 8 ≤ total % 2 ^ 32 ∧ total % 2 ^ 32 ≤ REASSEMBLED_SIZE

instance (pkt : Buf) (pkt_len : Nat) (l : Layer) : Decidable (HeaderOk pkt pkt_len l) :=
  match l with
  | .l2 => inferInstanceAs (Decidable (_ ≤ _))
  | .l3 => inferInstanceAs (Decidable (_ = _))
  | .l4 => inferInstanceAs (Decidable (_ ∧ _))

instance (total : Nat) (l : Layer) : Decidable (LengthOk total l) :=
  match l with
  | .l2 | .l3 => inferInstanceAs (Decidable (_ ≤ _))
  | .l4 => inferInstanceAs (Decidable (_ ∧ _))

/-- Where the half starts, and its length. Layer 4 subtracts in 32 bits. -/
def Call.half_off (c : Call) : Nat :=
  match c.layer with
  | .l2 => 14
  | .l3 => 14 + (c.pkt 14).toNat % 16 * 4
  | .l4 => 14 + (c.pkt 14).toNat % 16 * 4 + L4_WIRE_PORT_LEN

def Call.half_len (c : Call) : Nat :=
  match c.layer with
  | .l2 => c.pkt_len - 14
  | .l3 => c.pkt_len - 14 - (c.pkt 14).toNat % 16 * 4
  | .l4 => u32_sub (u32_sub c.pkt_len 14) ((c.pkt 14).toNat % 16 * 4) - L4_WIRE_PORT_LEN

/-- The pending half that a call completes. -/
def Call.joins (c : Call) (ft : FragTable) : Option FragEntry :=
  if c.frag_index = 1 ∧ HeaderOk c.pkt c.pkt_len c.layer then
    (take_pending ft c.slot c.pkt_id c.now).1.filter fun e =>
      LengthOk (e.data_len + c.half_len) c.layer
  else none

/-- The packet that it makes of it. -/
def Call.join (c : Call) (out_buf : Buf) (e : FragEntry) : Buf × Nat :=
  match c.layer with
  | .l2 => join_halves_l2 out_buf e c.pkt c.half_len
  | .l3 => join_halves out_buf { e with ip_hdr := e.ip_hdr.set 9 e.orig_proto } c.pkt c.half_off
      c.half_len
  | .l4 => join_halves out_buf e c.pkt c.half_off c.half_len

/-! ## What a call does -/

/-- The half that a call stores. Layer 2 has seen to it that the header is part of it. -/
structure Stores (c : Call) (old e : FragEntry) : Prop where
  valid : e.valid = true
  id : e.pkt_id = c.pkt_id
  data : e.data = write old.data 0 (read c.pkt c.half_off c.half_len)
  data_len : e.data_len = c.half_len
  eth_hdr : e.eth_hdr = read c.pkt 0 14
  ip_hdr : e.ip_hdr = read c.pkt 14 ((c.pkt 14).toNat % 16 * 4)
  fits : c.layer = .l2 → (c.pkt 14).toNat % 16 * 4 ≤ c.half_len

theorem frag_store_pending_some {c : Call} {old e : FragEntry} {orig_proto : UInt8}
    (hfits : c.layer = .l2 → (c.pkt 14).toNat % 16 * 4 ≤ c.half_len)
    (h : frag_store_pending old c.pkt_id (read c.pkt 0 14)
      (read c.pkt 14 ((c.pkt 14).toNat % 16 * 4)) orig_proto c.pkt c.half_off c.half_len c.now =
        some e) : Stores c old e := by
  unfold frag_store_pending at h
  split at h
  · obtain rfl := Option.some.inj h
    exact ⟨rfl, rfl, rfl, rfl, rfl, rfl, hfits⟩
  · simp at h

/-- A call completes a pending half, or stores a half, or fails; then it leaves the table but for
entries that it frees. -/
def Outcome (c : Call) (ft : FragTable) (out_buf : Buf) (r : Reassembled × FragTable) : Prop :=
  (∃ e, c.joins ft = some e ∧ r.1 = .packet (c.join out_buf e).1 (c.join out_buf e).2 ∧
    Frees ft r.2) ∨
  (c.joins ft = none ∧ ∃ e, Stores c (ft c.slot) e ∧ r = (.pending, set_entry ft c.slot e)) ∨
  (c.joins ft = none ∧ r.1 = .failed ∧ Frees ft r.2)

/-- The half in the slot waits under this id, and is not too old. -/
structure Waits (ft : FragTable) (idx pkt_id now : Nat) : Prop where
  valid : (ft idx).valid = true
  id : (ft idx).pkt_id = pkt_id
  fresh : size_sub now (ft idx).timestamp_ns ≤ FRAG_TIMEOUT_NS

theorem take_pending_eq_some_iff {ft : FragTable} {idx pkt_id now : Nat} {e : FragEntry} :
    (take_pending ft idx pkt_id now).1 = some e ↔ e = ft idx ∧ Waits ft idx pkt_id now := by
  unfold take_pending
  dsimp only
  split
  · rename_i hno
    refine iff_of_false (by simp) fun h => ?_
    rcases hno with hv | hid
    · rw [h.2.valid] at hv
      simp at hv
    · exact hid h.2.id
  rename_i hyes
  rw [not_or] at hyes
  have hv : (ft idx).valid = true := by simpa using hyes.1
  split
  · rename_i hold
    exact iff_of_false (by simp) fun h => Nat.not_lt.mpr h.2.fresh hold
  · rename_i hnew
    constructor
    · intro h
      exact ⟨(Option.some.inj h).symm, hv, not_not.mp hyes.2, Nat.not_lt.mp hnew⟩
    · rintro ⟨rfl, -⟩
      rfl

/-- A call completes the half of its slot, when it waits and the lengths are right. -/
theorem joins_eq_some_iff {c : Call} {ft : FragTable} {e : FragEntry} :
    c.joins ft = some e ↔ e = ft c.slot ∧ Waits ft c.slot c.pkt_id c.now ∧ c.frag_index = 1 ∧
      HeaderOk c.pkt c.pkt_len c.layer ∧ LengthOk (e.data_len + c.half_len) c.layer := by
  unfold Call.joins
  split
  · rename_i hc
    rw [Option.filter_eq_some_iff, take_pending_eq_some_iff, decide_eq_true_eq]
    exact ⟨fun ⟨⟨he, hw⟩, hlen⟩ => ⟨he, hw, hc.1, hc.2, hlen⟩,
      fun ⟨he, hw, _, _, hlen⟩ => ⟨⟨he, hw⟩, hlen⟩⟩
  · rename_i hc
    exact iff_of_false (by simp) fun h => hc ⟨h.2.2.1, h.2.2.2.1⟩

theorem joins_of_take {c : Call} {ft ft' : FragTable} {e : FragEntry} (hidx : c.frag_index = 1)
    (hhdr : HeaderOk c.pkt c.pkt_len c.layer)
    (htake : take_pending ft c.slot c.pkt_id c.now = (some e, ft')) :
    c.joins ft = if LengthOk (e.data_len + c.half_len) c.layer then some e else none := by
  unfold Call.joins
  rw [if_pos ⟨hidx, hhdr⟩, htake, Option.filter_some]
  simp only [decide_eq_true_eq]

/-- What the second half of a call does, once its header is right. -/
theorem outcome_of_second {c : Call} {ft : FragTable} {out_buf : Buf}
    {r : Reassembled × FragTable} (hidx : c.frag_index = 1)
    (hhdr : HeaderOk c.pkt c.pkt_len c.layer)
    (hnone : ∀ ft', take_pending ft c.slot c.pkt_id c.now = (none, ft') → r = (.failed, ft'))
    (hok : ∀ e, take_pending ft c.slot c.pkt_id c.now = (some e, ft) →
      LengthOk (e.data_len + c.half_len) c.layer →
      r = (.packet (c.join out_buf e).1 (c.join out_buf e).2,
        set_entry ft c.slot { e with valid := false }))
    (hbad : ∀ e, take_pending ft c.slot c.pkt_id c.now = (some e, ft) →
      ¬ LengthOk (e.data_len + c.half_len) c.layer →
      r = (.failed, set_entry ft c.slot { e with valid := false })) : Outcome c ft out_buf r := by
  rcases take_pending_cases ft c.slot c.pkt_id c.now with ⟨ft', htake, hfree⟩ | ⟨htake, -, -⟩
  · obtain rfl := hnone ft' htake
    refine Or.inr (Or.inr ⟨?_, rfl, hfree⟩)
    unfold Call.joins
    rw [htake]
    simp
  · have hj := joins_of_take hidx hhdr htake
    by_cases hlen : LengthOk ((ft c.slot).data_len + c.half_len) c.layer
    · rw [if_pos hlen] at hj
      obtain rfl := hok _ htake hlen
      exact Or.inl ⟨_, hj, rfl, frees_set_entry ft _ rfl⟩
    · rw [if_neg hlen] at hj
      obtain rfl := hbad _ htake hlen
      exact Or.inr (Or.inr ⟨hj, rfl, frees_set_entry ft _ rfl⟩)

theorem joins_of_not {c : Call} (h : ¬ (c.frag_index = 1 ∧ HeaderOk c.pkt c.pkt_len c.layer))
    (ft : FragTable) : c.joins ft = none := if_neg h

/-- What the first half of a call does. -/
theorem outcome_of_first {c : Call} {ft : FragTable} {out_buf : Buf} {r : Reassembled × FragTable}
    (hidx : c.frag_index = 0)
    (hr : r = (.failed, ft) ∨ ∃ orig_proto,
      (c.layer = .l2 → (c.pkt 14).toNat % 16 * 4 ≤ c.half_len) ∧ r =
      match frag_store_pending (ft c.slot) c.pkt_id (read c.pkt 0 14)
        (read c.pkt 14 ((c.pkt 14).toNat % 16 * 4)) orig_proto c.pkt c.half_off c.half_len c.now with
      | none => (Reassembled.failed, ft)
      | some entry => (.pending, set_entry ft c.slot entry)) : Outcome c ft out_buf r := by
  have hj : c.joins ft = none := joins_of_not (by rw [hidx]; simp) ft
  rcases hr with rfl | ⟨orig_proto, hfits, hr⟩
  · exact Or.inr (Or.inr ⟨hj, rfl, fun _ => Or.inl rfl⟩)
  generalize hs : frag_store_pending (ft c.slot) c.pkt_id (read c.pkt 0 14)
    (read c.pkt 14 ((c.pkt 14).toNat % 16 * 4)) orig_proto c.pkt c.half_off c.half_len c.now = s at hr
  rcases s with _ | e
  · exact Or.inr (Or.inr ⟨hj, by rw [hr], by rw [hr]; exact fun _ => Or.inl rfl⟩)
  · exact Or.inr (Or.inl ⟨hj, e, frag_store_pending_some hfits hs, hr⟩)

/-- A call that neither stores nor completes leaves the table. -/
theorem outcome_of_refused {c : Call} {ft : FragTable} {out_buf : Buf}
    (h : ¬ (c.frag_index = 1 ∧ HeaderOk c.pkt c.pkt_len c.layer)) :
    Outcome c ft out_buf (.failed, ft) :=
  Or.inr (Or.inr ⟨joins_of_not h ft, rfl, fun _ => Or.inl rfl⟩)

section

variable {now : Nat} {pkt : Buf} {pkt_len pkt_id : Nat} {frag_index : UInt8} {ft : FragTable}
  {out_buf : Buf}

theorem outcome_l2 : Outcome ⟨.l2, now, pkt, pkt_len, pkt_id, frag_index⟩ ft out_buf
    (frag_try_reassemble_l2 now ft pkt pkt_len pkt_id frag_index out_buf) := by
  unfold frag_try_reassemble_l2
  dsimp only
  split
  · rename_i hshort
    refine outcome_of_refused fun h => ?_
    have hhdr : ETH_HEADER_SIZE + 20 ≤ pkt_len := h.2
    omega
  rename_i hlen
  have hhdr : HeaderOk pkt pkt_len .l2 := Nat.not_lt.mp hlen
  split
  · rename_i h0
    refine outcome_of_first h0 ?_
    split
    · exact Or.inl rfl
    · rename_i hinner
      refine Or.inr ⟨_, fun _ => ?_, rfl⟩
      have hfits : ¬ pkt_len - 14 < (pkt 14).toNat % 16 * 4 := fun hlt =>
        hinner (Or.inr (Or.inr (Or.inr hlt)))
      exact Nat.not_lt.mp hfits
  split
  · rename_i h1
    refine outcome_of_second h1 hhdr ?_ ?_ ?_
    · intro ft' htake
      rw [show take_pending ft (pkt_id % FRAG_TABLE_SIZE) pkt_id now = (none, ft') from htake]
    · intro e htake hfit
      rw [show take_pending ft (pkt_id % FRAG_TABLE_SIZE) pkt_id now = (some e, ft) from htake]
      exact if_neg (Nat.not_lt.mpr hfit)
    · intro e htake hfit
      rw [show take_pending ft (pkt_id % FRAG_TABLE_SIZE) pkt_id now = (some e, ft) from htake]
      exact if_pos (Nat.not_le.mp hfit)
  · rename_i h1
    exact outcome_of_refused fun h => h1 h.1

theorem outcome_l3 : Outcome ⟨.l3, now, pkt, pkt_len, pkt_id, frag_index⟩ ft out_buf
    (frag_try_reassemble now ft pkt pkt_len pkt_id frag_index out_buf) := by
  unfold frag_try_reassemble
  generalize hihl : frag_require_ipv4 pkt pkt_len = r
  rcases r with _ | ihl
  · refine outcome_of_refused fun h => ?_
    have hhdr : (frag_require_ipv4 pkt pkt_len).isSome = true := h.2
    rw [hihl] at hhdr
    simp at hhdr
  have hhdr : HeaderOk pkt pkt_len .l3 := by
    show (frag_require_ipv4 pkt pkt_len).isSome = true
    rw [hihl]
    rfl
  obtain ⟨-, rfl, -, -⟩ := frag_require_ipv4_some hihl
  dsimp only
  split
  · rename_i h0
    refine outcome_of_first h0 ?_
    split
    · exact Or.inr ⟨_, fun hl => Layer.noConfusion hl, rfl⟩
    split
    · exact Or.inr ⟨_, fun hl => Layer.noConfusion hl, rfl⟩
    · exact Or.inl rfl
  split
  · rename_i h1
    refine outcome_of_second h1 hhdr ?_ ?_ ?_
    · intro ft' htake
      rw [show take_pending ft (pkt_id % FRAG_TABLE_SIZE) pkt_id now = (none, ft') from htake]
    · intro e htake hfit
      rw [show take_pending ft (pkt_id % FRAG_TABLE_SIZE) pkt_id now = (some e, ft) from htake]
      exact if_neg (Nat.not_lt.mpr hfit)
    · intro e htake hfit
      rw [show take_pending ft (pkt_id % FRAG_TABLE_SIZE) pkt_id now = (some e, ft) from htake]
      exact if_pos (Nat.not_le.mp hfit)
  · rename_i h1
    exact outcome_of_refused fun h => h1 h.1

theorem outcome_l4 : Outcome ⟨.l4, now, pkt, pkt_len, pkt_id, frag_index⟩ ft out_buf
    (frag_try_reassemble_l4 now ft pkt pkt_len pkt_id frag_index out_buf) := by
  unfold frag_try_reassemble_l4
  dsimp only
  split
  · rename_i hbad
    refine outcome_of_refused fun h => ?_
    obtain ⟨hlen, h4⟩ : 14 + 20 ≤ pkt_len ∧ be16 pkt 12 = 0x0800 := h.2
    omega
  rename_i hgood
  have hhdr : HeaderOk pkt pkt_len .l4 := by
    show 14 + 20 ≤ pkt_len ∧ be16 pkt 12 = 0x0800
    omega
  split
  · rename_i h0
    exact outcome_of_first h0 (Or.inr ⟨_, fun hl => Layer.noConfusion hl, rfl⟩)
  split
  · rename_i h1
    refine outcome_of_second h1 hhdr ?_ ?_ ?_
    · intro ft' htake
      rw [show take_pending ft (pkt_id % FRAG_TABLE_SIZE) pkt_id now = (none, ft') from htake]
    · intro e htake hfit
      rw [show take_pending ft (pkt_id % FRAG_TABLE_SIZE) pkt_id now = (some e, ft) from htake]
      exact if_neg (not_or.mpr ⟨Nat.not_lt.mpr hfit.1, Nat.not_lt.mpr hfit.2⟩)
    · intro e htake hfit
      rw [show take_pending ft (pkt_id % FRAG_TABLE_SIZE) pkt_id now = (some e, ft) from htake]
      exact if_pos ((Decidable.not_and_iff_or_not.mp hfit).imp Nat.not_le.mp Nat.not_le.mp)
  · rename_i h1
    exact outcome_of_refused fun h => h1 h.1

end

theorem Call.outcome (c : Call) (ft : FragTable) (out_buf : Buf) :
    Outcome c ft out_buf (c.run ft out_buf) := by
  obtain ⟨l, now, pkt, pkt_len, pkt_id, frag_index⟩ := c
  cases l with
  | l2 => exact outcome_l2
  | l3 => exact outcome_l3
  | l4 => exact outcome_l4

theorem Call.run_of_joins {c : Call} {ft : FragTable} {e : FragEntry} (hj : c.joins ft = some e)
    (out_buf : Buf) :
    (c.run ft out_buf).1 = .packet (c.join out_buf e).1 (c.join out_buf e).2 := by
  rcases c.outcome ft out_buf with ⟨e', hj', hr, -⟩ | ⟨hno, -⟩ | ⟨hno, -⟩
  · obtain rfl := Option.some.inj (hj.symm.trans hj')
    exact hr
  · rw [hj] at hno
    exact absurd hno nofun
  · rw [hj] at hno
    exact absurd hno nofun

theorem Call.joins_of_packet {c : Call} {ft : FragTable} {out_buf out : Buf} {out_len : Nat}
    (h : (c.run ft out_buf).1 = .packet out out_len) :
    ∃ e, c.joins ft = some e ∧ c.join out_buf e = (out, out_len) := by
  rcases c.outcome ft out_buf with ⟨e, hj, hr, -⟩ | ⟨-, e, -, hr⟩ | ⟨-, hr, -⟩
  · obtain ⟨rfl, rfl⟩ := Reassembled.packet.inj (h.symm.trans hr)
    exact ⟨e, hj, rfl⟩
  · rw [hr] at h
    exact absurd h nofun
  · rw [hr] at h
    exact absurd h nofun

/-! ## The tables of a run -/

/-- What happens to a table. -/
inductive Event where
  | call (c : Call) (out_buf : Buf)
  | gc (now : Nat)

def step (ft : FragTable) : Event → FragTable
  | .call c out_buf => (c.run ft out_buf).2
  | .gc now => frag_table_gc now ft

abbrev TableRun : FragTable → List Event → FragTable → Prop := Run fun s e t => step s e = t

/-- Every half that waits was stored by some call. -/
def AllStored (es : List Event) (ft : FragTable) : Prop :=
  ∀ i, (ft i).valid = true → ∃ c out_buf old, Event.call c out_buf ∈ es ∧ Stores c old (ft i)

theorem AllStored.mono {es fs : List Event} {ft : FragTable} (h : AllStored es ft) :
    AllStored (es ++ fs) ft := by
  intro i hi
  obtain ⟨c, out_buf, old, hmem, hs⟩ := h i hi
  exact ⟨c, out_buf, old, List.mem_append_left _ hmem, hs⟩

theorem AllStored.frees {es : List Event} {ft ft' : FragTable} (h : AllStored es ft)
    (hf : Frees ft ft') : AllStored es ft' := by
  intro i hi
  rcases hf i with heq | hfree
  · rw [heq] at hi ⊢
    exact h i hi
  · rw [hfree] at hi
    exact absurd hi nofun

/-- One event. -/
theorem AllStored.step {es : List Event} {ft : FragTable} (h : AllStored es ft) (e : Event) :
    AllStored (es ++ [e]) (step ft e) := by
  cases e with
  | gc now => exact h.mono.frees (frees_gc now ft)
  | call c out_buf =>
    unfold reassembly_bounds.step
    dsimp only
    rcases c.outcome ft out_buf with ⟨-, -, -, hf⟩ | ⟨-, entry, hs, hr⟩ | ⟨-, -, hf⟩
    · exact h.mono.frees hf
    · rw [hr]
      intro i hi
      unfold set_entry at hi ⊢
      dsimp only at hi ⊢
      by_cases heq : i = c.slot
      · rw [if_pos heq]
        exact ⟨c, out_buf, ft c.slot, by simp, hs⟩
      · rw [if_neg heq] at hi ⊢
        exact h.mono i hi
    · exact h.mono.frees hf

theorem allStored_of_run {es : List Event} {ft : FragTable} (h : TableRun frag_table_init es ft) :
    AllStored es ft := by
  induction h with
  | nil => exact fun i hi => absurd hi nofun
  | snoc _ he ih => exact he ▸ ih.step _

/-- The half that a call completes was stored by an earlier call. -/
theorem stores_of_joins {es : List Event} {ft : FragTable} (h : TableRun frag_table_init es ft)
    {c : Call} {e : FragEntry} (hj : c.joins ft = some e) :
    ∃ c' out_buf old, Event.call c' out_buf ∈ es ∧ Stores c' old e := by
  obtain ⟨rfl, hw, -⟩ := joins_eq_some_iff.mp hj
  exact allStored_of_run h _ hw.valid

/-! ## Room for the packet -/

/-- What stands before the second half: the headers and the first half, or a transport header in
its place when that is taken for longer. -/
def Call.front (c : Call) (e : FragEntry) : Nat :=
  match c.layer with
  | .l2 => 14 + e.ip_hdr.length +
      if e.ip_hdr.length < e.data_len then
        max (e.data_len - e.ip_hdr.length) (restored_th e e.ip_hdr.length)
      else 0
  | .l3 | .l4 => 14 + e.ip_hdr.length + max e.data_len (restored_th e 0)

theorem join_halves_len (out_buf : Buf) (e : FragEntry) (pkt : Buf) (second_off second_len : Nat) :
    (join_halves out_buf e pkt second_off second_len).2 =
      14 + e.ip_hdr.length + max e.data_len (restored_th e 0) + second_len := by
  unfold join_halves
  dsimp only
  omega

theorem join_halves_out {out_buf : Buf} {e : FragEntry} {pkt : Buf} {second_off second_len i : Nat}
    (heth : e.eth_hdr.length = 14) (hi : 26 ≤ i)
    (hlen : (join_halves out_buf e pkt second_off second_len).2 ≤ i) :
    (join_halves out_buf e pkt second_off second_len).1 i = out_buf i := by
  unfold join_halves at hlen ⊢
  dsimp only at hlen ⊢
  rw [patch_ipv4_out _ _ _ _ i (by omega) (by omega)]
  iterate 3 rw [write_out _ _ _ _ (by rw [length_read]; omega)]
  rw [write_out _ _ _ _ (by omega), write_out _ _ _ _ (by omega)]

theorem join_halves_l2_len (out_buf : Buf) (e : FragEntry) (pkt : Buf) (second_len : Nat) :
    (join_halves_l2 out_buf e pkt second_len).2 = 14 + e.ip_hdr.length +
      (if e.ip_hdr.length < e.data_len then
        max (e.data_len - e.ip_hdr.length) (restored_th e e.ip_hdr.length)
      else 0) + second_len := by
  unfold join_halves_l2
  dsimp only
  split <;> omega

theorem join_halves_l2_out {out_buf : Buf} {e : FragEntry} {pkt : Buf} {second_len i : Nat}
    (heth : e.eth_hdr.length = 14) (hi : 26 ≤ i)
    (hlen : (join_halves_l2 out_buf e pkt second_len).2 ≤ i) :
    (join_halves_l2 out_buf e pkt second_len).1 i = out_buf i := by
  unfold join_halves_l2 at hlen ⊢
  dsimp only at hlen ⊢
  rw [write_out _ 12 _ _ (by simp only [List.length_cons, List.length_nil]; omega),
    patch_ipv4_out _ _ _ _ i (by omega) (by omega)]
  generalize (if e.ip_hdr.length < e.data_len then restored_th e e.ip_hdr.length else 0) = th at hlen ⊢
  iterate 4 rw [write_out _ _ _ _ (by rw [length_read]; omega)]
  rw [write_out _ _ _ _ (by omega)]

theorem Call.join_len (c : Call) (out_buf : Buf) (e : FragEntry) :
    (c.join out_buf e).2 = c.front e + c.half_len := by
  obtain ⟨l, now, pkt, pkt_len, pkt_id, frag_index⟩ := c
  cases l with
  | l2 => exact join_halves_l2_len _ _ _ _
  | l3 =>
    have hset : ({ e with ip_hdr := e.ip_hdr.set 9 e.orig_proto } : FragEntry).ip_hdr.length =
      e.ip_hdr.length := List.length_set
    refine (join_halves_len _ _ _ _ _).trans ?_
    rw [hset]
    rfl
  | l4 => exact join_halves_len _ _ _ _ _

/-- Nothing is written behind the packet, nor behind the checksum of its header. -/
theorem Call.join_out (c : Call) (out_buf : Buf) {e : FragEntry} {i : Nat}
    (heth : e.eth_hdr.length = 14) (hi : 26 ≤ i) (hlen : (c.join out_buf e).2 ≤ i) :
    (c.join out_buf e).1 i = out_buf i := by
  obtain ⟨l, now, pkt, pkt_len, pkt_id, frag_index⟩ := c
  cases l with
  | l2 => exact join_halves_l2_out heth hi hlen
  | l3 => exact join_halves_out heth hi hlen
  | l4 => exact join_halves_out heth hi hlen

/-- A call writes nothing from byte `REASSEMBLED_SIZE` of any buffer on, and gives no longer
length. -/
def Call.StaysInside (c : Call) (ft : FragTable) : Prop :=
  ∀ out_buf out out_len, (c.run ft out_buf).1 = .packet out out_len →
    out_len ≤ REASSEMBLED_SIZE ∧ ∀ i, REASSEMBLED_SIZE ≤ i → out i = out_buf i

/-- The headers have room beside the two halves. -/
def Call.HasRoom (c : Call) (ft : FragTable) : Prop :=
  ∀ e, c.joins ft = some e → c.front e + c.half_len ≤ REASSEMBLED_SIZE

instance (c : Call) (ft : FragTable) : Decidable (c.HasRoom ft) :=
  decidable_of_iff (∀ e ∈ c.joins ft, c.front e + c.half_len ≤ REASSEMBLED_SIZE) Iff.rfl

/-- Whatever calls a table has seen, the next one stays inside the buffer exactly when the packet
that it completes has room in it with its headers. -/
theorem a_reassembly_stays_inside_iff_the_headers_have_room {es : List Event} {ft : FragTable}
    (h : TableRun frag_table_init es ft) (c : Call) : c.StaysInside ft ↔ c.HasRoom ft := by
  have hR : REASSEMBLED_SIZE = 4096 := rfl
  constructor
  · intro hin e hj
    have hlen := (hin _ _ _ (Call.run_of_joins hj fun _ => 0)).1
    rwa [c.join_len] at hlen
  · intro hroom out_buf out out_len hout
    obtain ⟨e, hj, hjoin⟩ := Call.joins_of_packet hout
    obtain ⟨c', -, old, -, hs⟩ := stores_of_joins h hj
    have heth : e.eth_hdr.length = 14 := by rw [hs.eth_hdr, length_read]
    have hfit := hroom e hj
    rw [← c.join_len out_buf, hjoin] at hfit
    refine ⟨hfit, fun i hi => ?_⟩
    have hkeep := c.join_out out_buf heth (show 26 ≤ i by omega) (by rw [hjoin]; omega)
    rwa [hjoin] at hkeep

/-! ## Halves of a long packet -/

/-- The head of a datagram from 10.0.0.1 to 10.0.1.2 with 40 bytes of options. -/
def optionsHead : Bytes :=
  [0x02, 0x00, 0x00, 0x00, 0x00, 0x02, 0x02, 0x00, 0x00, 0x00, 0x00, 0x01, 0x08, 0x00,
    0x4f, 0x00, 0x00, 0x00, 0x00, 0x01, 0x40, 0x00, 0x40, 0x11, 0x00, 0x00, 0x0a, 0x00, 0x00, 0x01,
    0x0a, 0x00, 0x01, 0x02]

/-- A decrypted half of zeros. -/
def longHalf (frag_index : UInt8) (half_len : Nat) : Call where
  layer := .l3
  now := 0
  pkt := patch_ipv4 (ofBytes optionsHead) 14 60 (60 + half_len)
  pkt_len := 74 + half_len
  pkt_id := 0
  frag_index := frag_index

/-- A table with a first half of 1600 bytes. -/
def afterFirst : FragTable := step frag_table_init (.call (longHalf 0 1600) fun _ => 0)

theorem afterFirst_run :
    TableRun frag_table_init [.call (longHalf 0 1600) fun _ => 0] afterFirst := Run.single rfl

theorem a_second_half_of_1500_bytes_has_room :
    (∃ e, (longHalf 1 1500).joins afterFirst = some e) ∧ (longHalf 1 1500).StaysInside afterFirst :=
  ⟨Option.isSome_iff_exists.mp (by decide +kernel),
    (a_reassembly_stays_inside_iff_the_headers_have_room afterFirst_run (longHalf 1 1500)).mpr
      (by decide +kernel)⟩

/-- 4096 bytes in two halves, and 74 bytes of headers. -/
theorem a_second_half_of_2496_bytes_overruns_the_buffer :
    (longHalf 0 1600).pkt_len ≤ 4096 ∧ (longHalf 1 2496).pkt_len ≤ 4096 ∧
    TableRun frag_table_init [.call (longHalf 0 1600) fun _ => 0] afterFirst ∧
    (∃ out, ((longHalf 1 2496).run afterFirst fun _ => 0xff).1 = .packet out 4170 ∧ out 4169 = 0) ∧
    ¬ (longHalf 1 2496).StaysInside afterFirst := by
  have hjoin : ((longHalf 1 2496).joins afterFirst).map (fun e =>
      (((longHalf 1 2496).join (fun _ => 0xff) e).2,
        ((longHalf 1 2496).join (fun _ => 0xff) e).1 4169)) = some (4170, 0) := by decide +kernel
  obtain ⟨e, hj, hlen⟩ := Option.map_eq_some_iff.mp hjoin
  obtain ⟨hlen, h4169⟩ := Prod.mk.inj hlen
  have hrun : ((longHalf 1 2496).run afterFirst fun _ => 0xff).1 =
      .packet ((longHalf 1 2496).join (fun _ => 0xff) e).1 4170 := by
    rw [← hlen]
    exact Call.run_of_joins hj fun _ => 0xff
  refine ⟨by decide, by decide, afterFirst_run, ⟨_, hrun, h4169⟩, fun hin => ?_⟩
  have hbound := (hin _ _ _ hrun).1
  revert hbound
  decide

end ne_ip.reassembly_bounds
