-- What layers 2 and 4 put together (fragment.c) is of the two halves alone, as long as
-- the first one holds what the code takes for its transport header.
import NeIp.ReassemblyBounds
import NeIp.L3RoundTrip

open runs byte_buf ne_ip.packet_crypto ne_ip.crypto_layer2 ne_ip.crypto_layer4 ne_ip.fragment
open ne_ip.reassembly ne_ip.reassembly_bounds ne_ip.sample

namespace ne_ip.stale_bytes

open l3_round_trip (transport_hdr_min)

/-! ## The packet of two halves -/

/-- The bytes of the two halves behind the stored headers. Layer 2 has the IPv4 header in the
first half, and writes the ethertype of IPv4 over the fake one. -/
def bytes_of (c : Call) (e : FragEntry) : Bytes :=
  match c.layer with
  | .l2 => e.eth_hdr.take 12 ++ [0x08, 0x00] ++
      (read e.data 0 e.data_len ++ read c.pkt c.half_off c.half_len)
  | .l3 | .l4 => e.eth_hdr ++ e.ip_hdr ++
      (read e.data 0 e.data_len ++ read c.pkt c.half_off c.half_len)

/-- They are the packet, with the total length and the checksum of its header written. -/
def MadeOf (c : Call) (e : FragEntry) (out : Buf) (out_len : Nat) : Prop :=
  out_len = (bytes_of c e).length ∧
    ∀ i, i < out_len → out i = patch_ipv4 (ofBytes (bytes_of c e)) 14 e.ip_hdr.length (out_len - 14) i

/-- Two entries with one half. They may differ in what their arrays hold behind it. -/
structure SameHalf (e e' : FragEntry) : Prop where
  valid : e'.valid = e.valid
  pkt_id : e'.pkt_id = e.pkt_id
  data_len : e'.data_len = e.data_len
  data : read e'.data 0 e.data_len = read e.data 0 e.data_len
  eth_hdr : e'.eth_hdr = e.eth_hdr
  ip_hdr : e'.ip_hdr = e.ip_hdr
  orig_proto : e'.orig_proto = e.orig_proto
  timestamp_ns : e'.timestamp_ns = e.timestamp_ns

/-- What a call completes is made of the two halves, and any table with the same half in its slot
gives the same. -/
def OnlyHalves (c : Call) (ft : FragTable) : Prop :=
  ∀ out_buf out out_len, (c.run ft out_buf).1 = .packet out out_len →
    MadeOf c (ft c.slot) out out_len ∧
    ∀ ft' out_buf', SameHalf (ft c.slot) (ft' c.slot) →
      ∃ out', (c.run ft' out_buf').1 = .packet out' out_len ∧ ∀ i, i < out_len → out' i = out i

/-- The first half has the shortest transport header of its protocol. At layer 2 it may also end
with its IPv4 header. -/
def HoldsTransport (e : FragEntry) : Layer → Prop
  | .l2 => e.data_len = e.ip_hdr.length ∨
      e.ip_hdr.length + transport_hdr_min e.orig_proto ≤ e.data_len
  | .l3 | .l4 => transport_hdr_min e.orig_proto ≤ e.data_len

instance (e : FragEntry) (l : Layer) : Decidable (HoldsTransport e l) :=
  match l with
  | .l2 => inferInstanceAs (Decidable (_ ∨ _))
  | .l3 | .l4 => inferInstanceAs (Decidable (_ ≤ _))

theorem transport_hdr_min_le {b : Buf} {off n th : Nat} {proto : UInt8}
    (h : get_transport_hdr_size b off proto n = some th) : transport_hdr_min proto ≤ th := by
  unfold get_transport_hdr_size at h
  unfold transport_hdr_min
  by_cases h6 : proto = 6
  · rw [if_pos h6] at h ⊢
    split at h
    · simp at h
    dsimp only at h
    split at h
    · simp at h
    · have hth := Option.some.inj h
      omega
  · rw [if_neg h6] at h ⊢
    split at h
    · split at h
      · simp at h
      · exact (Option.some.inj h).le
    · simp at h

/-- The length that is taken for a transport header fits where the shortest one does. -/
theorem restored_th_le_iff (e : FragEntry) (off : Nat) :
    restored_th e off ≤ e.data_len - off ↔ transport_hdr_min e.orig_proto ≤ e.data_len - off := by
  unfold restored_th
  generalize hth : get_transport_hdr_size e.data off e.orig_proto (e.data_len - off) = r
  rcases r with _ | th
  · exact Iff.rfl
  · have hle := (get_transport_hdr_size_some hth).2.2
    exact iff_of_true hle ((transport_hdr_min_le hth).trans hle)

/-! ## What a call completes -/

section

variable {c : Call} {e e' : FragEntry}

theorem length_bytes_of (heth : e.eth_hdr.length = 14) :
    (bytes_of c e).length = (match c.layer with
      | .l2 => 14 + e.data_len + c.half_len
      | .l3 | .l4 => 14 + e.ip_hdr.length + e.data_len + c.half_len) := by
  unfold bytes_of
  cases c.layer <;> simp only [List.length_append, List.length_take, length_read, heth,
    List.length_cons, List.length_nil] <;> omega

/-- The bytes are those of the half alone. -/
theorem SameHalf.bytes_of_eq (h : SameHalf e e') (c : Call) : bytes_of c e' = bytes_of c e := by
  unfold bytes_of
  rw [h.data_len, h.data, h.eth_hdr, h.ip_hdr]

theorem SameHalf.holds (h : SameHalf e e') (l : Layer) (hh : HoldsTransport e l) :
    HoldsTransport e' l := by
  cases l <;> simp only [HoldsTransport, h.data_len, h.ip_hdr, h.orig_proto] at hh ⊢ <;> exact hh

theorem write_zero_of_lt (b : Buf) {bs : Bytes} {i : Nat} (hi : i < bs.length) :
    write b 0 bs i = ofBytes bs i := by
  rw [write_in _ _ _ _ (Nat.zero_le i) (by omega), Nat.sub_zero]
  rfl

theorem madeOf_join_l4 {now : Nat} {pkt : Buf} {pkt_len pkt_id : Nat} {frag_index : UInt8}
    (heth : e.eth_hdr.length = 14) (hh : HoldsTransport e .l4) (out_buf : Buf) :
    MadeOf ⟨.l4, now, pkt, pkt_len, pkt_id, frag_index⟩ e
      (Call.join ⟨.l4, now, pkt, pkt_len, pkt_id, frag_index⟩ out_buf e).1
      (Call.join ⟨.l4, now, pkt, pkt_len, pkt_id, frag_index⟩ out_buf e).2 := by
  generalize hc : (⟨.l4, now, pkt, pkt_len, pkt_id, frag_index⟩ : Call) = c
  have hl : c.layer = .l4 := by rw [← hc]
  have hlen : (bytes_of c e).length = 14 + e.ip_hdr.length + e.data_len + c.half_len := by
    rw [length_bytes_of heth, hl]
  have hth : restored_th e 0 ≤ e.data_len := (restored_th_le_iff e 0).mpr hh
  have hjoin : c.join out_buf e = join_halves out_buf e c.pkt c.half_off c.half_len := by
    rw [← hc]
    rfl
  have hbytes : bytes_of c e = e.eth_hdr ++ e.ip_hdr ++
      (read e.data 0 e.data_len ++ read c.pkt c.half_off c.half_len) := by
    unfold bytes_of
    rw [hl]
  rw [hjoin, join_halves_eq out_buf c.pkt c.half_off c.half_len heth hth, ← hbytes]
  refine ⟨hlen.symm, fun i hi => ?_⟩
  dsimp only at hi ⊢
  rw [show 14 + e.ip_hdr.length + e.data_len + c.half_len - 14 =
    e.ip_hdr.length + e.data_len + c.half_len by omega]
  exact patch_ipv4_congr 14 _ _ (by omega) (fun j hj _ _ => write_zero_of_lt out_buf (by omega)) i hi

theorem madeOf_join_l2 {now : Nat} {pkt : Buf} {pkt_len pkt_id : Nat} {frag_index : UInt8}
    (heth : e.eth_hdr.length = 14) (hip : e.ip_hdr.length ≤ e.data_len)
    (hh : HoldsTransport e .l2) (out_buf : Buf) :
    MadeOf ⟨.l2, now, pkt, pkt_len, pkt_id, frag_index⟩ e
      (Call.join ⟨.l2, now, pkt, pkt_len, pkt_id, frag_index⟩ out_buf e).1
      (Call.join ⟨.l2, now, pkt, pkt_len, pkt_id, frag_index⟩ out_buf e).2 := by
  generalize hc : (⟨.l2, now, pkt, pkt_len, pkt_id, frag_index⟩ : Call) = c
  have hl : c.layer = .l2 := by rw [← hc]
  have hlen : (bytes_of c e).length = 14 + e.data_len + c.half_len := by
    rw [length_bytes_of heth, hl]
  have hth : e.ip_hdr.length < e.data_len →
      e.ip_hdr.length + restored_th e e.ip_hdr.length ≤ e.data_len := by
    intro hlt
    have hrest := (restored_th_le_iff e e.ip_hdr.length).mpr
    simp only [HoldsTransport] at hh
    omega
  have hjoin : c.join out_buf e = join_halves_l2 out_buf e c.pkt c.half_len := by
    rw [← hc]
    rfl
  have hbytes : bytes_of c e = e.eth_hdr.take 12 ++ [0x08, 0x00] ++
      (read e.data 0 e.data_len ++ read c.pkt 14 c.half_len) := by
    unfold bytes_of
    rw [hl, show c.half_off = 14 by rw [← hc]; rfl]
  rw [hjoin, join_halves_l2_eq out_buf c.pkt c.half_len heth hip hth]
  refine ⟨hlen.symm, fun i hi => ?_⟩
  dsimp only at hi ⊢
  rw [show 14 + e.data_len + c.half_len - 14 = e.data_len + c.half_len by omega,
    rewritten_below out_buf (ofBytes e.eth_hdr) _ (n := 14 + e.data_len + c.half_len) heth
      (by simp only [List.length_append, length_read]; omega)
      (by simp only [List.length_append, length_read]; omega) (fun _ _ => rfl) i hi]
  have hhead : e.eth_hdr.take 12 = read (ofBytes e.eth_hdr) 0 12 := by
    have hsplit := read_add (ofBytes e.eth_hdr) 0 12 2
    rw [show 12 + 2 = e.eth_hdr.length by omega, read_ofBytes] at hsplit
    exact (congrArg (List.take 12) hsplit).trans (List.take_left' (length_read _ _ _))
  generalize read e.data 0 e.data_len ++ read c.pkt 14 c.half_len = data at hbytes ⊢
  have hframe : write (ofBytes e.eth_hdr) 0 (bytes_of c e) =
      write (write (ofBytes e.eth_hdr) 12 [0x08, 0x00]) 14 data := by
    rw [hbytes, write_append, write_append, hhead, write_read]
    rfl
  rw [← hframe]
  exact patch_ipv4_congr 14 _ _ (n := 14 + e.data_len + c.half_len) (by omega)
    (fun j hj _ _ => write_zero_of_lt _ (by omega)) i hi

/-- The headers of a half that a table of the layer stores. -/
structure Framed (e : FragEntry) (l : Layer) : Prop where
  eth_len : e.eth_hdr.length = 14
  inner : l = .l2 → e.ip_hdr.length ≤ e.data_len

theorem madeOf_join (hl : c.layer ≠ .l3) (hf : Framed e c.layer) (hh : HoldsTransport e c.layer)
    (out_buf : Buf) : MadeOf c e (c.join out_buf e).1 (c.join out_buf e).2 := by
  obtain ⟨l, now, pkt, pkt_len, pkt_id, frag_index⟩ := c
  cases l with
  | l2 => exact madeOf_join_l2 hf.eth_len (hf.inner rfl) hh out_buf
  | l3 => exact absurd rfl hl
  | l4 => exact madeOf_join_l4 hf.eth_len hh out_buf

/-- Where the header does not fit, the packet is longer than its halves. -/
theorem holds_of_madeOf (hl : c.layer ≠ .l3) (hf : Framed e c.layer) {out_buf : Buf}
    (hm : MadeOf c e (c.join out_buf e).1 (c.join out_buf e).2) : HoldsTransport e c.layer := by
  have hlen := hm.1
  have heth := hf.eth_len
  obtain ⟨l, now, pkt, pkt_len, pkt_id, frag_index⟩ := c
  rw [Call.join_len, length_bytes_of heth] at hlen
  cases l with
  | l2 =>
    have hip := hf.inner rfl
    have hrest := (restored_th_le_iff e e.ip_hdr.length).mp
    simp only [Call.front] at hlen
    show e.data_len = e.ip_hdr.length ∨ e.ip_hdr.length + transport_hdr_min e.orig_proto ≤ e.data_len
    split at hlen <;> omega
  | l3 => exact absurd rfl hl
  | l4 =>
    have hrest := (restored_th_le_iff e 0).mp
    simp only [Call.front] at hlen
    show transport_hdr_min e.orig_proto ≤ e.data_len
    omega

/-- It is found by what the two tables share. -/
theorem SameHalf.joins {ft ft' : FragTable} (h : SameHalf (ft c.slot) (ft' c.slot))
    (hj : c.joins ft = some e) : c.joins ft' = some (ft' c.slot) := by
  obtain ⟨rfl, hw, hidx, hhdr, hlen⟩ := joins_eq_some_iff.mp hj
  refine joins_eq_some_iff.mpr ⟨rfl, ⟨?_, ?_, ?_⟩, hidx, hhdr, ?_⟩
  · rw [h.valid]
    exact hw.valid
  · rw [h.pkt_id]
    exact hw.id
  · rw [h.timestamp_ns]
    exact hw.fresh
  · rw [h.data_len]
    exact hlen

theorem SameHalf.framed (h : SameHalf e e') {l : Layer} (hf : Framed e l) : Framed e' l := by
  refine ⟨?_, ?_⟩
  · rw [h.eth_hdr]
    exact hf.eth_len
  · rw [h.ip_hdr, h.data_len]
    exact hf.inner

end

/-- The halves of a table that has seen one layer. -/
theorem framed_of_joins {es : List Event} {ft : FragTable} (h : TableRun frag_table_init es ft)
    {c : Call} (hes : ∀ c' out_buf, Event.call c' out_buf ∈ es → c'.layer = c.layer) {e : FragEntry}
    (hj : c.joins ft = some e) : Framed e c.layer := by
  obtain ⟨c', out_buf, old, hmem, hs⟩ := stores_of_joins h hj
  refine ⟨by rw [hs.eth_hdr, length_read], fun hl => ?_⟩
  rw [hs.ip_hdr, length_read, hs.data_len]
  exact hs.fits ((hes c' out_buf hmem).trans hl)

/-- Whatever a table of layer 2 or 4 has seen, what the next call completes is made of its two
halves alone exactly when the first one holds the shortest transport header of its protocol, or at
layer 2 nothing behind its IPv4 header. -/
theorem a_packet_is_made_of_its_halves_iff_the_first_holds_a_transport_header {es : List Event}
    {ft : FragTable} (h : TableRun frag_table_init es ft) (c : Call) (hl : c.layer ≠ .l3)
    (hes : ∀ c' out_buf, Event.call c' out_buf ∈ es → c'.layer = c.layer) :
    OnlyHalves c ft ↔ ∀ e, c.joins ft = some e → HoldsTransport e c.layer := by
  constructor
  · intro hin e hj
    have hm := (hin _ _ _ (Call.run_of_joins hj fun _ => 0)).1
    rw [← (joins_eq_some_iff.mp hj).1] at hm
    exact holds_of_madeOf hl (framed_of_joins h hes hj) hm
  · intro hholds out_buf out out_len hout
    obtain ⟨e, hj, hjoin⟩ := Call.joins_of_packet hout
    obtain rfl := (joins_eq_some_iff.mp hj).1
    have hf := framed_of_joins h hes hj
    have hm := madeOf_join hl hf (hholds _ hj) out_buf
    rw [hjoin] at hm
    dsimp only at hm
    refine ⟨hm, fun ft' out_buf' hsame => ?_⟩
    have hm' := madeOf_join hl (hsame.framed hf) (hsame.holds c.layer (hholds _ hj)) out_buf'
    have hlen : (c.join out_buf' (ft' c.slot)).2 = out_len := by
      rw [hm'.1, hsame.bytes_of_eq, ← hm.1]
    have hrun := Call.run_of_joins (hsame.joins hj) out_buf'
    rw [hlen] at hrun
    refine ⟨_, hrun, fun i hi => ?_⟩
    rw [hm'.2 i (hlen.symm ▸ hi), hm.2 i hi, hlen, hsame.bytes_of_eq, hsame.ip_hdr]

/-! ## A first half of two bytes -/

/-- A decrypted layer 4 half with the headers and the ports of `udpPing`. -/
def portsHalf (pkt_id : Nat) (frag_index : UInt8) (data : Bytes) : Call where
  layer := .l4
  now := 0
  pkt := patch_ipv4 (ofBytes (udpPing.take 38 ++ data)) 14 20 (24 + data.length)
  pkt_len := 38 + data.length
  pkt_id := pkt_id
  frag_index := frag_index

/-- The slot has seen 16 bytes under the id 512, and then a first half under the id 0. -/
def events (data : Bytes) : List Event :=
  [.call (portsHalf 512 0 (List.replicate 16 0x53)) fun _ => 0, .call (portsHalf 0 0 data) fun _ => 0]

def tableAfter (data : Bytes) : FragTable := (events data).foldl step frag_table_init

theorem tableAfter_run (data : Bytes) : TableRun frag_table_init (events data) (tableAfter data) :=
  Run.of_foldl step (events data) frag_table_init

theorem events_layer (data : Bytes) :
    ∀ c' out_buf, Event.call c' out_buf ∈ events data → c'.layer = .l4 := by
  intro c' out_buf hmem
  simp only [events, List.mem_cons, Event.call.injEq, List.not_mem_nil, or_false] at hmem
  rcases hmem with ⟨rfl, -⟩ | ⟨rfl, -⟩ <;> rfl

/-- The second half. -/
def lastBytes : Call := portsHalf 0 1 [1, 2, 3, 4, 5, 6, 7, 8]

theorem a_first_half_with_a_udp_header_is_kept_apart :
    (∃ e, lastBytes.joins (tableAfter (udpPing.drop 34)) = some e) ∧
    OnlyHalves lastBytes (tableAfter (udpPing.drop 34)) := by
  have hholds : ∀ e ∈ lastBytes.joins (tableAfter (udpPing.drop 34)), HoldsTransport e .l4 := by
    decide +kernel
  exact ⟨Option.isSome_iff_exists.mp (by decide +kernel),
    (a_packet_is_made_of_its_halves_iff_the_first_holds_a_transport_header
      (tableAfter_run (udpPing.drop 34)) lastBytes nofun (events_layer _)).mpr hholds⟩

/-- Six bytes of the other packet stand between the halves. -/
theorem a_first_half_of_two_bytes_comes_with_older_bytes :
    TableRun frag_table_init (events [1, 2]) (tableAfter [1, 2]) ∧
    (∃ out, (lastBytes.run (tableAfter [1, 2]) fun _ => 0).1 = .packet out 50 ∧
      read out 34 16 = [1, 2, 0x53, 0x53, 0x53, 0x53, 0x53, 0x53, 1, 2, 3, 4, 5, 6, 7, 8]) ∧
    ¬ OnlyHalves lastBytes (tableAfter [1, 2]) := by
  have hjoin : (lastBytes.joins (tableAfter [1, 2])).map (fun e =>
      ((lastBytes.join (fun _ => 0) e).2, read (lastBytes.join (fun _ => 0) e).1 34 16,
        (bytes_of lastBytes e).length)) =
      some (50, [1, 2, 0x53, 0x53, 0x53, 0x53, 0x53, 0x53, 1, 2, 3, 4, 5, 6, 7, 8], 44) := by
    decide +kernel
  obtain ⟨e, hj, hlen⟩ := Option.map_eq_some_iff.mp hjoin
  obtain ⟨hlen, hrest⟩ := Prod.mk.inj hlen
  obtain ⟨hread, hbytes⟩ := Prod.mk.inj hrest
  have hrun := Call.run_of_joins hj fun _ => 0
  rw [hlen] at hrun
  refine ⟨tableAfter_run [1, 2], ⟨_, hrun, hread⟩, fun hin => ?_⟩
  have hmade := (hin _ _ _ hrun).1.1
  rw [← (joins_eq_some_iff.mp hj).1, hbytes] at hmade
  exact absurd hmade (by decide)

end ne_ip.stale_bytes
