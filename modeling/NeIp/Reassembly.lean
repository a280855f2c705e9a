-- What the tables of pending halves (fragment.c) make of the decrypted halves of one
-- packet: the first half is stored as it came, and the second one completes it.
import NeIp.Fragment

open byte_buf ne_ip.packet_crypto ne_ip.tunnel ne_ip.config ne_ip.crypto_layer2
open ne_ip.crypto_layer3 ne_ip.crypto_layer4 ne_ip.fragment

namespace ne_ip.reassembly

/-! ## The halves of a packet -/

/-- The layer that a table belongs to. -/
inductive Layer where
  | l2
  | l3
  | l4
  deriving DecidableEq, Repr

def Layer.try_reassemble : Layer → (now : Nat) → FragTable → (pkt : Buf) → (pkt_len pkt_id : Nat) →
    (frag_index : UInt8) → (out_buf : Buf) → Reassembled × FragTable
  | .l2 => frag_try_reassemble_l2
  | .l3 => frag_try_reassemble
  | .l4 => frag_try_reassemble_l4

def Layer.need_split : Layer → Tls → (pkt_len : Nat) → Bool
  | .l2 => frag_need_split_l2
  | .l3 => frag_need_split
  | .l4 => frag_need_split_l4

def Layer.split (o : Openssl) (fake : Nat) : Layer → Tls → PacketCryptoCtx →
    (counter pkt_id_counter : Nat) → (pkt : Buf) → (pkt_len : Nat) → (frag1 frag2 : Buf) → SplitResult
  | .l2 => frag_split_and_encrypt_l2 o fake
  | .l3 => frag_split_and_encrypt o
  | .l4 => frag_split_and_encrypt_l4 o

def Layer.decrypt_fragment (o : Openssl) (fake : Nat) : Layer → Tls → PacketCryptoCtx → Buf →
    (pkt_len : Nat) → Option (Nat × Nat × UInt8) × Buf
  | .l2 => crypto_layer2_decrypt_fragment o fake
  | .l3 => crypto_layer3_decrypt_fragment o
  | .l4 => crypto_layer4_decrypt_fragment o

/-- A packet in two halves: its headers stand in `packet`, and the plaintexts of its fragments
are `plain1` and `plain2`. -/
structure Parts where
  packet : Buf
  ihl : Nat
  plain1 : Bytes
  plain2 : Bytes
  id : Nat

/-- Where a decrypted half has its plaintext. -/
def Parts.data_off (p : Parts) : Layer → Nat
  | .l2 => 14
  | .l3 => 14 + p.ihl
  | .l4 => 14 + p.ihl + L4_WIRE_PORT_LEN

/-- Where the part of a packet starts that is cut in two. -/
def Parts.cut_off (p : Parts) : Layer → Nat
  | .l2 => 14
  | .l3 | .l4 => 14 + p.ihl

/-- The halves are those of this packet. -/
structure Parts.Of (p : Parts) (l : Layer) (pkt : Buf) (pkt_len : Nat) : Prop where
  packet : p.packet = pkt
  ihl : p.ihl = ip_hdr_len_at pkt 14
  halves : Halves pkt (p.cut_off l) pkt_len p.plain1 p.plain2

/-- How far the headers of a decrypted half go. Layer 2 leaves the addresses. -/
def Parts.head_len (p : Parts) : Layer → Nat
  | .l2 => 12
  | .l3 | .l4 => 14 + p.ihl

/-- The header bytes that a fragment has from its packet: not the total length, not the
checksum, and at layer 3 not the protocol. -/
def Kept (l : Layer) (i : Nat) : Prop :=
  (l = .l3 → i ≠ 23) ∧ (i < 16 ∨ 18 ≤ i) ∧ (i < 24 ∨ 26 ≤ i)

/-- A decrypted half. -/
structure Opened (l : Layer) (p : Parts) (plain : Bytes) (pkt : Buf) (pkt_len : Nat) : Prop where
  len : pkt_len = p.data_off l + plain.length
  plain : read pkt (p.data_off l) plain.length = plain
  head : ∀ i, i < p.head_len l → Kept l i → pkt i = p.packet i

/-- The protocol that the table stores with a first half, when it takes it. -/
def Parts.first_proto (p : Parts) : Layer → Option UInt8
  | .l2 =>
    if p.plain1.length < 20 ∨ (p.plain1.getD 0 0).toNat / 16 ≠ 4 ∨ p.ihl < 20 ∨
        p.plain1.length < p.ihl then none
    else some (p.plain1.getD 9 0)
  | .l3 =>
    if (get_transport_hdr_size (ofBytes p.plain1) 0 6 p.plain1.length).isSome then some 6
    else if (get_transport_hdr_size (ofBytes p.plain1) 0 17 p.plain1.length).isSome then some 17
    else none
  | .l4 => some (p.packet 23)

/-- How much of the first half stands before its transport header. -/
def Parts.inner_len (p : Parts) : Layer → Nat
  | .l2 => p.ihl
  | .l3 | .l4 => 0

/-- The length that is taken for the transport header at `off` of a first half. -/
def th_of (plain1 : Bytes) (off : Nat) (proto : UInt8) : Nat :=
  match get_transport_hdr_size (ofBytes plain1) off proto (plain1.length - off) with
  | some n => n
  | none => if proto = 6 then 20 else 8

/-- The header length is the one that the packet tells, and a first half that the table takes
holds its transport header. -/
structure Parts.Wf (p : Parts) (l : Layer) : Prop where
  ihl_ge : 20 ≤ p.ihl
  ipv4 : l ≠ .l2 → be16 p.packet 12 = 0x0800 ∧ (p.packet 14).toNat % 16 * 4 = p.ihl
  inner : l = .l2 → (p.plain1.getD 0 0).toNat % 16 * 4 = p.ihl
  header : ∀ proto, p.first_proto l = some proto → (l = .l2 → p.ihl < p.plain1.length) →
    p.inner_len l + th_of p.plain1 (p.inner_len l) proto ≤ p.plain1.length

/-- What the table stores for a first half. -/
structure Holds (l : Layer) (p : Parts) (entry : FragEntry) : Prop where
  id : entry.pkt_id = p.id
  len : entry.data_len = p.plain1.length
  data : read entry.data 0 p.plain1.length = p.plain1
  proto : p.first_proto l = some entry.orig_proto
  eth_len : entry.eth_hdr.length = 14
  ip_len : entry.ip_hdr.length = p.ihl
  head : ∀ i, i < p.head_len l → Kept l i → (entry.eth_hdr ++ entry.ip_hdr).getD i 0 = p.packet i

def Parts.whole_len (p : Parts) : Layer → Nat
  | .l2 => 14 + p.plain1.length + p.plain2.length
  | .l3 | .l4 => 14 + p.ihl + p.plain1.length + p.plain2.length

/-- The packet that a table makes of the two halves. -/
def Parts.whole (p : Parts) (l : Layer) : Buf :=
  match l with
  | .l2 =>
    patch_ipv4 (write (write p.packet 12 [0x08, 0x00]) 14 (p.plain1 ++ p.plain2)) 14 p.ihl
      (p.whole_len l - 14)
  | .l3 | .l4 =>
    patch_ipv4 (write (write p.packet 23 [(p.first_proto l).getD 0]) (14 + p.ihl)
      (p.plain1 ++ p.plain2)) 14 p.ihl (p.whole_len l - 14)

/-! ## The first half -/

theorem Opened.hdr_size {l : Layer} {p : Parts} {plain : Bytes} {pkt : Buf} {pkt_len : Nat}
    (h : Opened l p plain pkt pkt_len) (proto : UInt8) :
    get_transport_hdr_size pkt (p.data_off l) proto plain.length =
      get_transport_hdr_size (ofBytes plain) 0 proto plain.length := by
  refine get_transport_hdr_size_congr ?_ proto
  rw [h.plain, read_ofBytes]

theorem Opened.require_ipv4 {l : Layer} {p : Parts} (hp : p.Wf l) (hl : l ≠ .l2) {plain : Bytes}
    {pkt : Buf} {pkt_len : Nat} (h : Opened l p plain pkt pkt_len) :
    frag_require_ipv4 pkt pkt_len = some p.ihl := by
  obtain ⟨h4, hihl⟩ := hp.ipv4 hl
  have h20 := hp.ihl_ge
  have hL : L4_WIRE_PORT_LEN = 4 := rfl
  have hlen := h.len
  have hhead : ∀ i, i < 16 → pkt i = p.packet i := by
    intro i hi
    refine h.head i ?_ ⟨fun _ => by omega, by omega, by omega⟩
    cases l with
    | l2 => exact absurd rfl hl
    | l3 | l4 => simp only [Parts.head_len]; omega
  refine frag_require_ipv4_eq ?_ ?_ h20 ?_
  · rw [be16_congr (hhead 12 (by omega)) (hhead 13 (by omega)), h4]
  · rw [hhead 14 (by omega), hihl]
  · cases l with
    | l2 => exact absurd rfl hl
    | l3 | l4 => simp only [Parts.data_off] at hlen; omega

/-- What `frag_store_pending` makes of a decrypted first half. -/
theorem store_holds {l : Layer} {p : Parts} {pkt : Buf} {pkt_len : Nat}
    (h : Opened l p p.plain1 pkt pkt_len) {proto : UInt8} (hproto : p.first_proto l = some proto)
    (old : FragEntry) (now : Nat) (hfit : p.plain1.length ≤ ENTRY_DATA_SIZE) :
    ∃ e, frag_store_pending old p.id (read pkt 0 14) (read pkt 14 p.ihl) proto pkt (p.data_off l)
        p.plain1.length now = some e ∧ e.valid = true ∧ e.timestamp_ns = now ∧ Holds l p e := by
  unfold frag_store_pending
  rw [dif_pos hfit]
  refine ⟨_, rfl, rfl, rfl, rfl, rfl, ?_, hproto, length_read _ _ _, length_read _ _ _, ?_⟩
  · dsimp only
    rw [h.plain]
    exact read_write_self _ _ _ _ rfl
  · intro i hi hk
    have hlt : i < 14 + p.ihl := by
      cases l <;> simp only [Parts.head_len] at hi <;> omega
    have hread := read_add pkt 0 14 p.ihl
    rw [Nat.zero_add] at hread
    dsimp only
    rw [← hread, getD_read _ _ _ _ hlt, Nat.zero_add]
    exact h.head i hi hk

/-- The table with the stored half in it, or as it was when the half is too long. -/
theorem store_first {l : Layer} {p : Parts} {pkt : Buf} {pkt_len : Nat}
    (h : Opened l p p.plain1 pkt pkt_len) {proto : UInt8} (hproto : p.first_proto l = some proto)
    (now : Nat) (ft : FragTable) (idx : Nat) {r : Reassembled × FragTable}
    (hr : (match frag_store_pending (ft idx) p.id (read pkt 0 14) (read pkt 14 p.ihl) proto pkt
        (p.data_off l) p.plain1.length now with
      | none => (Reassembled.failed, ft)
      | some entry => (.pending, set_entry ft idx entry)) = r) :
    ((p.first_proto l = none ∨ ENTRY_DATA_SIZE < p.plain1.length) ∧ r = (.failed, ft)) ∨
    ∃ e, r = (.pending, set_entry ft idx e) ∧ e.valid = true ∧ e.timestamp_ns = now ∧
      Holds l p e := by
  by_cases hfit : p.plain1.length ≤ ENTRY_DATA_SIZE
  · right
    obtain ⟨e, he, hv, ht, hh⟩ := store_holds h hproto (ft idx) now hfit
    rw [he] at hr
    exact ⟨e, hr.symm, hv, ht, hh⟩
  · left
    unfold frag_store_pending at hr
    rw [dif_neg hfit] at hr
    exact ⟨Or.inr (by omega), hr.symm⟩

/-- A first half is stored, or it is refused by every table and at any time. -/
theorem try_reassemble_first {l : Layer} {p : Parts} (hp : p.Wf l) {pkt : Buf} {pkt_len : Nat}
    (h : Opened l p p.plain1 pkt pkt_len) (now : Nat) (ft : FragTable) (out_buf : Buf)
    {r : Reassembled × FragTable} (hr : l.try_reassemble now ft pkt pkt_len p.id 0 out_buf = r) :
    ((p.first_proto l = none ∨ ENTRY_DATA_SIZE < p.plain1.length) ∧ r = (.failed, ft)) ∨
    ∃ e, r = (.pending, set_entry ft (p.id % FRAG_TABLE_SIZE) e) ∧ e.valid = true ∧
      e.timestamp_ns = now ∧ Holds l p e := by
  have h20 := hp.ihl_ge
  have hlen := h.len
  cases l with
  | l3 =>
    have hpl : pkt_len - 14 - p.ihl = p.plain1.length := by
      simp only [Parts.data_off] at hlen
      omega
    have h6 := h.hdr_size 6
    have h17 := h.hdr_size 17
    simp only [Layer.try_reassemble, frag_try_reassemble,
      h.require_ipv4 hp (by decide), hpl, if_true] at hr
    rw [show 14 + p.ihl = p.data_off .l3 from rfl, h6, h17] at hr
    split at hr
    · rename_i ht
      exact store_first h (by simp only [Parts.first_proto, ht, if_true]) now ft _ hr
    rename_i ht
    split at hr
    · rename_i hu
      refine store_first h ?_ now ft _ hr
      simp only [Parts.first_proto, ht, hu, if_true, Bool.false_eq_true, if_false]
    · rename_i hu
      refine Or.inl ⟨Or.inl ?_, hr.symm⟩
      simp only [Parts.first_proto, ht, hu, Bool.false_eq_true, if_false]
  | l4 =>
    have hL : L4_WIRE_PORT_LEN = 4 := rfl
    obtain ⟨h4, hihl⟩ := hp.ipv4 (by decide)
    obtain ⟨h4', hihl', -, -⟩ := frag_require_ipv4_some (h.require_ipv4 hp (by decide))
    simp only [Parts.data_off] at hlen
    have hpl : u32_sub (u32_sub pkt_len 14) p.ihl - L4_WIRE_PORT_LEN = p.plain1.length := by
      rw [u32_sub_of_le (show 14 ≤ pkt_len by omega), u32_sub_of_le (by omega)]
      omega
    have hproto : pkt (14 + 9) = p.packet 23 :=
      h.head 23 (by simp only [Parts.head_len]; omega) ⟨fun hl => absurd hl (by decide), by omega, by omega⟩
    simp only [Layer.try_reassemble, frag_try_reassemble_l4, h4', hihl', hpl, hproto] at hr
    rw [if_neg (by omega), if_pos trivial] at hr
    exact store_first h rfl now ft _ hr
  | l2 =>
    have hE : ETH_HEADER_SIZE = 14 := rfl
    simp only [Parts.data_off] at hlen
    have hbyte : ∀ i, i < p.plain1.length → pkt (14 + i) = p.plain1.getD i 0 := by
      intro i hi
      have hr := getD_read pkt 14 p.plain1.length i hi
      rw [show read pkt 14 p.plain1.length = p.plain1 from h.plain] at hr
      exact hr.symm
    have hpl : pkt_len - ETH_HEADER_SIZE = p.plain1.length := by omega
    simp only [Layer.try_reassemble, frag_try_reassemble_l2, hpl, if_true] at hr
    by_cases hshort : p.plain1.length < 20
    · refine Or.inl ⟨Or.inl (if_pos (Or.inl hshort)), ?_⟩
      rw [if_pos (by omega)] at hr
      exact hr.symm
    have h0 := hbyte 0 (by omega)
    rw [Nat.add_zero] at h0
    have hihl := hp.inner rfl
    rw [if_neg (by omega), hE, h0, hbyte 9 (by omega), hihl] at hr
    split at hr
    · rename_i hc
      exact Or.inl ⟨Or.inl (if_pos hc), hr.symm⟩
    · rename_i hc
      exact store_first h (if_neg hc) now ft _ hr

/-! ## The second half -/

/-- The tables differ in entries that are free now. -/
def Frees (ft ft' : FragTable) : Prop := ∀ i, ft' i = ft i ∨ (ft' i).valid = false

theorem frees_set_entry (ft : FragTable) (idx : Nat) {e : FragEntry} (h : e.valid = false) :
    Frees ft (set_entry ft idx e) := by
  intro i
  unfold set_entry
  split
  · exact Or.inr h
  · exact Or.inl rfl

theorem frees_gc (now : Nat) (ft : FragTable) : Frees ft (frag_table_gc now ft) := by
  intro i
  unfold frag_table_gc
  split
  · exact Or.inr rfl
  · exact Or.inl rfl

theorem take_pending_cases (ft : FragTable) (idx pkt_id now : Nat) :
    (∃ ft', take_pending ft idx pkt_id now = (none, ft') ∧ Frees ft ft') ∨
    (take_pending ft idx pkt_id now = (some (ft idx), ft) ∧ (ft idx).valid = true ∧
      (ft idx).pkt_id = pkt_id) := by
  unfold take_pending
  dsimp only
  split
  · exact Or.inl ⟨_, rfl, fun _ => Or.inl rfl⟩
  rename_i hc
  split
  · exact Or.inl ⟨_, rfl, frees_set_entry ft idx rfl⟩
  · rw [not_or] at hc
    exact Or.inr ⟨rfl, by simpa using hc.1, by simpa using hc.2⟩

/-- A half that waits and is not too old is found. -/
theorem take_pending_in_time {ft : FragTable} {idx pkt_id now : Nat} (hv : (ft idx).valid = true)
    (hid : (ft idx).pkt_id = pkt_id) (hstored : (ft idx).timestamp_ns ≤ now)
    (hnow : now ≤ (ft idx).timestamp_ns + FRAG_TIMEOUT_NS) :
    take_pending ft idx pkt_id now = (some (ft idx), ft) := by
  have hage : ¬ FRAG_TIMEOUT_NS < size_sub now (ft idx).timestamp_ns := by
    unfold size_sub
    rw [if_pos hstored]
    omega
  unfold take_pending
  dsimp only
  rw [if_neg (by simp [hv, hid]), if_neg hage]

/-- The halves that the tables do not refuse for their lengths. -/
def Parts.Fits (p : Parts) : Layer → Prop
  | .l2 => 20 ≤ p.plain2.length ∧ p.plain1.length + p.plain2.length ≤ REASSEMBLED_SIZE
  | .l3 => p.plain1.length + p.plain2.length ≤ REASSEMBLED_SIZE
  | .l4 => 8 ≤ (p.plain1.length + p.plain2.length) % 2 ^ 32 ∧
      (p.plain1.length + p.plain2.length) % 2 ^ 32 ≤ REASSEMBLED_SIZE

theorem Holds.data_at {l : Layer} {p : Parts} {e : FragEntry} (h : Holds l p e) {off n : Nat}
    (hn : off + n ≤ p.plain1.length) : read e.data off n = read (ofBytes p.plain1) off n := by
  refine read_congr fun i _ h2 => ?_
  have hr := getD_read e.data 0 p.plain1.length i (by omega)
  rw [h.data, Nat.zero_add] at hr
  exact hr.symm

/-- The transport header is looked for where it is stored. -/
theorem Holds.restored_th_eq {l : Layer} {p : Parts} {e : FragEntry} (h : Holds l p e) {off : Nat}
    (hoff : off ≤ p.plain1.length) : restored_th e off = th_of p.plain1 off e.orig_proto := by
  have hread := h.data_at (show off + (p.plain1.length - off) ≤ p.plain1.length by omega)
  have hsize := get_transport_hdr_size_congr hread e.orig_proto
  unfold restored_th th_of
  rw [h.len]
  generalize get_transport_hdr_size e.data off e.orig_proto (p.plain1.length - off) = r at hsize ⊢
  subst hsize
  rfl

/-- The joined packet is written as one piece: the headers, the first half, the second half. -/
theorem join_halves_eq (out_buf : Buf) {e : FragEntry} (pkt : Buf) (second_off second_len : Nat)
    (heth : e.eth_hdr.length = 14) (hth : restored_th e 0 ≤ e.data_len) :
    join_halves out_buf e pkt second_off second_len =
      (patch_ipv4 (write out_buf 0 (e.eth_hdr ++ e.ip_hdr ++ (read e.data 0 e.data_len ++
          read pkt second_off second_len))) 14 e.ip_hdr.length
          (e.ip_hdr.length + e.data_len + second_len),
        14 + e.ip_hdr.length + e.data_len + second_len) := by
  have hread := read_add e.data 0 (restored_th e 0) (e.data_len - restored_th e 0)
  rw [Nat.add_sub_of_le hth, Nat.zero_add] at hread
  have hlen : 14 + e.ip_hdr.length + restored_th e 0 + (e.data_len - restored_th e 0) + second_len =
      14 + e.ip_hdr.length + e.data_len + second_len := by omega
  have htotal : 14 + e.ip_hdr.length + e.data_len + second_len - 14 =
      e.ip_hdr.length + e.data_len + second_len := by omega
  unfold join_halves
  simp only [hlen, htotal, hread, ← List.append_assoc, write_append, List.length_append,
    length_read, heth, Nat.zero_add]

/-- The bytes of two rewritten packets agree when those agree that the rewrite leaves. -/
theorem patched_head (out_buf packet : Buf) {hdr data : Bytes} {ihl n total : Nat} {proto : UInt8}
    (hhdr : hdr.length = 14 + ihl) (hn : n = 14 + ihl + data.length)
    (hproto : hdr.getD 23 0 = proto)
    (hkeep : ∀ i, i < 14 + ihl → i ≠ 23 → (i < 16 ∨ 18 ≤ i) → (i < 24 ∨ 26 ≤ i) →
      hdr.getD i 0 = packet i) (i : Nat) (hi : i < n) :
    patch_ipv4 (write out_buf 0 (hdr ++ data)) 14 ihl total i =
      patch_ipv4 (write (write packet 23 [proto]) (14 + ihl) data) 14 ihl total i := by
  refine patch_ipv4_congr 14 ihl total (n := n) (by omega) (fun j hj h1 h2 => ?_) i hi
  rw [write_append, Nat.zero_add, hhdr]
  refine write_congr_at fun hout => ?_
  have hj' : j < 14 + ihl := by omega
  rw [write_in _ _ _ _ (Nat.zero_le j) (by omega), Nat.sub_zero]
  by_cases h23 : j = 23
  · subst h23
    rw [hproto, write_head]
  · rw [hkeep j hj' h23 (by omega) (by omega), write_out _ _ _ _ (by
      simp only [List.length_singleton]
      omega)]

/-- What completing the halves gives: the whole packet, unless it is too long. -/
def Completes (l : Layer) (p : Parts) (ft : FragTable) (r : Reassembled × FragTable) : Prop :=
  (¬ p.Fits l ∧ r.1 = .failed ∧ Frees ft r.2) ∨
  (p.Fits l ∧ ∃ out ft', r = (.packet out (p.whole_len l), ft') ∧ Frees ft ft' ∧
    ∀ i, i < p.whole_len l → out i = p.whole l i)

/-- Layers 3 and 4 join the second half to a first half that belongs to it. The header that
they take has the stored protocol. -/
theorem join_halves_whole {l : Layer} {p : Parts} (hp : p.Wf l) (hl : l ≠ .l2) {e : FragEntry}
    (hh : Holds l p e) {pkt : Buf} {pkt_len : Nat} (h : Opened l p p.plain2 pkt pkt_len)
    (out_buf : Buf) (ip_hdr : Bytes) (hip : ip_hdr.length = p.ihl)
    (hproto : ip_hdr.getD 9 0 = e.orig_proto)
    (hkeep : ∀ i, i ≠ 9 → ip_hdr.getD i 0 = e.ip_hdr.getD i 0) :
    ∃ out, join_halves out_buf { e with ip_hdr } pkt (p.data_off l) p.plain2.length =
        (out, p.whole_len l) ∧ ∀ i, i < p.whole_len l → out i = p.whole l i := by
  have h20 := hp.ihl_ge
  have hlen := hh.len
  have heth := hh.eth_len
  have hhead : p.head_len l = 14 + p.ihl := by cases l <;> first | rfl | exact absurd rfl hl
  have hinner : p.inner_len l = 0 := by cases l <;> first | rfl | exact absurd rfl hl
  have hwl : p.whole_len l = 14 + p.ihl + p.plain1.length + p.plain2.length := by
    cases l <;> first | rfl | exact absurd rfl hl
  have hwhole : p.whole l = patch_ipv4 (write (write p.packet 23 [e.orig_proto]) (14 + p.ihl)
      (p.plain1 ++ p.plain2)) 14 p.ihl (p.whole_len l - 14) := by
    have hget : (p.first_proto l).getD 0 = e.orig_proto := by rw [hh.proto]; rfl
    rw [← hget]
    cases l <;> first | rfl | exact absurd rfl hl
  have hth : restored_th { e with ip_hdr } 0 ≤ e.data_len := by
    have hhdr := hp.header _ hh.proto fun h2 => absurd h2 hl
    have hrest := hh.restored_th_eq (Nat.zero_le _)
    rw [hinner, ← hrest, Nat.zero_add, ← hlen] at hhdr
    exact hhdr
  have hplain2 : read pkt (p.data_off l) p.plain2.length = p.plain2 := h.plain
  have hdata := hh.data
  refine ⟨_, join_halves_eq out_buf (e := { e with ip_hdr }) pkt (p.data_off l) p.plain2.length
    heth hth |>.trans (Prod.ext rfl ?_), ?_⟩
  · dsimp only
    omega
  · intro i hi
    dsimp only
    rw [hplain2, hlen, hdata, hip, hwhole, show p.ihl + p.plain1.length + p.plain2.length =
      p.whole_len l - 14 by omega]
    refine patched_head out_buf p.packet (n := p.whole_len l) ?_ ?_ ?_ ?_ i hi
    · rw [List.length_append, heth, hip]
    · rw [List.length_append]
      omega
    · rw [List.getD_append_right _ _ _ _ (by omega), heth]
      exact hproto
    · intro j hj h23 h1 h2
      rw [← hh.head j (by omega) ⟨fun _ => h23, h1, h2⟩]
      by_cases hj14 : j < 14
      · rw [List.getD_append _ _ _ _ (by omega), List.getD_append _ _ _ _ (by omega)]
      · rw [List.getD_append_right _ _ _ _ (by omega), List.getD_append_right _ _ _ _ (by omega),
          hkeep _ (by omega)]

/-- Layer 2 writes the stored bytes in three pieces, at one header and then the other. -/
theorem write_pieces (out_buf b : Buf) {eth second : Bytes} {m k n : Nat} (heth : eth.length = 14)
    (hn : m + k ≤ n) :
    write (write (write (write (write out_buf 0 eth) 14 (read b 0 m)) (14 + m) (read b m k))
        (14 + m + k) (read b (m + k) (n - m - k))) (14 + m + k + (n - m - k)) second =
      write out_buf 0 (eth ++ (read b 0 n ++ second)) := by
  have hread : read b 0 n = read b 0 m ++ (read b m k ++ read b (m + k) (n - m - k)) := by
    have h1 := read_add b 0 m (n - m)
    have h2 := read_add b m k (n - m - k)
    rw [Nat.add_sub_of_le (by omega), Nat.zero_add] at h1
    rw [Nat.add_sub_of_le (by omega)] at h2
    rw [h1, h2]
  simp only [hread, ← List.append_assoc, write_append, List.length_append, length_read, heth,
    Nat.zero_add]

/-- The packet that `frag_try_reassemble_l2` puts together. -/
def join_halves_l2 (out_buf : Buf) (entry : FragEntry) (pkt : Buf) (second_len : Nat) : Buf × Nat :=
  let ip_hdr_len := entry.ip_hdr.length
  let out := write out_buf 0 entry.eth_hdr
  let out := write out 14 (read entry.data 0 ip_hdr_len)
  let th := if ip_hdr_len < entry.data_len then restored_th entry ip_hdr_len else 0
  let first_app := entry.data_len - ip_hdr_len - th
  let off := 14 + ip_hdr_len
  let out := write out off (read entry.data ip_hdr_len th)
  let out := write out (off + th) (read entry.data (ip_hdr_len + th) first_app)
  let out := write out (off + th + first_app) (read pkt 14 second_len)
  let out_len := off + th + first_app + second_len
  (write (patch_ipv4 out 14 ip_hdr_len (out_len - 14)) 12 [0x08, 0x00], out_len)

/-- It is written as one piece too, when the first half holds what is taken for its header. -/
theorem join_halves_l2_eq (out_buf : Buf) {e : FragEntry} (pkt : Buf) (second_len : Nat)
    (heth : e.eth_hdr.length = 14) (hip : e.ip_hdr.length ≤ e.data_len)
    (hth : e.ip_hdr.length < e.data_len →
      e.ip_hdr.length + restored_th e e.ip_hdr.length ≤ e.data_len) :
    join_halves_l2 out_buf e pkt second_len =
      (write (patch_ipv4 (write out_buf 0 (e.eth_hdr ++ (read e.data 0 e.data_len ++
          read pkt 14 second_len))) 14 e.ip_hdr.length (e.data_len + second_len)) 12 [0x08, 0x00],
        14 + e.data_len + second_len) := by
  have hfits : e.ip_hdr.length +
      (if e.ip_hdr.length < e.data_len then restored_th e e.ip_hdr.length else 0) ≤ e.data_len := by
    split
    · rename_i hlt
      exact hth hlt
    · omega
  unfold join_halves_l2
  dsimp only
  generalize (if e.ip_hdr.length < e.data_len then restored_th e e.ip_hdr.length else 0) = th at hfits
  have hlen : 14 + e.ip_hdr.length + th + (e.data_len - e.ip_hdr.length - th) + second_len =
      14 + e.data_len + second_len := by omega
  rw [write_pieces out_buf e.data heth hfits, hlen,
    show 14 + e.data_len + second_len - 14 = e.data_len + second_len by omega]

/-- What the rewrite leaves of a frame under another ethertype. -/
theorem rewritten_below (out_buf packet : Buf) (total : Nat) {eth data : Bytes} {ihl n : Nat}
    (heth : eth.length = 14) (hn : n = 14 + data.length) (hihl : ihl ≤ data.length)
    (hhead : ∀ i, i < 12 → eth.getD i 0 = packet i) (i : Nat) (hi : i < n) :
    write (patch_ipv4 (write out_buf 0 (eth ++ data)) 14 ihl total) 12 [0x08, 0x00] i =
      patch_ipv4 (write (write packet 12 [0x08, 0x00]) 14 data) 14 ihl total i := by
  have hb : ∀ j, (j < 12 ∨ 14 ≤ j) → j < n →
      write out_buf 0 (eth ++ data) j = write (write packet 12 [0x08, 0x00]) 14 data j := by
    intro j hj hjn
    rw [write_append, Nat.zero_add, heth]
    refine write_congr_at fun hout => ?_
    have hj12 : j < 12 := by omega
    rw [write_in _ _ _ _ (Nat.zero_le j) (by omega), Nat.sub_zero, hhead j hj12,
      write_out _ _ _ _ (by omega)]
  by_cases h12 : i < 12 ∨ 14 ≤ i
  · rw [write_out _ _ _ _ (by simp only [List.length_cons, List.length_nil]; omega)]
    exact patch_ipv4_congr_at _ (fun j h1 h2 _ _ => hb j (by omega) (by omega))
      fun _ _ => hb i h12 hi
  · -- the ethertype of IPv4
    rw [patch_ipv4_out _ _ _ _ i (by omega) (by omega), write_out _ 14 _ _ (by omega)]
    rcases (show i = 12 ∨ i = 12 + 1 by omega) with rfl | rfl
    · rw [write_head, write_head]
    · rw [write_second, write_second]

/-- Layer 2 joins the second half to a first half that belongs to it. -/
theorem join_halves_l2_whole {p : Parts} (hp : p.Wf .l2) {e : FragEntry} (hh : Holds .l2 p e)
    {pkt : Buf} {pkt_len : Nat} (h : Opened .l2 p p.plain2 pkt pkt_len) (out_buf : Buf) :
    ∃ out, join_halves_l2 out_buf e pkt p.plain2.length = (out, p.whole_len .l2) ∧
      ∀ i, i < p.whole_len .l2 → out i = p.whole .l2 i := by
  have hihl : p.ihl ≤ p.plain1.length := by
    have hproto := hh.proto
    unfold Parts.first_proto at hproto
    dsimp only at hproto
    split at hproto
    · simp at hproto
    · omega
  have hlen := hh.len
  have hip := hh.ip_len
  have heth := hh.eth_len
  have hwl : p.whole_len .l2 = 14 + p.plain1.length + p.plain2.length := rfl
  have hplain2 : read pkt 14 p.plain2.length = p.plain2 := h.plain
  have hth : e.ip_hdr.length < e.data_len →
      e.ip_hdr.length + restored_th e e.ip_hdr.length ≤ e.data_len := by
    intro hlt
    have hhdr := hp.header _ hh.proto fun _ => by omega
    have hrest := hh.restored_th_eq hihl
    simp only [Parts.inner_len] at hhdr
    rw [hip, hrest]
    omega
  have hjoin := join_halves_l2_eq out_buf pkt p.plain2.length heth (by omega) hth
  rw [hip, hlen, hh.data, hplain2] at hjoin
  refine ⟨_, hjoin, ?_⟩
  intro i hi
  have hbelow := rewritten_below out_buf p.packet (p.plain1.length + p.plain2.length)
    (n := p.whole_len .l2) heth (by rw [List.length_append]; omega) (show p.ihl ≤ (p.plain1 ++ p.plain2).length by
      rw [List.length_append]; omega) ?_ i hi
  · rw [hbelow, show p.plain1.length + p.plain2.length = p.whole_len .l2 - 14 by omega]
    rfl
  · intro j hj
    have hhead := hh.head j hj ⟨fun hl => absurd hl (by decide), by omega, by omega⟩
    rwa [List.getD_append _ _ _ _ (by omega)] at hhead

/-- What a second half does: without a first half that waits under its id it fails, otherwise it
completes it. -/
def Completed (l : Layer) (p : Parts) (now : Nat) (ft : FragTable) (r : Reassembled × FragTable) :
    Prop :=
  (∀ ft', take_pending ft (p.id % FRAG_TABLE_SIZE) p.id now = (none, ft') →
    r.1 = .failed ∧ (r.2 = ft' ∨ r.2 = ft)) ∧
  (take_pending ft (p.id % FRAG_TABLE_SIZE) p.id now = (some (ft (p.id % FRAG_TABLE_SIZE)), ft) →
    Holds l p (ft (p.id % FRAG_TABLE_SIZE)) → Completes l p ft r)

section

variable {p : Parts} {pkt : Buf} {pkt_len now : Nat} {ft : FragTable} {out_buf : Buf}
  {r : Reassembled × FragTable}

theorem try_reassemble_second_l2 (hp : p.Wf .l2) (h : Opened .l2 p p.plain2 pkt pkt_len)
    (hr : Layer.l2.try_reassemble now ft pkt pkt_len p.id 1 out_buf = r) :
    Completed .l2 p now ft r := by
  have h20 := hp.ihl_ge
  have hlen := h.len
  have hE : ETH_HEADER_SIZE = 14 := rfl
  simp only [Parts.data_off] at hlen
  have hpl : pkt_len - ETH_HEADER_SIZE = p.plain2.length := by omega
  simp only [Layer.try_reassemble, frag_try_reassemble_l2, hpl] at hr
  by_cases hshort : p.plain2.length < 20
  · rw [if_pos (by omega)] at hr
    refine ⟨fun ft' _ => ⟨by rw [← hr], Or.inr (by rw [← hr])⟩, fun _ _ => Or.inl ⟨?_, ?_, ?_⟩⟩
    · simp only [Parts.Fits]
      omega
    · rw [← hr]
    · rw [← hr]
      exact fun _ => Or.inl rfl
  rw [if_neg (by omega), if_neg (by decide), if_pos trivial] at hr
  constructor
  · intro ft' htake
    rw [htake] at hr
    exact ⟨by rw [← hr], Or.inl (by rw [← hr])⟩
  · intro htake hh
    rw [htake] at hr
    dsimp only at hr
    have hlen1 := hh.len
    split at hr
    · refine Or.inl ⟨?_, by rw [← hr], ?_⟩
      · simp only [Parts.Fits]
        omega
      · rw [← hr]
        exact frees_set_entry ft _ rfl
    · refine Or.inr ⟨?_, ?_⟩
      · simp only [Parts.Fits]
        omega
      obtain ⟨out, hjoin, hout⟩ := join_halves_l2_whole hp hh h out_buf
      have hr' : (Reassembled.packet
          (join_halves_l2 out_buf (ft (p.id % FRAG_TABLE_SIZE)) pkt p.plain2.length).1
          (join_halves_l2 out_buf (ft (p.id % FRAG_TABLE_SIZE)) pkt p.plain2.length).2,
          set_entry ft (p.id % FRAG_TABLE_SIZE)
            { ft (p.id % FRAG_TABLE_SIZE) with valid := false }) = r := hr
      rw [hjoin] at hr'
      exact ⟨out, _, hr'.symm, frees_set_entry ft _ rfl, hout⟩

theorem try_reassemble_second_l3 (hp : p.Wf .l3) (h : Opened .l3 p p.plain2 pkt pkt_len)
    (hr : Layer.l3.try_reassemble now ft pkt pkt_len p.id 1 out_buf = r) :
    Completed .l3 p now ft r := by
  have h20 := hp.ihl_ge
  have hlen := h.len
  have hpl : pkt_len - 14 - p.ihl = p.plain2.length := by
    simp only [Parts.data_off] at hlen
    omega
  simp only [Layer.try_reassemble, frag_try_reassemble, h.require_ipv4 hp (by decide), hpl] at hr
  rw [if_neg (by decide), if_pos trivial] at hr
  constructor
  · intro ft' htake
    rw [htake] at hr
    exact ⟨by rw [← hr], Or.inl (by rw [← hr])⟩
  · intro htake hh
    rw [htake] at hr
    dsimp only at hr
    have hlen1 := hh.len
    split at hr
    · refine Or.inl ⟨?_, by rw [← hr], ?_⟩
      · simp only [Parts.Fits]
        omega
      · rw [← hr]
        exact frees_set_entry ft _ rfl
    · refine Or.inr ⟨?_, ?_⟩
      · simp only [Parts.Fits]
        omega
      obtain ⟨out, hjoin, hout⟩ := join_halves_whole hp (by decide) hh h out_buf
        ((ft (p.id % FRAG_TABLE_SIZE)).ip_hdr.set 9 (ft (p.id % FRAG_TABLE_SIZE)).orig_proto)
        (by rw [List.length_set, hh.ip_len]) (getD_set_self (by rw [hh.ip_len]; omega) _)
        fun i hi => getD_set_ne _ _ hi
      rw [show 14 + p.ihl = p.data_off .l3 from rfl, hjoin] at hr
      exact ⟨out, _, hr.symm, frees_set_entry ft _ rfl, hout⟩

theorem try_reassemble_second_l4 (hp : p.Wf .l4) (h : Opened .l4 p p.plain2 pkt pkt_len)
    (hr : Layer.l4.try_reassemble now ft pkt pkt_len p.id 1 out_buf = r) :
    Completed .l4 p now ft r := by
  have h20 := hp.ihl_ge
  have hlen := h.len
  have hL : L4_WIRE_PORT_LEN = 4 := rfl
  obtain ⟨h4', hihl', -, -⟩ := frag_require_ipv4_some (h.require_ipv4 hp (by decide))
  simp only [Parts.data_off] at hlen
  have hpl : u32_sub (u32_sub pkt_len 14) p.ihl - L4_WIRE_PORT_LEN = p.plain2.length := by
    rw [u32_sub_of_le (show 14 ≤ pkt_len by omega), u32_sub_of_le (by omega)]
    omega
  simp only [Layer.try_reassemble, frag_try_reassemble_l4, h4', hihl', hpl] at hr
  rw [if_neg (by omega), if_neg (by decide), if_pos trivial] at hr
  constructor
  · intro ft' htake
    rw [htake] at hr
    exact ⟨by rw [← hr], Or.inl (by rw [← hr])⟩
  · intro htake hh
    rw [htake] at hr
    dsimp only at hr
    have hlen1 := hh.len
    split at hr
    · rename_i hc
      rw [hlen1] at hc
      refine Or.inl ⟨?_, by rw [← hr], ?_⟩
      · simp only [Parts.Fits]
        omega
      · rw [← hr]
        exact frees_set_entry ft _ rfl
    · rename_i hc
      rw [hlen1] at hc
      refine Or.inr ⟨?_, ?_⟩
      · simp only [Parts.Fits]
        omega
      have hproto : (ft (p.id % FRAG_TABLE_SIZE)).ip_hdr.getD 9 0 =
          (ft (p.id % FRAG_TABLE_SIZE)).orig_proto := by
        have h23 := hh.head 23 (by simp only [Parts.head_len]; omega) ⟨fun hl => absurd hl (by decide), by omega, by omega⟩
        rw [List.getD_append_right _ _ _ _ (by rw [hh.eth_len]; omega), hh.eth_len] at h23
        rw [h23]
        exact Option.some.inj hh.proto
      obtain ⟨out, hjoin, hout⟩ := join_halves_whole hp (by decide) hh h out_buf _ hh.ip_len
        hproto fun _ _ => rfl
      rw [show 14 + p.ihl + L4_WIRE_PORT_LEN = p.data_off .l4 from rfl] at hr
      rw [show join_halves out_buf (ft (p.id % FRAG_TABLE_SIZE)) pkt (p.data_off .l4)
        p.plain2.length = (out, p.whole_len .l4) from hjoin] at hr
      exact ⟨out, _, hr.symm, frees_set_entry ft _ rfl, hout⟩

end

/-- A second half completes the first half that waits under its id, if there is one. -/
theorem try_reassemble_second {l : Layer} {p : Parts} (hp : p.Wf l) {pkt : Buf} {pkt_len : Nat}
    (h : Opened l p p.plain2 pkt pkt_len) (now : Nat) (ft : FragTable) (out_buf : Buf)
    {r : Reassembled × FragTable} (hr : l.try_reassemble now ft pkt pkt_len p.id 1 out_buf = r) :
    Completed l p now ft r := by
  cases l with
  | l2 => exact try_reassemble_second_l2 hp h hr
  | l3 => exact try_reassemble_second_l3 hp h hr
  | l4 => exact try_reassemble_second_l4 hp h hr

end ne_ip.reassembly
