-- What leaves the worker for a packet under a policy that encrypts: encapsulated frames,
-- unless the layer takes the packet for one that it should leave alone.
import NeIp.Worker
import NeIp.Sample

open byte_buf ne_ip.packet_crypto ne_ip.tunnel ne_ip.config ne_ip.crypto_layer2
open ne_ip.crypto_layer3 ne_ip.crypto_layer4 ne_ip.fragment ne_ip.reassembly ne_ip.forwarder
open ne_ip.flow ne_ip.worker ne_ip.sample

namespace ne_ip.cleartext_leak

/-! ## Encapsulated frames -/

/-- The packet with its payload sealed behind a nonce. -/
def FrameOf (o : Openssl) (fake : Nat) (tls : Tls) (ctx : PacketCryptoCtx) (counter : Nat)
    (pkt : Buf) (pkt_len : Nat) (out : Buf) : Layer → Prop
  | .l2 => L2Frame o fake tls ctx counter pkt pkt_len out
  | .l3 => L3Frame o tls ctx counter pkt pkt_len (ip_hdr_len_at pkt 14) out
  | .l4 => L4Frame o tls ctx counter pkt pkt_len 14 out

/-- A fragment that has `enc_plain` sealed. -/
def FragmentOf (o : Openssl) (fake : Nat) (tls : Tls) (ctx : PacketCryptoCtx) (counter : Nat)
    (pkt : Buf) (enc_plain : Bytes) (pkt_id : Nat) (frag_index : UInt8) (out : Buf) (n : Nat) :
    Layer → Prop
  | .l2 => L2Fragment o fake tls ctx counter pkt enc_plain pkt_id frag_index out n
  | .l3 => L3Fragment o tls ctx counter pkt (ip_hdr_len_at pkt 14) enc_plain pkt_id frag_index out n
  | .l4 => L4Fragment o tls ctx counter pkt (ip_hdr_len_at pkt 14) enc_plain pkt_id frag_index out n

/-- Where the part of a packet starts that a split protects. -/
def payload_off (pkt : Buf) : Layer → Nat
  | .l2 => 14
  | .l3 | .l4 => 14 + ip_hdr_len_at pkt 14

/-- A copy with other Ethernet addresses. -/
def Readdressed (pkt out : Buf) : Prop := ∀ i, 12 ≤ i → out i = pkt i

/-- The length of the packet with its nonce, its tunnel header and its tag. -/
def encapsulated_len (tls : Tls) (pkt_len : Nat) : Layer → Nat
  | .l2 => pkt_len + tls.nonce_size + tag_overhead tls
  | .l3 | .l4 => pkt_len + (packet_crypto_get_tunnel_hdr_size tls + tag_overhead tls)

/-- The frames that leave are the whole result of the encrypt function, longer than the packet,
or the two encrypted fragments of a packet that needs a split, as far as they were sent. -/
def Protected (o : Openssl) (fake : Nat) (tls : Tls) (ctx : PacketCryptoCtx) (counter : Nat)
    (l : Layer) (pkt : Buf) (pkt_len : Nat) (sent : List Bytes) : Prop :=
  sent = [] ∨
  (∃ pkt' n, Readdressed pkt pkt' ∧ pkt_len < n ∧ n = encapsulated_len tls pkt_len l ∧
    (encrypt_at o fake l tls ctx counter pkt' pkt_len).ret = some n ∧
    FrameOf o fake tls ctx counter pkt' pkt_len
      (encrypt_at o fake l tls ctx counter pkt' pkt_len).pkt l ∧
    sent = [read (encrypt_at o fake l tls ctx counter pkt' pkt_len).pkt 0 n]) ∨
  (l.need_split tls pkt_len = true ∧
    ∃ pkt' m c id f1 f2 out1 out2 n1 n2, Readdressed pkt pkt' ∧ payload_off pkt l ≤ m ∧ m ≤ pkt_len ∧
      FragmentOf o fake tls ctx counter pkt' (read pkt (payload_off pkt l) (m - payload_off pkt l)) id 0
        f1 n1 l ∧
      FragmentOf o fake tls ctx c pkt' (read pkt m (pkt_len - m)) id 1 f2 n2 l ∧
      Readdressed f1 out1 ∧ Readdressed f2 out2 ∧
      sent.Sublist [read out1 0 n1, read out2 0 n2])

/-- Why a layer leaves a redirected packet as it is: L2 without a fake ethertype, L3 on a byte
of the payload that is the mark of a fragment, L4 on a TCP header of an impossible length. -/
def EarlyExit (fake : Nat) (tls : Tls) (pkt : Buf) (pkt_len : Nat) : Layer → Prop
  | .l2 => fake = 0
  | .l3 => skips tls pkt pkt_len (ip_hdr_len_at pkt 14)
  | .l4 => get_transport_hdr_size pkt (14 + ip_hdr_len_at pkt 14) (pkt (14 + 9))
      (pkt_len - (14 + ip_hdr_len_at pkt 14)) = none

instance (fake : Nat) (tls : Tls) (pkt : Buf) (pkt_len : Nat) (l : Layer) :
    Decidable (EarlyExit fake tls pkt pkt_len l) :=
  match l with
  | .l2 => inferInstanceAs (Decidable (fake = 0))
  | .l3 => inferInstanceAs (Decidable (skips _ _ _ _))
  | .l4 => inferInstanceAs (Decidable (_ = none))

theorem Readdressed.ihl {pkt out : Buf} (h : Readdressed pkt out) :
    ip_hdr_len_at out 14 = ip_hdr_len_at pkt 14 := by
  unfold ip_hdr_len_at
  rw [h 14 (by omega)]

theorem Readdressed.read {pkt out : Buf} (h : Readdressed pkt out) {off n : Nat} (hoff : 12 ≤ off) :
    read out off n = read pkt off n :=
  read_congr fun i hi _ => h i (by omega)

theorem Readdressed.payload_off {pkt out : Buf} (h : Readdressed pkt out) (l : Layer) :
    payload_off out l = payload_off pkt l := by
  cases l with
  | l2 => rfl
  | _ =>
    unfold cleartext_leak.payload_off
    dsimp only
    rw [h.ihl]

theorem twelve_le_payload_off (pkt : Buf) (l : Layer) : 12 ≤ payload_off pkt l := by
  cases l <;> simp only [payload_off] <;> omega

theorem Readdressed.earlyExit_iff {pkt out : Buf} (h : Readdressed pkt out) (fake : Nat) (tls : Tls)
    (pkt_len : Nat) (l : Layer) :
    EarlyExit fake tls out pkt_len l ↔ EarlyExit fake tls pkt pkt_len l := by
  cases l with
  | l2 => exact Iff.rfl
  | l3 =>
    unfold EarlyExit skips l3_is_frag_tunnel
    dsimp only
    rw [h.ihl, h _ (show 12 ≤ ETH_HEADER_SIZE + _ + _ + 1 by simp only [ETH_HEADER_SIZE]; omega)]
  | l4 =>
    unfold EarlyExit
    dsimp only
    rw [h.ihl, h (14 + 9) (by omega), get_transport_hdr_size_congr (h.read (by omega))]

/-! ## A packet that is encrypted whole -/

/-- An early exit hands the packet back as it came. -/
theorem encrypt_at_of_earlyExit {fake : Nat} {tls : Tls} {ctx : PacketCryptoCtx} {pkt : Buf}
    {pkt_len : Nat} {l : Layer} (hr : Redirected pkt pkt_len) (hinit : ctx.initialized = true)
    (h : EarlyExit fake tls pkt pkt_len l) (o : Openssl) (counter : Nat) :
    (encrypt_at o fake l tls ctx counter pkt pkt_len).ret = some pkt_len ∧
      (encrypt_at o fake l tls ctx counter pkt pkt_len).pkt = pkt := by
  have hihl := hr.ihl
  have hfits := hr.fits
  have hE : ETH_HEADER_SIZE = 14 := rfl
  cases l with
  | l2 =>
    have hM : crypto_layer2.MIN_ETH_PKT = 22 := rfl
    have h4 : pkt_is_ipv4_eth pkt = true := beq_iff_eq.mpr hr.ipv4
    obtain rfl : fake = 0 := h
    change (crypto_layer2_encrypt o 0 tls ctx counter pkt pkt_len).ret = _ ∧
      (crypto_layer2_encrypt o 0 tls ctx counter pkt pkt_len).pkt = _
    unfold crypto_layer2_encrypt l2_fake_marker_byte
    rw [hinit, h4, if_neg (by simp only [Bool.not_true, Bool.false_eq_true, false_or]; omega)]
    exact ⟨rfl, rfl⟩
  | l3 =>
    have hM : crypto_layer3.MIN_ETH_PKT = 22 := rfl
    have hI : IPV4_HDR_SIZE = 20 := rfl
    have h4 : pkt_is_ipv4 pkt pkt_len = true := by
      unfold pkt_is_ipv4
      rw [hr.ipv4, decide_eq_false (by omega)]
      rfl
    have hlen : ipv4_hdr_len_at pkt pkt_len ETH_HEADER_SIZE = some (ip_hdr_len_at pkt 14) := by
      unfold ipv4_hdr_len_at
      rw [if_neg (by omega)]
      exact if_neg (by unfold ip_hdr_len_at at hihl hfits; rw [hE]; omega)
    have hskip : ETH_HEADER_SIZE + ip_hdr_len_at pkt 14 + tls.nonce_size + 2 ≤ pkt_len ∧
        l3_is_frag_tunnel pkt (ETH_HEADER_SIZE + ip_hdr_len_at pkt 14) tls.nonce_size = true := h
    change (crypto_layer3_encrypt o tls ctx counter pkt pkt_len).ret = _ ∧
      (crypto_layer3_encrypt o tls ctx counter pkt pkt_len).pkt = _
    unfold crypto_layer3_encrypt
    rw [hinit, h4, hlen, if_neg (by simp only [Bool.not_true, Bool.false_eq_true, false_or]; omega)]
    simp only [Bool.not_true, Bool.false_eq_true, if_false, hskip, and_self, if_true]
  | l4 =>
    have hnone : get_transport_hdr_size pkt (14 + ip_hdr_len_at pkt 14) (pkt (14 + 9))
        (size_sub pkt_len (14 + ip_hdr_len_at pkt 14)) = none := by
      unfold size_sub
      rw [if_pos (by omega)]
      exact h
    have hproto : ¬(pkt (14 + 9) ≠ 6 ∧ pkt (14 + 9) ≠ 17) := by
      rintro ⟨h6, h17⟩
      exact hr.proto.elim h6 h17
    change (crypto_layer4_encrypt o tls ctx counter pkt pkt_len).ret = _ ∧
      (crypto_layer4_encrypt o tls ctx counter pkt pkt_len).pkt = _
    unfold crypto_layer4_encrypt
    simp only [hinit, Bool.not_true, Bool.false_eq_true, if_false, hr.offset]
    rw [if_neg (by omega), if_neg hproto, if_neg (by omega), if_pos hnone]
    exact ⟨rfl, rfl⟩

/-- Without an early exit there is an error or an encapsulated frame. -/
theorem encrypt_at_of_not_earlyExit {o : Openssl} (ho : o.Lawful) {fake : Nat} {tls : Tls} {pkt : Buf}
    {pkt_len : Nat} {l : Layer} (hr : Redirected pkt pkt_len) (hns : 4 ≤ tls.nonce_size)
    (h : ¬EarlyExit fake tls pkt pkt_len l) (ctx : PacketCryptoCtx) (counter : Nat) :
    (encrypt_at o fake l tls ctx counter pkt pkt_len).ret = none ∨
      (pkt_len < encapsulated_len tls pkt_len l ∧
        (encrypt_at o fake l tls ctx counter pkt pkt_len).ret =
          some (encapsulated_len tls pkt_len l) ∧
        FrameOf o fake tls ctx counter pkt pkt_len
          (encrypt_at o fake l tls ctx counter pkt pkt_len).pkt l) := by
  have hihl := hr.ihl
  have hfits := hr.fits
  have hH : packet_crypto_get_tunnel_hdr_size tls = tls.nonce_size + 2 := rfl
  cases l with
  | l2 =>
    have h4 : pkt_is_ipv4_eth pkt = true := beq_iff_eq.mpr hr.ipv4
    rcases crypto_layer2_encrypt_cases ho fake tls ctx counter pkt pkt_len hns with
      hnone | ⟨-, -, hno | hfake⟩ | ⟨-, -, hret, hframe⟩
    · exact Or.inl hnone
    · rw [h4] at hno
      simp at hno
    · exact absurd hfake h
    · exact Or.inr ⟨Nat.lt_of_lt_of_le (by omega) (Nat.le_add_right _ _), hret, hframe⟩
  | l3 =>
    have h4 : ¬pkt_is_ipv4 pkt pkt_len = false := by
      unfold pkt_is_ipv4
      rw [hr.ipv4, decide_eq_false (by simp only [ETH_HEADER_SIZE, IPV4_HDR_SIZE]; omega)]
      decide
    have hat : ∀ {ihl}, ipv4_hdr_len_at pkt pkt_len ETH_HEADER_SIZE = some ihl →
        ihl = ip_hdr_len_at pkt 14 := fun hi => (ipv4_hdr_len_at_some hi).1
    rcases crypto_layer3_encrypt_cases ho tls ctx counter pkt pkt_len hns with
      hnone | ⟨-, -, hno | ⟨ihl, hi, hskip⟩⟩ | ⟨ihl, -, hi, -, hret, hframe⟩
    · exact Or.inl hnone
    · exact absurd hno h4
    · rw [hat hi] at hskip
      exact absurd hskip h
    · rw [hat hi] at hframe
      exact Or.inr ⟨Nat.lt_add_of_pos_right (by omega), hret, hframe⟩
  | l4 =>
    have hfit : ∀ l3_off, crypto_eth_ipv4_offset pkt pkt_len = some l3_off →
        l3_off + ip_hdr_len_at pkt l3_off ≤ pkt_len := by
      intro l3_off hoff
      obtain rfl := Option.some.inj (hr.offset.symm.trans hoff)
      omega
    rcases crypto_layer4_encrypt_cases ho tls ctx counter pkt pkt_len hns hfit with
      hnone | ⟨-, -, hno | ⟨l3_off, hoff, hno⟩⟩ | ⟨l3_off, hp, -, hret, hframe⟩
    · exact Or.inl hnone
    · rw [hr.offset] at hno
      simp at hno
    · obtain rfl := Option.some.inj (hr.offset.symm.trans hoff)
      exact absurd hno h
    · obtain rfl := Option.some.inj (hr.offset.symm.trans hp.offset)
      exact Or.inr ⟨Nat.lt_add_of_pos_right (by omega), hret, hframe⟩

/-! ## A packet that is split -/

/-- The two fragments have the payload of the packet between them: the first one up to some byte
and the second one from there on. -/
def Halved (o : Openssl) (fake : Nat) (tls : Tls) (ctx : PacketCryptoCtx) (counter : Nat) (pkt : Buf)
    (pkt_len : Nat) (l : Layer) (f1 f2 : Buf × Nat) : Prop :=
  ∃ m c id, payload_off pkt l ≤ m ∧ m ≤ pkt_len ∧
    FragmentOf o fake tls ctx counter pkt (read pkt (payload_off pkt l) (m - payload_off pkt l)) id 0
      f1.1 f1.2 l ∧
    FragmentOf o fake tls ctx c pkt (read pkt m (pkt_len - m)) id 1 f2.1 f2.2 l

section

variable {o : Openssl} {fake : Nat} {tls : Tls} {ctx : PacketCryptoCtx} {counter pkt_id_counter : Nat}
  {pkt : Buf} {pkt_len : Nat} {frag1 frag2 : Buf} {f1 f2 : Buf × Nat}

theorem halved_of_halves {l : Layer} {plain1 plain2 : Bytes} {c id : Nat}
    (h : Halves pkt (payload_off pkt l) pkt_len plain1 plain2)
    (hf1 : FragmentOf o fake tls ctx counter pkt plain1 id 0 f1.1 f1.2 l)
    (hf2 : FragmentOf o fake tls ctx c pkt plain2 id 1 f2.1 f2.2 l) :
    Halved o fake tls ctx counter pkt pkt_len l f1 f2 := by
  obtain ⟨hread1, hread2⟩ := h.eq_read
  have hlen := h.length
  refine ⟨payload_off pkt l + plain1.length, c, id, by omega, by omega, ?_, ?_⟩
  · rw [Nat.add_sub_cancel_left, ← hread1]
    exact hf1
  · rw [show pkt_len - (payload_off pkt l + plain1.length) = plain2.length by omega, ← hread2]
    exact hf2

theorem split_halves (ho : o.Lawful) {l : Layer} (hr : Redirected pkt pkt_len)
    (hns : 4 ≤ tls.nonce_size)
    (h : (l.split o fake tls ctx counter pkt_id_counter pkt pkt_len frag1 frag2).frags =
      some (f1, f2)) :
    Halved o fake tls ctx counter pkt pkt_len l f1 f2 := by
  cases l with
  | l2 =>
    obtain ⟨ihl, th, plain1, plain2, c, -, hf1, hf2, hhalves, -⟩ :=
      frag_split_and_encrypt_l2_some ho hns h
    exact halved_of_halves (l := .l2) hhalves hf1 hf2
  | l3 =>
    obtain ⟨ihl, plain1, plain2, c, hs, hf1, hf2, hhalves, -⟩ := frag_split_and_encrypt_some ho hns h
    obtain rfl : ip_hdr_len_at pkt 14 = ihl := hs.ihl_eq
    exact halved_of_halves (l := .l3) hhalves hf1 hf2
  | l4 =>
    obtain ⟨ihl, plain1, plain2, c, hs, hf1, hf2, hhalves, -⟩ :=
      frag_split_and_encrypt_l4_some ho hns h
    obtain rfl : ip_hdr_len_at pkt 14 = ihl := hs.ihl_eq
    have hfits := hr.fits
    exact halved_of_halves (l := .l4) (hhalves (by omega)) hf1 hf2

end

/-! ## What the worker sends -/

theorem set_wan_l2_addrs_readdressed {e : LanEnv} {call wan_idx : Nat} {pkt out : Buf}
    (h : set_wan_l2_addrs e call wan_idx pkt = some out) : Readdressed pkt out :=
  fun _ hi => set_wan_l2_addrs_out h hi

/-- One frame that the TX ring may refuse. -/
theorem sent_start_send (e : LanEnv) (r : Outbound) (hs : r.sent = []) (h0 : r.sends = 0)
    (pkt : Buf) (pkt_len : Nat) :
    (r.send e pkt pkt_len).sent = if e.tx_ok 0 then [read pkt 0 pkt_len] else [] := by
  rw [sent_send, hs, h0, List.nil_append]

/-- Two frames, each of which the TX ring may refuse. -/
theorem sent_send_send (e : LanEnv) (r : Outbound) (hs : r.sent = []) (pkt1 pkt2 : Buf)
    (len1 len2 : Nat) :
    (((r.send e pkt1 len1).send e pkt2 len2).sent).Sublist
      [read pkt1 0 len1, read pkt2 0 len2] := by
  have hone : ∀ (b : Bool) (f : Bytes), (if b then [f] else []).Sublist [f] := by
    intro b f
    cases b
    · exact List.nil_sublist _
    · exact List.Sublist.refl _
  rw [sent_send, sent_send, hs, List.nil_append]
  exact (hone _ _).append (hone _ _)

/-- The condition under which the packet leaves as it came: it is encrypted whole, its layer
takes an early exit, ARP has the addresses, and the TX ring has room. -/
def Leaks (e : LanEnv) (job : PacketJob) (l : Layer) (tls : Tls) : Prop :=
  EarlyExit e.rt.fake_ethertype_ipv4 tls job.pkt job.pkt_len l ∧
    l.need_split tls job.pkt_len = false ∧
    (set_wan_l2_addrs e 0 (wan_of e job) job.pkt).isSome = true ∧ e.tx_ok 0 = true

/-- A packet that needs a split leaves as two fragments or not at all. -/
theorem send_encrypted_split {e : LanEnv} (ho : e.o.Lawful) {wan_idx : Nat} {l : Layer} {tls : Tls}
    {ctx : PacketCryptoCtx} {job : PacketJob} (hr : Redirected job.pkt job.pkt_len)
    (hns : 4 ≤ tls.nonce_size) (hneed : l.need_split tls job.pkt_len = true) :
    Protected e.o e.rt.fake_ethertype_ipv4 tls ctx e.rt.nonce_counter l job.pkt job.pkt_len
      (send_encrypted e wan_idx l tls ctx job).sent := by
  unfold send_encrypted
  dsimp only
  split
  · exact Or.inl rfl
  rename_i pkt hpkt
  have hre := set_wan_l2_addrs_readdressed hpkt
  rw [if_pos hneed]
  unfold send_split
  dsimp only
  split
  · exact Or.inl rfl
  rename_i f1 f2 hfrags
  split
  · rename_i pkt1 pkt2 h1 h2
    obtain ⟨m, c, id, hm, hmle, hf1, hf2⟩ := split_halves ho (hr.congr hre) hns hfrags
    rw [hre.payload_off] at hm hf1
    rw [hre.read (twelve_le_payload_off job.pkt l)] at hf1
    rw [hre.read (Nat.le_trans (twelve_le_payload_off job.pkt l) hm)] at hf2
    exact Or.inr (Or.inr ⟨hneed, pkt, m, c, id, f1.1, f2.1, pkt1, pkt2, f1.2, f2.2, hre, hm, hmle, hf1,
      hf2, set_wan_l2_addrs_readdressed h1, set_wan_l2_addrs_readdressed h2,
      sent_send_send e _ rfl pkt1 pkt2 f1.2 f2.2⟩)
  · exact Or.inl rfl

/-- A packet that is encrypted whole leaves encapsulated unless its layer takes an early exit. -/
theorem send_encrypted_whole {e : LanEnv} (ho : e.o.Lawful) {wan_idx : Nat} {l : Layer} {tls : Tls}
    {ctx : PacketCryptoCtx} {job : PacketJob} (hr : Redirected job.pkt job.pkt_len)
    (hns : 4 ≤ tls.nonce_size) (hneed : l.need_split tls job.pkt_len = false)
    (hexit : ¬EarlyExit e.rt.fake_ethertype_ipv4 tls job.pkt job.pkt_len l) :
    Protected e.o e.rt.fake_ethertype_ipv4 tls ctx e.rt.nonce_counter l job.pkt job.pkt_len
      (send_encrypted e wan_idx l tls ctx job).sent := by
  unfold send_encrypted
  dsimp only
  split
  · exact Or.inl rfl
  rename_i pkt hpkt
  have hre := set_wan_l2_addrs_readdressed hpkt
  rw [if_neg (by rw [hneed]; simp)]
  have hexit' := (hre.earlyExit_iff e.rt.fake_ethertype_ipv4 tls job.pkt_len l).not.mpr hexit
  rcases encrypt_at_of_not_earlyExit ho (hr.congr hre) hns hexit' ctx e.rt.nonce_counter with
    hnone | ⟨hlt, hret, hframe⟩
  · unfold send_whole
    rw [hnone]
    exact Or.inl rfl
  · unfold send_whole
    rw [hret]
    dsimp only
    rw [sent_start_send e _ rfl rfl]
    split
    · exact Or.inr (Or.inl ⟨pkt, _, hre, hlt, rfl, hret, hframe, rfl⟩)
    · exact Or.inl rfl

/-- After an early exit the packet itself goes to the WAN, with the addresses for it. -/
theorem send_encrypted_earlyExit {e : LanEnv} {wan_idx : Nat} {l : Layer} {tls : Tls}
    {ctx : PacketCryptoCtx} {job : PacketJob} (hr : Redirected job.pkt job.pkt_len)
    (hinit : ctx.initialized = true) (hneed : l.need_split tls job.pkt_len = false)
    (hexit : EarlyExit e.rt.fake_ethertype_ipv4 tls job.pkt job.pkt_len l) :
    (send_encrypted e wan_idx l tls ctx job).sent =
      match set_wan_l2_addrs e 0 wan_idx job.pkt with
      | none => []
      | some pkt => if e.tx_ok 0 then [read pkt 0 job.pkt_len] else [] := by
  unfold send_encrypted
  dsimp only
  cases hset : set_wan_l2_addrs e 0 wan_idx job.pkt with
  | none => rfl
  | some pkt =>
    have hre := set_wan_l2_addrs_readdressed hset
    have hexit' := (hre.earlyExit_iff e.rt.fake_ethertype_ipv4 tls job.pkt_len l).mpr hexit
    obtain ⟨hret, hsame⟩ := encrypt_at_of_earlyExit (hr.congr hre) hinit hexit' e.o
      e.rt.nonce_counter
    dsimp only
    rw [if_neg (by rw [hneed]; simp)]
    unfold send_whole
    rw [hret, hsame]
    exact sent_start_send e _ rfl rfl pkt job.pkt_len

/-- A frame as long as the packet is no encapsulated one. -/
theorem not_protected_of_whole {o : Openssl} {fake : Nat} {tls : Tls} {ctx : PacketCryptoCtx}
    {counter : Nat} {l : Layer} {pkt pkt' : Buf} {pkt_len : Nat}
    (hneed : l.need_split tls pkt_len = false) :
    ¬Protected o fake tls ctx counter l pkt pkt_len [read pkt' 0 pkt_len] := by
  rintro (hnil | ⟨pkt2, n, -, hlt, -, -, -, heq⟩ | ⟨hsplit, -⟩)
  · simp at hnil
  · have hlen := congrArg List.length (List.singleton_inj.mp heq)
    rw [length_read, length_read] at hlen
    omega
  · rw [hneed] at hsplit
    exact Bool.false_ne_true hsplit

/-- The worker keeps a redirected packet of a ready policy from the WAN in clear exactly when it
does not leak. -/
theorem the_worker_sends_encapsulated_frames_iff_no_early_exit_is_taken {e : LanEnv}
    (ho : e.o.Lawful) {job : PacketJob} (hxdp : xdp_redirect_prog true job.pkt job.pkt_len = .redirect)
    {pi : Nat} {cp : CryptoPolicy} {l : Layer} (hp : ReadyPolicy e job pi cp l)
    (hns : 4 ≤ cp.nonce_size) :
    Protected e.o e.rt.fake_ethertype_ipv4 (crypto_apply_from_policy cp e.tls) (e.rt.active.ctx pi)
      e.rt.nonce_counter l job.pkt job.pkt_len (worker_packet e job).sent ↔
    ¬Leaks e job l (crypto_apply_from_policy cp e.tls) := by
  have hr := redirected_of_xdp hxdp
  have hns' : 4 ≤ (crypto_apply_from_policy cp e.tls).nonce_size := hns
  rw [hp.worker_packet_eq]
  generalize crypto_apply_from_policy cp e.tls = tls at *
  cases hneed : l.need_split tls job.pkt_len with
  | true =>
    refine iff_of_true (send_encrypted_split ho hr hns' hneed) ?_
    rintro ⟨-, hno, -⟩
    rw [hneed] at hno
    simp at hno
  | false =>
    by_cases hexit : EarlyExit e.rt.fake_ethertype_ipv4 tls job.pkt job.pkt_len l
    · rw [send_encrypted_earlyExit hr hp.initialized hneed hexit]
      unfold Leaks
      cases hset : set_wan_l2_addrs e 0 (wan_of e job) job.pkt with
      | none => exact iff_of_true (Or.inl rfl) (by simp)
      | some pkt =>
        cases htx : e.tx_ok 0 with
        | false => exact iff_of_true (Or.inl rfl) (by simp)
        | true =>
          refine iff_of_false (not_protected_of_whole hneed) (not_not.mpr ?_)
          exact ⟨hexit, hneed, rfl, rfl⟩
    · refine iff_of_true (send_encrypted_whole ho hr hns' hneed hexit) ?_
      rintro ⟨hleak, -⟩
      exact hexit hleak

/-! ## Two datagrams under an L3 policy -/

/-- The runtime of policy 7 with one WAN interface. -/
def l3Runtime : Runtime :=
  (init_crypto sampleOpenssl {} 1
    { sampleCfg [samplePolicy 7 .encrypt_l3] one_policy_le with
      wans := [{ ifname := [0x77, 0x61, 0x6e, 0x30] }]
      wans_le := one_interface_le } Runtime.boot).2

/-- A thread that sends every packet under policy 7. -/
def l3Env : LanEnv where
  o := sampleOpenssl
  rt := l3Runtime
  tls := {}
  pkt_id_counter := 0
  frag1 := ofBytes []
  frag2 := ofBytes []
  select_wan_idx _ _ _ _ := 0
  select_policy _ _ := some 0
  wan_macs _ _ := some #v[0x02, 0x01, 0x00, 0x00, 0x00, 0x02, 0x02, 0x01, 0x00, 0x00, 0x00, 0x01]
  tx_ok _ := true

def udpJob (data : Bytes) : PacketJob where
  local_idx := 0
  pkt := ofBytes data
  pkt_len := data.length
  addr := 0

/-- A datagram whose sixth payload byte, a backslash, is the mark of a fragment. -/
def udpBackslash : Bytes :=
  [0x02, 0x00, 0x00, 0x00, 0x00, 0x02, 0x02, 0x00, 0x00, 0x00, 0x00, 0x01, 0x08, 0x00,
    0x45, 0x00, 0x00, 0x22, 0x00, 0x01, 0x40, 0x00, 0x40, 0x11, 0x25, 0xc8, 0x0a, 0x00, 0x00, 0x01,
    0x0a, 0x00, 0x01, 0x02,
    0x9c, 0x40, 0x00, 0x35, 0x00, 0x0e, 0x00, 0x00, 0x70, 0x69, 0x6e, 0x67, 0x21, 0x5c]

theorem udpJob_ready (data : Bytes)
    (hflow : (parse_flow (ofBytes data) data.length).isSome = true) :
    ReadyPolicy l3Env (udpJob data) 0 (samplePolicy 7 .encrypt_l3) .l3 := by
  refine ⟨by decide +kernel, ?_, by decide +kernel, rfl, by decide +kernel, by decide +kernel⟩
  obtain ⟨flow, hf⟩ := Option.isSome_iff_exists.mp hflow
  change (parse_flow (ofBytes data) data.length).bind _ = _
  rw [hf]
  rfl

theorem a_short_datagram_leaves_encapsulated :
    Protected sampleOpenssl l3Runtime.fake_ethertype_ipv4
      (crypto_apply_from_policy (samplePolicy 7 .encrypt_l3) {}) (l3Runtime.active.ctx 0)
      l3Runtime.nonce_counter .l3 (ofBytes udpPing) 46 (worker_packet l3Env (udpJob udpPing)).sent :=
  (the_worker_sends_encapsulated_frames_iff_no_early_exit_is_taken (e := l3Env)
    sampleOpenssl_lawful
    (show xdp_redirect_prog true (udpJob udpPing).pkt (udpJob udpPing).pkt_len = .redirect by
      decide +kernel)
    (udpJob_ready udpPing (by decide +kernel)) (by decide)).mpr fun h => absurd h.1 (by decide +kernel)

/-- The datagram with the backslash leaves as it came, but for the two addresses. -/
theorem a_datagram_with_a_backslash_leaves_in_clear :
    xdp_redirect_prog true (ofBytes udpBackslash) 48 = .redirect ∧
    ReadyPolicy l3Env (udpJob udpBackslash) 0 (samplePolicy 7 .encrypt_l3) .l3 ∧
    (worker_packet l3Env (udpJob udpBackslash)).sent =
      [[0x02, 0x01, 0x00, 0x00, 0x00, 0x02, 0x02, 0x01, 0x00, 0x00, 0x00, 0x01] ++
        udpBackslash.drop 12] ∧
    ¬Protected sampleOpenssl l3Runtime.fake_ethertype_ipv4
      (crypto_apply_from_policy (samplePolicy 7 .encrypt_l3) {}) (l3Runtime.active.ctx 0)
      l3Runtime.nonce_counter .l3 (ofBytes udpBackslash) 48
      (worker_packet l3Env (udpJob udpBackslash)).sent := by
  have hsent : (worker_packet l3Env (udpJob udpBackslash)).sent =
      [[0x02, 0x01, 0x00, 0x00, 0x00, 0x02, 0x02, 0x01, 0x00, 0x00, 0x00, 0x01] ++
        udpBackslash.drop 12] := by decide +kernel
  refine ⟨by decide +kernel, udpJob_ready udpBackslash (by decide +kernel), hsent, ?_⟩
  rw [hsent, ← read_ofBytes ([_, _, _, _, _, _, _, _, _, _, _, _] ++ udpBackslash.drop 12)]
  exact not_protected_of_whole (by decide +kernel)

end ne_ip.cleartext_leak
