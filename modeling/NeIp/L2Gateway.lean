-- Two gateways whose policies are all of layer 2: which frames the worker of one makes of a
-- packet, and what a receive thread of the other one makes of each kind.
import NeIp.CleartextLeak
import NeIp.FragDelivery
import NeIp.L2Wire
import NeIp.SplitRoundTrip

open byte_buf ne_ip.packet_crypto ne_ip.tunnel ne_ip.config ne_ip.crypto_dispatch
open ne_ip.crypto_layer2 ne_ip.crypto_layer3 ne_ip.crypto_layer4 ne_ip.fragment ne_ip.forwarder
open ne_ip.flow ne_ip.wan_queue ne_ip.worker ne_ip.reassembly ne_ip.no_mixing ne_ip.checksums
open ne_ip.split_round_trip ne_ip.l2_wire ne_ip.frag_delivery ne_ip.cleartext_leak

namespace ne_ip.l2_gateway

/-- A gateway that encrypts at layer 2 or not at all, with nonces of one size. -/
structure L2Gateway (o : Openssl) (rt : Runtime) (ns : Nat) : Prop extends Peer o rt where
  fake : rt.fake_ethertype_ipv4 = 0x88b5
  policies : rt.fwd_cfg.policies ≠ []
  action : ∀ q ∈ rt.fwd_cfg.policies, q.action = .bypass ∨ q.action = .encrypt_l2
  nonce_size_l2 : NonceSizeL2 rt.fwd_cfg ns
  nonce_ge : 4 ≤ ns
  nonce_le : ns ≤ 16

/-- What two gateways share of a policy. Its selectors, its priority and its place in the list
may differ. -/
structure SameTunnel (p q : CryptoPolicy) : Prop where
  action : p.action = .encrypt_l2 ∧ q.action = .encrypt_l2
  wire_id : q.wire_id = p.wire_id
  crypto_mode : q.crypto_mode = p.crypto_mode
  aes_bits : q.aes_bits = p.aes_bits
  nonce_size : q.nonce_size = p.nonce_size
  key : q.key = p.key

theorem SameTunnel.aes {p q : CryptoPolicy} (h : SameTunnel p q) (tls tls' : Tls) :
    SameAes (crypto_apply_from_policy p tls) (crypto_apply_from_policy q tls') :=
  ⟨h.crypto_mode, congrArg get_key_size h.aes_bits⟩

/-- The gateway has its own policy for what the other one seals under `p`. -/
structure Opens (rt : Runtime) (p : CryptoPolicy) (pj : Nat) (q : CryptoPolicy) : Prop where
  policy : rt.fwd_cfg.policies[pj]? = some q
  ready : rt.active.ready pj = true
  same : SameTunnel p q

/-- The key that a gateway derives for a policy. -/
def KeyOf (o : Openssl) (p : CryptoPolicy) (ctx : PacketCryptoCtx) : Prop :=
  ctx.key_current = (init_ctx o p.aes_bits p.key.toList).key_current

/-! ## The packets of a host -/

/-- A TCP or UDP packet that the program of a LAN interface hands to the threads. What is too
long to be padded ends with its datagram and has the checksum that is computed. -/
structure HostPacket (pkt : Buf) (pkt_len : Nat) : Prop where
  redirected : xdp_redirect_prog true pkt pkt_len = .redirect
  version : (pkt 14).toNat / 16 = 4
  ttl : pkt 22 ≠ 0
  whole : 1457 < pkt_len → WholeFrame pkt pkt_len

theorem HostPacket.plain {pkt : Buf} {pkt_len : Nat} (h : HostPacket pkt pkt_len) :
    L2Plain pkt pkt_len := by
  have hr := redirected_of_xdp h.redirected
  have hfits := hr.fits
  have hihl := hr.ihl
  exact ⟨by omega, beq_iff_eq.mpr hr.ipv4, h.version, h.ttl, hr.proto⟩

theorem l2Plain_readdressed {pkt out : Buf} {pkt_len : Nat} (h : L2Plain pkt pkt_len)
    (hc : Readdressed pkt out) : L2Plain out pkt_len := by
  refine ⟨h.len, ?_, ?_, ?_, ?_⟩
  · rw [← h.eth]
    unfold pkt_is_ipv4_eth
    rw [be16_congr (hc 12 (by omega)) (hc 13 (by omega))]
  · rw [hc 14 (by omega), h.version]
  · rw [hc 22 (by omega)]
    exact h.ttl
  · rw [hc 23 (by omega)]
    exact h.proto

theorem wholeFrame_readdressed {pkt out : Buf} {pkt_len : Nat} (h : WholeFrame pkt pkt_len)
    (hc : Readdressed pkt out) : WholeFrame out pkt_len := by
  have hword : ∀ off, 12 ≤ off → be16 out off = be16 pkt off := fun off hoff =>
    be16_congr (hc off hoff) (hc (off + 1) (by omega))
  have hihl := hc.ihl
  refine ⟨(hword 12 (by omega)).trans h.ipv4, ?_, ?_, ?_, h.len⟩
  · rw [hc 14 (by omega), h.version]
  · rw [hword 16 (by omega)]
    exact h.totlen
  · have hsum : read (write out (14 + 10) [0, 0]) 14 (ip_hdr_len_at pkt 14) =
        read (write pkt (14 + 10) [0, 0]) 14 (ip_hdr_len_at pkt 14) :=
      read_congr fun i hi _ => write_congr_at fun _ => hc i (by omega)
    have hcanon := h.canonical
    unfold HeaderCanonical header_sum at hcanon ⊢
    rw [hihl, hword _ (by omega), hsum]
    exact hcanon

/-! ## A fragment names its policy -/

theorem fragment_policy_id {o : Openssl} (ho : o.Lawful) {fake : Nat} {tls : Tls}
    {ctx : PacketCryptoCtx} {counter : Nat} {packet : Buf} {enc_plain : Bytes} {pkt_id : Nat}
    {frag_index : UInt8} {out_buf : Buf} {out_max n : Nat} (hns : 4 ≤ tls.nonce_size)
    (h : (crypto_layer2_encrypt_fragment_single o fake tls ctx counter (read packet 0 14) enc_plain
      pkt_id frag_index out_buf out_max).ret = some n) :
    (crypto_layer2_encrypt_fragment_single o fake tls ctx counter (read packet 0 14) enc_plain
      pkt_id frag_index out_buf out_max).pkt 13 = tls.policy_id := by
  have hE : ETH_HEADER_SIZE = 14 := rfl
  have hoff : l2_frag_enc_start_offset tls.nonce_size = 14 + tls.nonce_size + 5 := rfl
  have hnon : (next_nonce tls counter).length = tls.nonce_size :=
    length_crypto_generate_nonce tls (packet_crypto_next_counter counter).1 PROTO_FLAG_IPV4 hns
  unfold crypto_layer2_encrypt_fragment_single at h ⊢
  dsimp only at h ⊢
  split at h
  · simp at h
  rename_i hcond
  rw [if_neg hcond]
  split at h
  · simp at h
  split at h
  · simp at h
  rename_i out tag he
  obtain ⟨rfl, rfl⟩ := Prod.mk.inj (aes_encrypt_some ho he)
  dsimp only
  unfold write_frag_tag write_counter
  rw [write_out _ _ _ _ (by omega), write_out _ _ _ _ (by omega), write_out _ _ _ _ (by omega),
    write_out _ _ _ _ (by omega), write_out _ _ _ _ (by omega), write_out _ _ _ _ (by omega)]
  exact write_second _ _ _ _ _

/-! ## What the worker sends -/

/-- A ready policy of a gateway, with its context. -/
def Seals (rt : Runtime) (p : CryptoPolicy) (ctx : PacketCryptoCtx) : Prop :=
  p.action = .encrypt_l2 ∧
    ∃ pi, rt.fwd_cfg.policies[pi]? = some p ∧ rt.active.ready pi = true ∧ ctx = rt.active.ctx pi

/-- A gateway opens what it seals itself. -/
theorem Seals.opens {rt : Runtime} {p : CryptoPolicy} {ctx : PacketCryptoCtx} (h : Seals rt p ctx) :
    ∃ pj q, Opens rt p pj q := by
  obtain ⟨haction, pi, hp, hready, -⟩ := h
  exact ⟨pi, p, hp, hready, ⟨haction, haction⟩, rfl, rfl, rfl, rfl, rfl⟩

/-- The packet as it came, behind other addresses. -/
def IsPlain (job : PacketJob) (frame : Bytes) : Prop :=
  ∃ pkt, Readdressed job.pkt pkt ∧ frame = read pkt 0 job.pkt_len

/-- The packet encrypted whole, which no receiver takes for a fragment. -/
def IsWhole (o : Openssl) (rt : Runtime) (ns : Nat) (job : PacketJob) (frame : Bytes) : Prop :=
  ∃ p tls ctx counter pkt out, Seals rt p ctx ∧ Readdressed job.pkt pkt ∧
    EncInPlace (crypto_apply_from_policy p tls) ctx ∧
    L2Frame o 0x88b5 (crypto_apply_from_policy p tls) ctx counter pkt job.pkt_len out ∧
    (∀ i, i < 12 → out i = pkt i) ∧ out (ETH_HEADER_SIZE + ns) ≠ L2_FRAG_MAGIC ∧
    frame = read out 0 (job.pkt_len + ns + tag_overhead (crypto_apply_from_policy p tls))

/-- One half of a packet, behind the addresses of `packet`. -/
def IsHalf (o : Openssl) (rt : Runtime) (packet : Buf) (plain : Bytes) (id : Nat) (idx : UInt8)
    (frame : Bytes) : Prop :=
  ∃ p tls ctx counter out n, Seals rt p ctx ∧ EncInPlace (crypto_apply_from_policy p tls) ctx ∧
    L2Fragment o 0x88b5 (crypto_apply_from_policy p tls) ctx counter packet plain id idx out n ∧
    out 13 = p.wire_id ∧ frame = read out 0 n

/-- The halves that the split number `n` makes of a packet, with the addresses of its first
fragment. -/
structure SplitOf (p : Parts) (job : PacketJob) (n : Nat) : Prop where
  id : p.id = n % 65536
  wf : p.Wf .l2
  halves : p.Of .l2 p.packet job.pkt_len
  sized : Sized p
  packet : Readdressed job.pkt p.packet
  whole : WholeFrame job.pkt job.pkt_len

/-- The frames that a worker sends for a packet, and the id counter after it. -/
inductive Sends (e : LanEnv) (ns : Nat) (job : PacketJob) : List Bytes → Nat → Prop
  | nothing {id : Nat} : id = e.pkt_id_counter ∨ id = e.pkt_id_counter + 1 → Sends e ns job [] id
  | plain {frame : Bytes} : IsPlain job frame → Sends e ns job [frame] e.pkt_id_counter
  | whole {frame : Bytes} : IsWhole e.o e.rt ns job frame → Sends e ns job [frame] e.pkt_id_counter
  | split {p : Parts} {packet : Buf} {frame1 frame2 : Bytes} {sent : List Bytes} :
      SplitOf p job e.pkt_id_counter → IsHalf e.o e.rt p.packet p.plain1 p.id 0 frame1 →
      IsHalf e.o e.rt packet p.plain2 p.id 1 frame2 → sent.Sublist [frame1, frame2] →
      Sends e ns job sent (e.pkt_id_counter + 1)

/-- What the worker encrypts whole does not begin with the magic of fragments. -/
def Unmistakable (e : LanEnv) (job : PacketJob) : Prop :=
  match choose e job.local_idx (parse_flow job.pkt job.pkt_len) with
  | .encrypt pi cp =>
    frag_need_split_l2 (crypto_apply_from_policy cp e.tls) job.pkt_len = true ∨
      first_cipher_byte e.o (crypto_apply_from_policy cp e.tls) (e.rt.active.ctx pi).key_current
        (next_nonce (crypto_apply_from_policy cp e.tls) e.rt.nonce_counter) job.pkt job.pkt_len ≠
        L2_FRAG_MAGIC
  | _ => True

instance (e : LanEnv) (job : PacketJob) : Decidable (Unmistakable e job) := by
  unfold Unmistakable
  split <;> infer_instance

/-- The worker finds the key that it seals a packet under in place. -/
def SealsInPlace (e : LanEnv) (job : PacketJob) : Prop :=
  match choose e job.local_idx (parse_flow job.pkt job.pkt_len) with
  | .encrypt pi cp => EncInPlace (crypto_apply_from_policy cp e.tls) (e.rt.active.ctx pi)
  | _ => True

theorem fragments_policy_id {o : Openssl} (ho : o.Lawful) {fake : Nat} {tls : Tls}
    {ctx : PacketCryptoCtx} {counter pkt_id_counter : Nat} {pkt : Buf} {pkt_len : Nat}
    {frag1 frag2 : Buf} {f1 f2 : Buf × Nat} (hns : 4 ≤ tls.nonce_size)
    (h : (frag_split_and_encrypt_l2 o fake tls ctx counter pkt_id_counter pkt pkt_len frag1
      frag2).frags = some (f1, f2)) : f1.1 13 = tls.policy_id ∧ f2.1 13 = tls.policy_id := by
  have hboth : ∀ hdr app_off app_len, (split_and_encrypt
      (fun counter enc_plain pkt_id frag_index out_buf =>
        crypto_layer2_encrypt_fragment_single o fake tls ctx counter (read pkt 0 14) enc_plain
          pkt_id frag_index out_buf FRAG_OUT_SIZE)
      counter pkt_id_counter pkt hdr app_off app_len frag1 frag2).frags = some (f1, f2) →
      f1.1 13 = tls.policy_id ∧ f2.1 13 = tls.policy_id := by
    intro hdr app_off app_len h
    obtain ⟨-, ⟨r1, hr1, hret1, hpkt1⟩, c, r2, hr2, hret2, hpkt2⟩ := split_and_encrypt_some h
    rw [hr1] at hret1
    rw [hr2] at hret2
    rw [← hpkt1, ← hpkt2, hr1, hr2]
    exact ⟨fragment_policy_id ho hns hret1, fragment_policy_id ho hns hret2⟩
  unfold frag_split_and_encrypt_l2 at h
  split at h
  · simp at h
  dsimp only at h
  split at h
  · split at h
    · simp at h
    split at h
    · simp at h
    · exact hboth _ _ _ h
  · split at h
    · simp at h
    · exact hboth _ _ _ h

/-- The two fragments of a packet hold its halves. -/
theorem split_l2_halves {o : Openssl} (ho : o.Lawful) {fake c : Nat} {m : Sent} {f : Frames}
    (hl : m.layer = .l2) (h4 : 4 ≤ m.tls.nonce_size) (h16 : m.tls.nonce_size ≤ 16)
    (hw : WholeFrame m.pkt m.pkt_len) (hf : (m.frames o fake c).1 = some f) :
    ∃ p c2, p.id = c % 65536 ∧ p.Wf .l2 ∧ p.Of .l2 m.pkt m.pkt_len ∧ Sized p ∧
      L2Fragment o fake m.tls m.ctx m.counter m.pkt p.plain1 p.id 0 f.1.1 f.1.2 ∧
      f.1.1 13 = m.tls.policy_id ∧
      L2Fragment o fake m.tls m.ctx c2 m.pkt p.plain2 p.id 1 f.2.1 f.2.2 ∧
      f.2.1 13 = m.tls.policy_id := by
  have hE : ETH_HEADER_SIZE = 14 := rfl
  obtain ⟨p, hsplit, hof, hsized⟩ := halves_of_frames ho h4 h16 hw hf
  obtain ⟨f1, f2⟩ := f
  unfold Sent.frames Sent.split at hf
  split at hf
  swap
  · simp at hf
  rw [hl] at hf hsplit hof
  obtain ⟨ihl, th, plain1, plain2, c2, -, hf1, hf2, -⟩ := frag_split_and_encrypt_l2_some ho h4 hf
  -- a receiver that opens them gets the one and the other
  let rtls : Tls := { m.tls with evp_ok := true, gcm_dec := m.tls.gcm_enc }
  let rctx : PacketCryptoCtx := { m.ctx with initialized := true }
  have hkey : SameKey m.tls m.ctx rtls rctx := rfl
  have hsuit : Suits m rtls rctx := ⟨⟨⟨rfl, rfl⟩, rfl, rfl, rfl, rfl⟩, hkey⟩
  obtain ⟨pkt1, n1, hdec1, hopen1⟩ := hsplit.first _ _ f1.1 hsuit fun _ _ => rfl
  obtain ⟨pkt2, n2, hdec2, hopen2⟩ := hsplit.second _ _ f2.1 hsuit fun _ _ => rfl
  obtain ⟨pkt1', hdec1', hplain1, -⟩ := crypto_layer2_decrypt_fragment_frame ho rtls rctx hf1
    ⟨rfl, rfl⟩ rfl rfl hkey rfl
  obtain ⟨pkt2', hdec2', hplain2, -⟩ := crypto_layer2_decrypt_fragment_frame ho rtls rctx hf2
    ⟨rfl, rfl⟩ rfl rfl hkey rfl
  obtain ⟨hret1, rfl⟩ := Prod.mk.inj (hdec1.symm.trans hdec1')
  obtain ⟨hret2, rfl⟩ := Prod.mk.inj (hdec2.symm.trans hdec2')
  obtain ⟨hn1, hid1⟩ := Prod.mk.inj (Option.some.inj hret1)
  obtain ⟨hn2, -⟩ := Prod.mk.inj (Option.some.inj hret2)
  have hid : p.id = c % 65536 := by
    rw [(Prod.mk.inj hid1).1, Nat.mod_mod]
  have hlen1 := hopen1.len
  have hlen2 := hopen2.len
  simp only [Parts.data_off] at hlen1 hlen2
  have heq1 : p.plain1 = plain1 := by
    have hopen := hopen1.plain
    rw [show p.plain1.length = plain1.length by omega] at hopen
    exact hopen.symm.trans hplain1
  have heq2 : p.plain2 = plain2 := by
    have hopen := hopen2.plain
    rw [show p.plain2.length = plain2.length by omega] at hopen
    exact hopen.symm.trans hplain2
  obtain ⟨h13, h13'⟩ := fragments_policy_id ho h4 hf
  refine ⟨p, c2, hid, hsplit.wf, hof, hsized, ?_, h13, ?_, h13'⟩
  · rw [heq1, hid]
    exact hf1
  · rw [heq2, hid]
    exact hf2

/-! ## The worker -/

section

variable {e : LanEnv} {ns : Nat} {job : PacketJob}

theorem sends_one {r : Outbound} {pkt : Buf} {n : Nat} (hs : r.sent = [])
    (hid : r.pkt_id_counter = e.pkt_id_counter)
    (h : Sends e ns job [read pkt 0 n] e.pkt_id_counter) :
    Sends e ns job (r.send e pkt n).sent (r.send e pkt n).pkt_id_counter := by
  unfold Outbound.send
  split
  · dsimp only
    rw [hs, hid]
    exact h
  · dsimp only
    rw [hs]
    exact .nothing (Or.inl hid)

theorem send_plain_sends (wan_idx : Nat) :
    Sends e ns job (send_plain e wan_idx job).sent (send_plain e wan_idx job).pkt_id_counter := by
  unfold send_plain
  split
  · exact .nothing (Or.inl rfl)
  · rename_i pkt hset
    exact sends_one rfl rfl (.plain ⟨pkt, set_wan_l2_addrs_readdressed hset, rfl⟩)

/-- A fragment behind other addresses. -/
theorem l2Fragment_readdressed {o : Openssl} {fake : Nat} {tls : Tls} {ctx : PacketCryptoCtx}
    {counter : Nat} {packet packet' : Buf} {enc_plain : Bytes} {pkt_id : Nat} {frag_index : UInt8}
    {b c : Buf} {n : Nat}
    (h : L2Fragment o fake tls ctx counter packet enc_plain pkt_id frag_index b n)
    (hc : Readdressed b c) (haddrs : ∀ i, i < 12 → c i = packet' i) :
    L2Fragment o fake tls ctx counter packet' enc_plain pkt_id frag_index c n := by
  have hE : ETH_HEADER_SIZE = 14 := rfl
  refine ⟨h.len, h.sealed.congr fun i h1 _ => hc i (by omega), ?_, ?_, ?_, haddrs⟩
  · rw [← h.marked]
    unfold l2_has_fake_marker
    rw [hc 12 (by omega)]
  · rw [hc _ (by omega), h.magic]
  · rw [← h.tag]
    unfold read_frag_tag
    rw [be16_congr (hc _ (by omega)) (hc _ (by omega)), hc _ (by omega)]

/-- The same halves behind other addresses. -/
theorem splitOf_readdressed {q : Parts} {job : PacketJob} {n : Nat} {pkt packet : Buf}
    (hid : q.id = n % 65536) (hwf : q.Wf .l2) (hof : q.Of .l2 pkt job.pkt_len) (hsized : Sized q)
    (hpkt : Readdressed job.pkt pkt) (hw : WholeFrame job.pkt job.pkt_len)
    (hc : Readdressed pkt packet) : SplitOf { q with packet := packet } job n := by
  have hhalves : Halves pkt 14 job.pkt_len q.plain1 q.plain2 := hof.halves
  refine ⟨hid, ⟨hwf.ihl_ge, fun hl => absurd rfl hl, hwf.inner, hwf.header⟩, ⟨rfl, ?_, ?_⟩,
    ⟨hsized.first_ge, hsized.second_ge, hsized.first_le, hsized.sum_le⟩, ?_, hw⟩
  · rw [hc.ihl]
    exact hof.ihl
  · refine ⟨hhalves.fits, ?_, hhalves.second_le, hhalves.first_le⟩
    rw [hhalves.whole]
    exact (hc.read (show 12 ≤ 14 by decide)).symm
  · exact fun i hi => (hc i hi).trans (hpkt i hi)

/-- The two sends of a split packet are two halves of it, each behind its own addresses. -/
theorem send_split_sends (ho : e.o.Lawful) (hr : L2Gateway e.o e.rt ns) {p : CryptoPolicy}
    {ctx : PacketCryptoCtx} (hp : Seals e.rt p ctx) (hjob : HostPacket job.pkt job.pkt_len)
    {r : Outbound} (hsent : r.sent = []) {pkt : Buf} (hpkt : Readdressed job.pkt pkt) {tls : Tls}
    (hneed : frag_need_split_l2 (crypto_apply_from_policy p tls) job.pkt_len = true)
    (hin : EncInPlace (crypto_apply_from_policy p tls) ctx) (wan_idx : Nat) :
    Sends e ns job
      (send_split e wan_idx .l2 (crypto_apply_from_policy p tls) ctx r pkt job.pkt_len).sent
      (send_split e wan_idx .l2 (crypto_apply_from_policy p tls) ctx r pkt
        job.pkt_len).pkt_id_counter := by
  have hns : (crypto_apply_from_policy p tls).nonce_size = ns := by
    obtain ⟨hact, pi, hpi, -, -⟩ := hp
    exact hr.nonce_size_l2 p (List.mem_of_getElem? hpi) hact
  have h4 : 4 ≤ (crypto_apply_from_policy p tls).nonce_size := hns ▸ hr.nonce_ge
  have h16 : (crypto_apply_from_policy p tls).nonce_size ≤ 16 := hns ▸ hr.nonce_le
  have hwhole := hjob.whole (len_of_need_split (l := .l2) h16 hneed)
  let m : Sent := ⟨.l2, crypto_apply_from_policy p tls, ctx, e.rt.nonce_counter, pkt, job.pkt_len,
    e.frag1, e.frag2⟩
  have hdraw := m.split_draws e.o e.rt.fake_ethertype_ipv4 e.pkt_id_counter
  have hframes : (m.frames e.o e.rt.fake_ethertype_ipv4 e.pkt_id_counter).1 =
      (m.split e.o e.rt.fake_ethertype_ipv4 e.pkt_id_counter).frags := by
    unfold Sent.frames
    rw [if_pos (show m.layer.need_split m.tls m.pkt_len = true from hneed)]
  have hdrawn : (m.split e.o e.rt.fake_ethertype_ipv4 e.pkt_id_counter).pkt_id_counter =
      e.pkt_id_counter ∨ (m.split e.o e.rt.fake_ethertype_ipv4 e.pkt_id_counter).pkt_id_counter =
      e.pkt_id_counter + 1 := hdraw.symm.imp And.left id
  unfold send_split
  dsimp only
  rw [show Layer.l2.split e.o e.rt.fake_ethertype_ipv4 (crypto_apply_from_policy p tls) ctx
    e.rt.nonce_counter e.pkt_id_counter pkt job.pkt_len e.frag1 e.frag2 =
    m.split e.o e.rt.fake_ethertype_ipv4 e.pkt_id_counter from rfl]
  cases hfrags : (m.split e.o e.rt.fake_ethertype_ipv4 e.pkt_id_counter).frags with
  | none =>
    dsimp only [Outbound.drop]
    rw [hsent]
    exact .nothing hdrawn
  | some f =>
    obtain ⟨f1, f2⟩ := f
    rw [hfrags] at hframes hdraw
    have hid : (m.split e.o e.rt.fake_ethertype_ipv4 e.pkt_id_counter).pkt_id_counter =
        e.pkt_id_counter + 1 := hdraw.resolve_right fun h => absurd h.2 (by simp)
    dsimp only
    split
    · rename_i pkt1 pkt2 h1 h2
      obtain ⟨q, c2, hqid, hwf, hof, hsized, hf1, h13, hf2, h13'⟩ :=
        split_l2_halves ho (m := m) rfl h4 h16 (wholeFrame_readdressed hwhole hpkt) hframes
      -- the packet with the addresses of the first fragment
      have hread : Readdressed pkt (write pkt 0 (read pkt1 0 12)) := fun i hi =>
        write_out _ _ _ _ (by rw [length_read]; omega)
      have hhead : ∀ i, i < 12 → pkt1 i = write pkt 0 (read pkt1 0 12) i := fun i hi => by
        rw [write_read_in _ _ _ _ _ _ (Nat.zero_le i) (by omega), Nat.sub_zero, Nat.zero_add]
      have hre1 := set_wan_l2_addrs_readdressed h1
      have hre2 := set_wan_l2_addrs_readdressed h2
      rw [hr.fake] at hf1 hf2
      have hsplit := splitOf_readdressed hqid hwf hof hsized hpkt hwhole hread
      have hidc : ∀ b n, ∀ r : Outbound, (r.send e b n).pkt_id_counter = r.pkt_id_counter := by
        intro b n r
        unfold Outbound.send
        split <;> rfl
      rw [hidc, hidc, hid]
      exact .split hsplit
        ⟨p, tls, ctx, _, pkt1, f1.2, hp, hin, l2Fragment_readdressed hf1 hre1 hhead,
          (hre1 13 (by omega)).trans h13, rfl⟩
        ⟨p, tls, ctx, c2, pkt2, f2.2, hp, hin, l2Fragment_readdressed hf2 hre2 fun _ _ => rfl,
          (hre2 13 (by omega)).trans h13', rfl⟩
        (sent_send_send e _ (by exact hsent) pkt1 pkt2 f1.2 f2.2)
    · dsimp only [Outbound.drop]
      rw [hsent]
      exact .nothing (Or.inr hid)

/-- The send of a packet that is encrypted whole. -/
theorem send_whole_sends (ho : e.o.Lawful) (hr : L2Gateway e.o e.rt ns) {p : CryptoPolicy}
    {ctx : PacketCryptoCtx} (hp : Seals e.rt p ctx) (hjob : HostPacket job.pkt job.pkt_len)
    {r : Outbound} (hsent : r.sent = []) (hid : r.pkt_id_counter = e.pkt_id_counter) {pkt : Buf}
    (hpkt : Readdressed job.pkt pkt) {tls : Tls}
    (hm : first_cipher_byte e.o (crypto_apply_from_policy p tls) ctx.key_current
      (next_nonce (crypto_apply_from_policy p tls) e.rt.nonce_counter) job.pkt job.pkt_len ≠
      L2_FRAG_MAGIC) (hin : EncInPlace (crypto_apply_from_policy p tls) ctx) :
    Sends e ns job
      (send_whole e r (crypto_layer2_encrypt e.o e.rt.fake_ethertype_ipv4
        (crypto_apply_from_policy p tls) ctx e.rt.nonce_counter pkt job.pkt_len)).sent
      (send_whole e r (crypto_layer2_encrypt e.o e.rt.fake_ethertype_ipv4
        (crypto_apply_from_policy p tls) ctx e.rt.nonce_counter pkt
        job.pkt_len)).pkt_id_counter := by
  have hE : ETH_HEADER_SIZE = 14 := rfl
  have hns : (crypto_apply_from_policy p tls).nonce_size = ns := by
    obtain ⟨hact, pi, hpi, -, -⟩ := hp
    exact hr.nonce_size_l2 p (List.mem_of_getElem? hpi) hact
  have hplain := l2Plain_readdressed hjob.plain hpkt
  have hlen := hplain.len
  have haddrs := crypto_layer2_encrypt_addrs e.o ho e.rt.fake_ethertype_ipv4
    (crypto_apply_from_policy p tls) ctx e.rt.nonce_counter pkt job.pkt_len
  unfold send_whole
  rcases crypto_layer2_encrypt_cases ho e.rt.fake_ethertype_ipv4 (crypto_apply_from_policy p tls)
    ctx e.rt.nonce_counter pkt job.pkt_len (hns ▸ hr.nonce_ge) with
    hnone | ⟨-, -, hno | hfake⟩ | ⟨-, -, hret, hframe⟩
  · rw [hnone]
    dsimp only [Outbound.drop]
    rw [hsent]
    exact .nothing (Or.inl hid)
  · rw [hplain.eth] at hno
    simp at hno
  · rw [hr.fake] at hfake
    simp at hfake
  · rw [hret]
    have hbyte := magic_byte (by omega) hframe
    have hfirst : first_cipher_byte e.o (crypto_apply_from_policy p tls) ctx.key_current
        (next_nonce (crypto_apply_from_policy p tls) e.rt.nonce_counter) pkt job.pkt_len =
        first_cipher_byte e.o (crypto_apply_from_policy p tls) ctx.key_current
          (next_nonce (crypto_apply_from_policy p tls) e.rt.nonce_counter) job.pkt job.pkt_len := by
      unfold first_cipher_byte
      rw [hpkt.read (show 12 ≤ ETH_HEADER_SIZE by decide)]
    rw [hns, hfirst] at hbyte
    rw [hr.fake] at hframe haddrs hbyte ⊢
    exact sends_one hsent hid (.whole ⟨p, tls, ctx, _, pkt, _, hp, hpkt, hin, hframe, haddrs,
      by rw [hbyte]; exact hm, by rw [hns]⟩)

/-- Whatever the worker sends for a packet of a host is the packet itself, the packet encrypted
whole, or its two halves. -/
theorem worker_sends (ho : e.o.Lawful) (hr : L2Gateway e.o e.rt ns)
    (hjob : HostPacket job.pkt job.pkt_len) (hu : Unmistakable e job) (hin : SealsInPlace e job) :
    Sends e ns job (worker_packet e job).sent (worker_packet e job).pkt_id_counter := by
  unfold Unmistakable at hu
  unfold SealsInPlace at hin
  unfold worker_packet
  rw [hr.enabled, if_neg (by decide)]
  cases hchoose : choose e job.local_idx (parse_flow job.pkt job.pkt_len) with
  | drop => exact .nothing (Or.inl rfl)
  | bypass => exact send_plain_sends _
  | encrypt pi cp =>
    obtain ⟨hcp, hact, hready⟩ := choose_encrypt hchoose
    have hl2 := (hr.action cp (List.mem_of_getElem? hcp)).resolve_left hact
    have hseals : Seals e.rt cp (e.rt.active.ctx pi) := ⟨hl2, pi, hcp, hready, rfl⟩
    rw [hchoose] at hu hin
    dsimp only at hu hin ⊢
    rw [hl2]
    unfold worker.layer_of send_encrypted
    dsimp only
    split
    · exact .nothing (Or.inl rfl)
    rename_i pkt hset
    have hpkt := set_wan_l2_addrs_readdressed hset
    split
    · rename_i hneed
      exact send_split_sends ho hr hseals hjob rfl hpkt hneed hin _
    · rename_i hneed
      exact send_whole_sends ho hr hseals hjob rfl rfl hpkt (hu.resolve_left hneed) hin

end

section

variable {e : WanEnv} {ns : Nat}

/-! ## Layers 3 and 4 -/

theorem L2Gateway.not_l3 (h : L2Gateway e.o e.rt ns) {q : CryptoPolicy}
    (hq : q ∈ e.rt.fwd_cfg.policies) : (q.action == .encrypt_l3) = false := by
  rcases h.action q hq with hb | h2
  · rw [hb]
    rfl
  · rw [h2]
    rfl

theorem L2Gateway.not_l4 (h : L2Gateway e.o e.rt ns) {q : CryptoPolicy}
    (hq : q ∈ e.rt.fwd_cfg.policies) : (q.action == .encrypt_l4) = false := by
  rcases h.action q hq with hb | h2
  · rw [hb]
    rfl
  · rw [h2]
    rfl

theorem L2Gateway.extract_l3 (h : L2Gateway e.o e.rt ns) (magic : UInt8) (tls : Tls) (pkt : Buf)
    (pkt_len : Nat) : crypto_l3_extract_policy_id magic tls e.rt.fwd_cfg pkt pkt_len = none := by
  refine ite_eq_left_iff.mpr fun _ => ?_
  rw [Option.map_eq_none_iff, List.find?_eq_none]
  intro q hq
  rw [h.not_l3 hq]
  simp

theorem L2Gateway.extract_l4 (h : L2Gateway e.o e.rt ns) (pkt : Buf) (pkt_len : Nat) :
    crypto_l4_extract_policy_id_ipv4 e.rt.fwd_cfg pkt pkt_len = none := by
  unfold crypto_l4_extract_policy_id_ipv4
  split
  · rfl
  refine ite_eq_left_iff.mpr fun _ => ?_
  rw [Option.map_eq_none_iff, List.find?_eq_none]
  intro q hq
  rw [h.not_l4 hq]
  simp

/-- Whatever comes to layer 3 goes on as it is. -/
theorem L2Gateway.receive_l3 (h : L2Gateway e.o e.rt ns) (w : WanThread) (pkt : Buf)
    (pkt_len : Nat) : receive_l3 e w pkt pkt_len = (.packet pkt pkt_len, w) := by
  have hfrag : frag_is_fragment w.tls e.rt.fwd_cfg pkt pkt_len = none := by
    unfold frag_is_fragment
    split
    · rfl
    dsimp only
    split
    · rfl
    unfold fragment_of
    rw [List.find?_eq_none.mpr]
    intro q hq
    rw [h.not_l3 hq]
    simp
  unfold wan_queue.receive_l3
  rw [hfrag]
  dsimp only
  unfold decrypt_packet_auto_by_action crypto_decrypt_packet_auto_by_action
  rw [h.enabled, if_neg (by decide), if_neg h.policies, h.extract_l3]
  rfl

theorem L2Gateway.receive_l4 (h : L2Gateway e.o e.rt ns) (w : WanThread) (pkt : Buf)
    (pkt_len : Nat) : receive_l4 e w pkt pkt_len = (.packet pkt pkt_len, w) := by
  have hfrag : frag_is_fragment_l4 w.tls e.rt.fwd_cfg pkt pkt_len = none := by
    unfold frag_is_fragment_l4
    dsimp only
    split
    · rfl
    unfold fragment_of
    rw [List.find?_eq_none.mpr]
    intro q hq
    rw [h.not_l4 hq]
    simp
  unfold wan_queue.receive_l4
  rw [hfrag]
  dsimp only
  unfold decrypt_packet_auto_by_action crypto_decrypt_packet_auto_by_action
  rw [h.enabled, if_neg (by decide), if_neg h.policies, h.extract_l4]
  rfl

/-- The thread when it comes to layer 2: it has the default settings. -/
def defaults (e : WanEnv) (w : WanThread) : WanThread :=
  { w with tls := crypto_apply_default_from_cfg e.rt.fwd_cfg w.tls }

/-- Only layer 2 does something with a packet. -/
theorem L2Gateway.inbound (h : L2Gateway e.o e.rt ns) (w : WanThread) (pkt : Buf)
    (pkt_len : Nat) :
    inbound_l3l4 e w pkt pkt_len =
      if l2_has_fake_marker e.rt.fake_ethertype_ipv4 pkt then
        receive_l2 e (defaults e w) pkt pkt_len
      else (.packet pkt pkt_len, defaults e w) := by
  have happly : apply_inbound_params e w.tls pkt pkt_len =
      crypto_apply_default_from_cfg e.rt.fwd_cfg w.tls := by
    unfold apply_inbound_params
    rw [h.enabled, h.layer, List.isEmpty_eq_false_iff.mpr h.policies, h.extract_l3]
    rfl
  unfold inbound_l3l4
  rw [happly]
  dsimp only [defaults]
  generalize (if l2_has_fake_marker e.rt.fake_ethertype_ipv4 pkt then
    receive_l2 e { w with tls := crypto_apply_default_from_cfg e.rt.fwd_cfg w.tls } pkt pkt_len
    else (Inbound.packet pkt pkt_len,
      { w with tls := crypto_apply_default_from_cfg e.rt.fwd_cfg w.tls })) = r
  obtain ⟨r, w'⟩ := r
  cases r with
  | packet pkt' len' =>
    dsimp only
    rw [h.enabled, h.receive_l3]
    exact h.receive_l4 w' pkt' len'
  | dropped => rfl
  | pending => rfl

/-! ## A frame that is encrypted whole -/

/-- The thread finds the key of the policy that a frame names in place. -/
def OpensInPlace (e : WanEnv) (tls : Tls) (pkt : Buf) : Prop :=
  l2_has_fake_marker e.rt.fake_ethertype_ipv4 pkt = true → ∀ pj q,
    e.rt.fwd_cfg.policies[pj]? = some q → q.wire_id = pkt 13 →
    DecInPlace (crypto_apply_from_policy q tls) (e.rt.active.ctx pj)

theorem Opens.sameKey {p q : CryptoPolicy} {pj : Nat} (h : Opens e.rt p pj q)
    {tls tls' : Tls} {ctx : PacketCryptoCtx}
    (hkey : (e.rt.active.ctx pj).key_current = ctx.key_current)
    (henc : EncInPlace (crypto_apply_from_policy p tls) ctx) {pkt : Buf}
    (hmark : l2_has_fake_marker e.rt.fake_ethertype_ipv4 pkt = true) (h13 : pkt 13 = p.wire_id)
    (hdec : OpensInPlace e tls' pkt) :
    SameKey (crypto_apply_from_policy p tls) ctx (crypto_apply_from_policy q tls')
      (e.rt.active.ctx pj) :=
  (h.same.aes tls tls').sameKey hkey henc (hdec hmark pj q h.policy (h.same.wire_id.trans h13.symm))

theorem Opens.ctx {p q : CryptoPolicy} {pj : Nat} (h : Opens e.rt p pj q)
    (hr : L2Gateway e.o e.rt ns) {ctx : PacketCryptoCtx} (hk : KeyOf e.o p ctx) :
    (e.rt.active.ctx pj).key_current = ctx.key_current ∧
      (e.rt.active.ctx pj).initialized = true := by
  have hctx : e.rt.active.ctx pj = _ := hr.tables.ctx_eq pj q h.policy h.ready
  unfold KeyOf at hk
  rw [hctx, hk, h.same.key, h.same.aes_bits]
  exact ⟨rfl, rfl⟩

/-- The byte behind the marker names the policy. -/
theorem Opens.resolve {p q : CryptoPolicy} {pj : Nat} (h : Opens e.rt p pj q)
    (hr : L2Gateway e.o e.rt ns) {pkt : Buf} (h13 : pkt 13 = p.wire_id) (tls : Tls) :
    forwarder_resolve_l2_decrypt_ctx e.rt e.now_ms tls pkt =
      some (e.rt.active.ctx pj, crypto_apply_from_policy q tls) := by
  have hres := hr.resolve h.policy h.ready (fun _ => true) rfl e.now_ms tls
  rw [h.same.action.2, h.same.wire_id] at hres
  unfold forwarder_resolve_l2_decrypt_ctx
  rw [if_neg hr.policies, h13, hres]

theorem l2Frame_congr {o : Openssl} {fake : Nat} {tls : Tls} {ctx : PacketCryptoCtx} {counter : Nat}
    {packet : Buf} {pkt_len : Nat} {b c : Buf} (hlen : ETH_HEADER_SIZE ≤ pkt_len)
    (h : L2Frame o fake tls ctx counter packet pkt_len b)
    (hc : ∀ i, i < pkt_len + tls.nonce_size + tag_overhead tls → c i = b i) :
    L2Frame o fake tls ctx counter packet pkt_len c := by
  have hE : ETH_HEADER_SIZE = 14 := rfl
  refine ⟨h.sealed.congr fun i h1 h2 => hc i ?_, ?_, ?_⟩
  · rw [length_read] at h2
    omega
  · rw [hc 12 (by omega), h.marker]
  · rw [hc 13 (by omega), h.policy_id]

/-- The thread gets the packet back, with the addresses that the frame has. -/
theorem receive_l2_of_frame (ho : e.o.Lawful) (hr : L2Gateway e.o e.rt ns) {p q : CryptoPolicy}
    {pj : Nat} (hq : Opens e.rt p pj q) {tls : Tls} {ctx : PacketCryptoCtx} (hk : KeyOf e.o p ctx)
    {counter : Nat} {packet : Buf} {pkt_len : Nat} {buf : Buf} (hp : L2Plain packet pkt_len)
    (hf : L2Frame e.o 0x88b5 (crypto_apply_from_policy p tls) ctx counter packet pkt_len buf)
    (haddrs : ∀ i, i < 12 → buf i = packet i)
    (hm : buf (ETH_HEADER_SIZE + ns) ≠ L2_FRAG_MAGIC)
    (henc : EncInPlace (crypto_apply_from_policy p tls) ctx) (w : WanThread)
    (hevp : w.tls.evp_ok = true) (hopens : OpensInPlace e w.tls buf) :
    ∃ out, receive_l2 e w buf (pkt_len + ns + tag_overhead (crypto_apply_from_policy p tls)) =
        (.packet out pkt_len, { w with tls := crypto_apply_from_policy q w.tls }) ∧
      ∀ i, i < pkt_len → out i = packet i := by
  have hqmem := List.mem_of_getElem? hq.policy
  have hns : (crypto_apply_from_policy p tls).nonce_size = ns := by
    rw [← hr.nonce_size_l2 q hqmem hq.same.action.2, hq.same.nonce_size]
    rfl
  have hnsq : (crypto_apply_from_policy q w.tls).nonce_size =
      (crypto_apply_from_policy p tls).nonce_size := hq.same.nonce_size
  obtain ⟨hkey, hinit⟩ := hq.ctx hr hk
  have hmark : l2_has_fake_marker e.rt.fake_ethertype_ipv4 buf = true := by
    unfold l2_has_fake_marker
    rw [hr.fake, hf.marker]
    decide
  have hdec := decrypt_restores_a_frame_without_the_magic ho hp
    (by decide) hf haddrs (hq.same.aes tls w.tls) hnsq hevp
    (hq.sameKey hkey henc hmark (hf.policy_id.trans rfl) hopens) hinit (by rw [hns]; exact hm)
  rw [hns] at hdec
  unfold receive_l2
  rw [not_a_fragment_without_the_magic hr.nonce_size_l2 _ hm]
  dsimp only
  unfold decrypt_packet_auto_l2
  rw [hr.enabled, hmark, hq.resolve hr (hf.policy_id.trans rfl)]
  simp only [Bool.not_true, Bool.false_eq_true, if_false, hr.policies, packet_decrypt, if_true,
    hr.fake]
  generalize crypto_layer2_decrypt e.o 0x88b5 (crypto_apply_from_policy q w.tls)
    (e.rt.active.ctx pj) buf _ = r at hdec ⊢
  obtain ⟨ret, out⟩ := r
  obtain ⟨hret, hout⟩ := hdec
  dsimp only at hret hout
  subst hret
  exact ⟨out, rfl, hout⟩

/-! ## A fragment -/

/-- The test for fragments knows every fragment. -/
theorem frag_is_fragment_l2_eq (hr : L2Gateway e.o e.rt ns) {p q : CryptoPolicy} {pj : Nat}
    (hq : Opens e.rt p pj q) {tls : Tls} {ctx : PacketCryptoCtx} {counter : Nat} {packet : Buf}
    {plain : Bytes} {id : Nat} {idx : UInt8} {buf : Buf} {n : Nat}
    (hf : L2Fragment e.o 0x88b5 (crypto_apply_from_policy p tls) ctx counter packet plain id idx
      buf n)
    (hidx : idx ≤ 1) :
    frag_is_fragment_l2 e.rt.fake_ethertype_ipv4 e.rt.fwd_cfg buf n = some (id % 65536, idx) := by
  have hE : ETH_HEADER_SIZE = 14 := rfl
  have hF : FRAG_TAG_SIZE = 4 := rfl
  have h4 := hr.nonce_ge
  have hqmem := List.mem_of_getElem? hq.policy
  have hnsq : q.nonce_size = ns := hr.nonce_size_l2 q hqmem hq.same.action.2
  have hns : (crypto_apply_from_policy p tls).nonce_size = ns := by
    rw [← hnsq, hq.same.nonce_size]
    rfl
  have hlen := hf.len
  have hmagic := hf.magic
  have htag := hf.tag
  rw [hns] at hlen hmagic htag
  rw [hE] at hmagic htag
  unfold frag_is_fragment_l2
  rw [hr.fake, hf.marked,
    if_neg (by simp only [Bool.not_true, Bool.false_eq_true, or_false]; omega)]
  cases hfind : e.rt.fwd_cfg.policies.find? (fun cp => cp.action == .encrypt_l2 &&
      cp.nonce_size != 0 && decide (14 + cp.nonce_size + 1 + FRAG_TAG_SIZE ≤ n) &&
      buf (14 + cp.nonce_size) == L2_FRAG_MAGIC) with
  | none =>
    -- the policy of the fragment is one that fits
    refine absurd ?_ (List.find?_eq_none.mp hfind q hqmem)
    simp only [hq.same.action.2, hnsq, hmagic, beq_self_eq_true, Bool.and_true, Bool.true_and,
      Bool.and_eq_true, bne_iff_ne, decide_eq_true_eq]
    omega
  | some cp =>
    have hfits := List.find?_some hfind
    simp only [Bool.and_eq_true, beq_iff_eq] at hfits
    have hcp : cp.nonce_size = ns :=
      hr.nonce_size_l2 cp (List.mem_of_find?_eq_some hfind) hfits.1.1.1
    exact fragment_of_eq hfind (by rw [hcp]; exact htag) hidx

/-- The table gets the plaintext of the fragment, behind the addresses that the frame has. -/
theorem receive_l2_of_fragment (ho : e.o.Lawful) (hr : L2Gateway e.o e.rt ns) {p q : CryptoPolicy}
    {pj : Nat} (hq : Opens e.rt p pj q) {tls : Tls} {ctx : PacketCryptoCtx} (hk : KeyOf e.o p ctx)
    {counter : Nat} {packet : Buf} {plain : Bytes} {id : Nat} {idx : UInt8} {buf : Buf} {n : Nat}
    (hf : L2Fragment e.o 0x88b5 (crypto_apply_from_policy p tls) ctx counter packet plain id idx
      buf n)
    (h13 : buf 13 = p.wire_id) (hidx : idx ≤ 1)
    (henc : EncInPlace (crypto_apply_from_policy p tls) ctx) (w : WanThread)
    (hevp : w.tls.evp_ok = true) (hopens : OpensInPlace e w.tls buf) :
    ∃ half, read half 14 plain.length = plain ∧ (∀ i, i < 12 → half i = packet i) ∧
      ∀ r ft, frag_try_reassemble_l2 e.now_ns w.frag_l2 half (14 + plain.length) (id % 65536) idx
          e.reass_buf = (r, ft) →
        receive_l2 e w buf n = (inbound_of_reassembled half r,
          { w with frag_l2 := ft, tls := crypto_apply_from_policy q w.tls }) := by
  obtain ⟨hkey, hinit⟩ := hq.ctx hr hk
  obtain ⟨half, hdec, hplain, hhead⟩ := crypto_layer2_decrypt_fragment_frame ho
    (crypto_apply_from_policy q w.tls) (e.rt.active.ctx pj) hf (hq.same.aes tls w.tls)
    hq.same.nonce_size hevp
    (hq.sameKey hkey henc (by rw [hr.fake]; exact hf.marked) h13 hopens) hinit
  refine ⟨half, hplain, hhead, fun r ft hjoin => ?_⟩
  unfold receive_l2
  rw [frag_is_fragment_l2_eq hr hq hf hidx, hq.resolve hr h13]
  unfold receive_fragment
  dsimp only
  rw [hr.fake, hdec]
  dsimp only
  rw [show ETH_HEADER_SIZE + plain.length = 14 + plain.length from rfl, hjoin]
  cases r <;> rfl

/-- The addresses of a second half are not read. -/
theorem try_reassemble_l2_second_congr (now : Nat) (ft : FragTable) {half half' : Buf}
    (h : ∀ i, 14 ≤ i → half' i = half i) (half_len id : Nat) (out_buf : Buf) :
    frag_try_reassemble_l2 now ft half' half_len id 1 out_buf =
      frag_try_reassemble_l2 now ft half half_len id 1 out_buf := by
  have hread : read half' ETH_HEADER_SIZE (half_len - ETH_HEADER_SIZE) =
      read half ETH_HEADER_SIZE (half_len - ETH_HEADER_SIZE) :=
    read_congr fun i hi _ => h i hi
  unfold frag_try_reassemble_l2
  simp only [if_neg (show ¬(1 : UInt8) = 0 by decide), hread]

end

end ne_ip.l2_gateway
