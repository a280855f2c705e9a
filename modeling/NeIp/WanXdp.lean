-- The program on the WAN interfaces (xdp_wan_redirect.c): what it makes of the frames that the
-- worker of another gateway sends, over the hot reloads of its own one.
import NeIp.CleartextLeak
import NeIp.FreshRebuild
import NeIp.Runs

open runs byte_buf ne_ip.packet_crypto ne_ip.tunnel ne_ip.config ne_ip.crypto_dispatch
open ne_ip.crypto_layer2 ne_ip.crypto_layer3 ne_ip.crypto_layer4 ne_ip.fragment ne_ip.reassembly
open ne_ip.forwarder ne_ip.flow ne_ip.worker ne_ip.cleartext_leak ne_ip.sample

namespace ne_ip.wan_xdp

/-! ## The program -/

def ETH_P_IP : Nat := 0x0800
def ETH_P_IPV6 : Nat := 0x86DD
def IPV4_HDR_LEN : Nat := 20
def NE_L2_MARKER_BYTE : UInt8 := 0x88

inductive XdpVerdict where
  | pass
  | redirect
  | drop
  deriving DecidableEq, Repr

/-- The keys of `wan_stats_map`. -/
inductive WanStat where
  | total
  | non_ip
  | redirect
  | no_sock
  | arp_pass
  | icmp_pass
  | ne_l2
  deriving DecidableEq, Repr

/-- `bpf_redirect_map`, which returns its flags XDP_DROP when no socket is in the map. -/
def wan_redirect (has_sock : Bool) (stats : List WanStat) : XdpVerdict × List WanStat :=
  if has_sock then (.redirect, stats ++ [.redirect]) else (.drop, stats ++ [.no_sock])

/-- What becomes of a frame, and the counters that count it. `fake4` is the entry of
`wan_config_map`. -/
def xdp_wan_redirect_prog (fake4 : Nat) (has_sock : Bool) (pkt : Buf) (pkt_len : Nat) :
    XdpVerdict × List WanStat :=
  if pkt_len < ETH_HEADER_SIZE then (.pass, [.total])
  else
    let proto := be16 pkt 12
    if proto = ETH_P_ARP_VAL then (.pass, [.total, .arp_pass])
    else if proto = ETH_P_IP then
      if pkt_len < ETH_HEADER_SIZE + IPV4_HDR_LEN then (.pass, [.total])
      else if pkt (ETH_HEADER_SIZE + 9) = IPPROTO_ICMP_VAL then (.pass, [.total, .icmp_pass])
      else wan_redirect has_sock [.total]
    else if proto = ETH_P_IPV6 then (.pass, [.total])
    else if fake4 ≠ 0 ∧ pkt 12 = NE_L2_MARKER_BYTE then wan_redirect has_sock [.total, .ne_l2]
    else (.pass, [.total, .non_ip])

/-- Only a frame that a socket takes is redirected, and only one that needs a socket is dropped. -/
theorem wan_redirect_fst (has_sock : Bool) (stats : List WanStat) :
    (wan_redirect has_sock stats).1 = if has_sock then .redirect else .drop := by
  unfold wan_redirect
  split
  · rfl
  · rfl

/-! ## The frames of the tunnel -/

/-- An IPv4 packet that is not ICMP. -/
structure Ipv4Frame (pkt : Buf) (pkt_len : Nat) : Prop where
  fits : 34 ≤ pkt_len
  ethertype : be16 pkt 12 = ETH_P_IP
  proto : pkt 23 ≠ IPPROTO_ICMP_VAL

/-- A frame that begins with the marker of layer 2. -/
structure MarkedFrame (pkt : Buf) (pkt_len : Nat) : Prop where
  fits : 14 ≤ pkt_len
  marker : pkt 12 = NE_L2_MARKER_BYTE

section

variable {pkt out : Buf} {pkt_len : Nat}

theorem Ipv4Frame.congr (h : Ipv4Frame pkt pkt_len)
    (hc : ∀ i, 12 ≤ i → i < pkt_len → out i = pkt i) : Ipv4Frame out pkt_len := by
  have hfits := h.fits
  refine ⟨hfits, ?_, ?_⟩
  · rw [be16_congr (hc 12 (by omega) (by omega)) (hc 13 (by omega) (by omega))]
    exact h.ethertype
  · rw [hc 23 (by omega) (by omega)]
    exact h.proto

theorem MarkedFrame.congr (h : MarkedFrame pkt pkt_len)
    (hc : ∀ i, 12 ≤ i → i < pkt_len → out i = pkt i) : MarkedFrame out pkt_len := by
  have hfits := h.fits
  refine ⟨hfits, ?_⟩
  rw [hc 12 (by omega) (by omega)]
  exact h.marker

/-- The marker is the first byte of no ethertype that the program looks for. -/
theorem MarkedFrame.ethertype (h : MarkedFrame pkt pkt_len) :
    be16 pkt 12 ≠ ETH_P_ARP_VAL ∧ be16 pkt 12 ≠ ETH_P_IP ∧ be16 pkt 12 ≠ ETH_P_IPV6 := by
  have hlow := (pkt 13).toNat_lt
  have hhigh : (pkt 12).toNat = 0x88 := congrArg UInt8.toNat h.marker
  simp only [be16, ETH_P_ARP_VAL, ETH_P_IP, ETH_P_IPV6]
  omega

theorem Ipv4Frame.verdict (h : Ipv4Frame pkt pkt_len) (fake4 : Nat) (has_sock : Bool) :
    xdp_wan_redirect_prog fake4 has_sock pkt pkt_len = wan_redirect has_sock [.total] := by
  have hE : ETH_HEADER_SIZE = 14 := rfl
  have hH : IPV4_HDR_LEN = 20 := rfl
  have hfits := h.fits
  unfold xdp_wan_redirect_prog
  dsimp only
  rw [h.ethertype, if_neg (by omega), if_neg (by decide), if_pos rfl, if_neg (by omega),
    if_neg (show ¬pkt (ETH_HEADER_SIZE + 9) = IPPROTO_ICMP_VAL from h.proto)]

theorem MarkedFrame.verdict (h : MarkedFrame pkt pkt_len) (fake4 : Nat) (has_sock : Bool) :
    xdp_wan_redirect_prog fake4 has_sock pkt pkt_len =
      if fake4 ≠ 0 then wan_redirect has_sock [.total, .ne_l2] else (.pass, [.total, .non_ip]) := by
  have hE : ETH_HEADER_SIZE = 14 := rfl
  have hfits := h.fits
  obtain ⟨harp, hip, hipv6⟩ := h.ethertype
  unfold xdp_wan_redirect_prog
  dsimp only
  rw [if_neg (by omega), if_neg harp, if_neg hip, if_neg hipv6]
  simp only [h.marker, and_true]

end

/-! ## What the worker sends -/

/-- What the settings of the other gateway need: a marker that the program knows, and a protocol
that is not ICMP. -/
structure KnownMarks (e : LanEnv) : Prop where
  fake : e.rt.fake_ethertype_ipv4 ≠ 0 →
    UInt8.ofNat (e.rt.fake_ethertype_ipv4 / 256) = NE_L2_MARKER_BYTE
  proto : e.tls.fake_protocol ≠ IPPROTO_ICMP_VAL
  nonce_size : ∀ cp ∈ e.rt.fwd_cfg.policies, 4 ≤ cp.nonce_size

def TunnelFrame (pkt : Buf) (pkt_len : Nat) : Prop :=
  Ipv4Frame pkt pkt_len ∨ MarkedFrame pkt pkt_len

theorem TunnelFrame.congr {pkt out : Buf} {pkt_len : Nat} (h : TunnelFrame pkt pkt_len)
    (hc : ∀ i, 12 ≤ i → i < pkt_len → out i = pkt i) : TunnelFrame out pkt_len :=
  h.imp (fun h => h.congr hc) fun h => h.congr hc

section

variable {o : Openssl} {fake : Nat} {tls : Tls} {ctx : PacketCryptoCtx} {counter : Nat} {pkt : Buf}
  {pkt_len : Nat} {out : Buf} {n : Nat}

/-- A frame with the headers of a packet that the LAN program redirected, but for the protocol. -/
theorem ipv4_of_headers (hr : Redirected pkt pkt_len) (hn : 34 ≤ n)
    (hout : ∀ i, 12 ≤ i → i < 14 → out i = pkt i)
    (hproto : out 23 = pkt 23 ∨ out 23 ≠ IPPROTO_ICMP_VAL) :
    Ipv4Frame out n := by
  refine ⟨hn, ?_, ?_⟩
  · rw [be16_congr (hout 12 (by omega) (by omega)) (hout 13 (by omega) (by omega))]
    exact hr.ipv4
  · rcases hproto with hsame | hne
    · rw [hsame]
      rcases hr.proto with h6 | h17
      · rw [show pkt 23 = 6 from h6]
        decide
      · rw [show pkt 23 = 17 from h17]
        decide
    · exact hne

theorem ipv4_of_redirected (hr : Redirected pkt pkt_len) : Ipv4Frame pkt pkt_len := by
  have hihl := hr.ihl
  have hfits := hr.fits
  exact ipv4_of_headers hr (by omega) (fun _ _ _ => rfl) (Or.inl rfl)

theorem tunnelFrame_of_frame {l : Layer} (hr : Redirected pkt pkt_len) (hn : pkt_len < n)
    (hfake : fake ≠ 0 → UInt8.ofNat (fake / 256) = NE_L2_MARKER_BYTE)
    (hproto : tls.fake_protocol ≠ IPPROTO_ICMP_VAL) (hexit : ¬EarlyExit fake tls pkt pkt_len l)
    (h : FrameOf o fake tls ctx counter pkt pkt_len out l) : TunnelFrame out n := by
  have hE : ETH_HEADER_SIZE = 14 := rfl
  have hihl := hr.ihl
  have hfits := hr.fits
  cases l with
  | l2 => exact Or.inr ⟨by omega, h.marker.trans (hfake hexit)⟩
  | l3 =>
    refine Or.inl (ipv4_of_headers hr (by omega) (fun i h1 h2 => ?_)
      (Or.inr fun h1 => hproto (h.marker.symm.trans h1)))
    exact h.headers i (by omega) (by show i ≠ 23; omega) (by omega) (by omega)
  | l4 =>
    have hoff : 14 + ip_hdr_len_at pkt 14 ≤ plain_off_at pkt 14 := Nat.le_add_right _ _
    exact Or.inl (ipv4_of_headers hr (by omega)
      (fun i h1 h2 => h.headers i (by omega) (by omega) (by omega))
      (Or.inl (h.headers 23 (by omega) (by omega) (by omega))))

theorem tunnelFrame_of_fragment {l : Layer} {plain : Bytes} {id : Nat} {idx : UInt8}
    (hr : Redirected pkt pkt_len)
    (hfake : fake ≠ 0 → UInt8.ofNat (fake / 256) = NE_L2_MARKER_BYTE)
    (hproto : tls.fake_protocol ≠ IPPROTO_ICMP_VAL)
    (h : FragmentOf o fake tls ctx counter pkt plain id idx out n l) : TunnelFrame out n := by
  have hE : ETH_HEADER_SIZE = 14 := rfl
  have hihl := hr.ihl
  cases l with
  | l2 =>
    have hlen := h.len
    have hmarked := h.marked
    unfold l2_has_fake_marker at hmarked
    simp only [Bool.and_eq_true, bne_iff_ne, beq_iff_eq] at hmarked
    exact Or.inr ⟨by omega, hmarked.2.trans (hfake hmarked.1)⟩
  | l3 =>
    have hlen := h.tagged.len
    refine Or.inl (ipv4_of_headers hr (by omega) (fun i h1 h2 => ?_)
      (Or.inr fun h1 => hproto (h.marker.symm.trans h1)))
    exact h.headers i (by omega) (by show i ≠ 23; omega) (by omega) (by omega)
  | l4 =>
    have hlen := h.tagged.len
    exact Or.inl (ipv4_of_headers hr (by omega)
      (fun i h1 h2 => h.headers i (by omega) (by omega) (by omega))
      (Or.inl (h.headers 23 (by omega) (by omega) (by omega))))

end

/-- An encoder fails, hands the packet back or makes a frame of it. -/
theorem encrypt_at_cases {o : Openssl} (ho : o.Lawful) {tls : Tls} {pkt : Buf} {pkt_len : Nat}
    (hr : Redirected pkt pkt_len) (hns : 4 ≤ tls.nonce_size) (fake : Nat) (l : Layer)
    (ctx : PacketCryptoCtx) (counter : Nat) :
    (encrypt_at o fake l tls ctx counter pkt pkt_len).ret = none ∨
      ((encrypt_at o fake l tls ctx counter pkt pkt_len).ret = some pkt_len ∧
        (encrypt_at o fake l tls ctx counter pkt pkt_len).pkt = pkt) ∨
      ¬EarlyExit fake tls pkt pkt_len l ∧
        ∃ n, pkt_len < n ∧ (encrypt_at o fake l tls ctx counter pkt pkt_len).ret = some n ∧
          FrameOf o fake tls ctx counter pkt pkt_len
            (encrypt_at o fake l tls ctx counter pkt pkt_len).pkt l := by
  by_cases hexit : EarlyExit fake tls pkt pkt_len l
  swap
  · rcases encrypt_at_of_not_earlyExit ho hr hns hexit ctx counter with hnone | hframe
    · exact Or.inl hnone
    · exact Or.inr (Or.inr ⟨hexit, _, hframe⟩)
  cases hinit : ctx.initialized with
  | true => exact Or.inr (Or.inl (encrypt_at_of_earlyExit hr hinit hexit o counter))
  | false =>
    left
    cases l with
    | l2 => simp [encrypt_at, crypto_layer2_encrypt, hinit]
    | l3 => simp [encrypt_at, crypto_layer3_encrypt, hinit]
    | l4 => simp [encrypt_at, crypto_layer4_encrypt, hinit]

theorem mem_sent_send {e : LanEnv} {r : Outbound} {pkt : Buf} {pkt_len : Nat} {f : Bytes}
    (h : f ∈ (r.send e pkt pkt_len).sent) : f ∈ r.sent ∨ f = read pkt 0 pkt_len := by
  rw [sent_send] at h
  rcases List.mem_append.mp h with hold | hnew
  · exact Or.inl hold
  split at hnew
  · exact Or.inr (List.mem_singleton.mp hnew)
  · simp at hnew

section

variable {e : LanEnv} {job : PacketJob}

theorem mem_send_plain (hr : Redirected job.pkt job.pkt_len) {wan_idx : Nat} {f : Bytes}
    (h : f ∈ (send_plain e wan_idx job).sent) :
    ∃ out n, f = read out 0 n ∧ TunnelFrame out n := by
  unfold send_plain at h
  split at h
  · simp [Outbound.drop, Outbound.start] at h
  rename_i pkt hpkt
  have hre := set_wan_l2_addrs_readdressed hpkt
  rcases mem_sent_send h with hnone | rfl
  · simp [Outbound.start] at hnone
  · exact ⟨pkt, job.pkt_len, rfl, Or.inl (ipv4_of_redirected (hr.congr hre))⟩

theorem mem_send_encrypted (ho : e.o.Lawful) (hr : Redirected job.pkt job.pkt_len)
    (hfake : e.rt.fake_ethertype_ipv4 ≠ 0 →
      UInt8.ofNat (e.rt.fake_ethertype_ipv4 / 256) = NE_L2_MARKER_BYTE) {tls : Tls}
    (hproto : tls.fake_protocol ≠ IPPROTO_ICMP_VAL) (hns : 4 ≤ tls.nonce_size) {wan_idx : Nat}
    {l : Layer} {ctx : PacketCryptoCtx} {f : Bytes}
    (h : f ∈ (send_encrypted e wan_idx l tls ctx job).sent) :
    ∃ out n, f = read out 0 n ∧ TunnelFrame out n := by
  unfold send_encrypted at h
  dsimp only at h
  split at h
  · simp [Outbound.drop, Outbound.start] at h
  rename_i pkt hpkt
  have hr' := hr.congr (set_wan_l2_addrs_readdressed hpkt)
  split at h
  · unfold send_split at h
    dsimp only at h
    split at h
    · simp [Outbound.drop, Outbound.start] at h
    rename_i f1 f2 hfrags
    split at h
    swap
    · simp [Outbound.drop, Outbound.start] at h
    rename_i pkt1 pkt2 h1 h2
    obtain ⟨m, c, id, -, -, hf1, hf2⟩ := split_halves ho hr' hns hfrags
    rcases mem_sent_send h with hone | rfl
    · rcases mem_sent_send hone with hnone | rfl
      · simp [Outbound.start] at hnone
      · refine ⟨pkt1, f1.2, rfl, (tunnelFrame_of_fragment hr' hfake hproto hf1).congr ?_⟩
        exact fun i hi _ => set_wan_l2_addrs_readdressed h1 i hi
    · refine ⟨pkt2, f2.2, rfl, (tunnelFrame_of_fragment hr' hfake hproto hf2).congr ?_⟩
      exact fun i hi _ => set_wan_l2_addrs_readdressed h2 i hi
  · unfold send_whole at h
    rcases encrypt_at_cases ho hr' hns e.rt.fake_ethertype_ipv4 l ctx e.rt.nonce_counter with
      hnone | ⟨hret, hsame⟩ | ⟨hexit, n, hlt, hret, hframe⟩
    · rw [hnone] at h
      simp [Outbound.drop, Outbound.start] at h
    · rw [hret, hsame] at h
      rcases mem_sent_send h with hnone | rfl
      · simp [Outbound.start] at hnone
      · exact ⟨pkt, job.pkt_len, rfl, Or.inl (ipv4_of_redirected hr')⟩
    · rw [hret] at h
      rcases mem_sent_send h with hnone | rfl
      · simp [Outbound.start] at hnone
      · exact ⟨_, n, rfl, tunnelFrame_of_frame hr' hlt hfake hproto hexit hframe⟩

/-- Whatever becomes of a redirected packet, what leaves for the WAN is a frame of the tunnel. -/
theorem mem_worker_packet (ho : e.o.Lawful) (hr : Redirected job.pkt job.pkt_len)
    (hk : KnownMarks e) {f : Bytes} (h : f ∈ (worker_packet e job).sent) :
    ∃ out n, f = read out 0 n ∧ TunnelFrame out n := by
  unfold worker_packet at h
  split at h
  · exact mem_send_plain hr h
  split at h
  · simp [Outbound.drop, Outbound.start] at h
  · exact mem_send_plain hr h
  rename_i pi cp hchoose
  split at h
  · simp [Outbound.drop, Outbound.start] at h
  have hcp := (choose_encrypt hchoose).1
  have hproto : (crypto_apply_from_policy cp e.tls).fake_protocol ≠ IPPROTO_ICMP_VAL := by
    unfold crypto_apply_from_policy
    dsimp only
    split
    · decide
    · exact hk.proto
  have hns : 4 ≤ (crypto_apply_from_policy cp e.tls).nonce_size :=
    hk.nonce_size cp (List.mem_of_getElem? hcp)
  exact mem_send_encrypted ho hr hk.fake hproto hns h

/-- What a WAN program makes of such a frame, in a buffer that holds `rest` otherwise. -/
theorem verdict_of_sent (ho : e.o.Lawful) (hr : Redirected job.pkt job.pkt_len)
    (hk : KnownMarks e) {f : Bytes} (h : f ∈ (worker_packet e job).sent) (rest : Buf)
    (fake4 : Nat) (has_sock : Bool) :
    (xdp_wan_redirect_prog fake4 has_sock (write rest 0 f) f.length).1 =
      if be16 (write rest 0 f) 12 = ETH_P_IP ∨ fake4 ≠ 0 then
        if has_sock then .redirect else .drop
      else .pass := by
  obtain ⟨out, n, hf, hframe⟩ := mem_worker_packet ho hr hk h
  obtain ⟨hlen, hcopy⟩ := copy_of_read hf rest
  rw [hlen]
  rcases hframe.congr fun i _ hi => hcopy i hi with hip | hmarked
  · rw [hip.verdict, wan_redirect_fst, if_pos (Or.inl hip.ethertype)]
  · rw [hmarked.verdict]
    by_cases h0 : fake4 = 0
    · rw [if_neg (not_not.mpr h0), if_neg (not_or.mpr ⟨hmarked.ethertype.2.1, not_not.mpr h0⟩)]
    · rw [if_pos h0, if_pos (Or.inr h0), wan_redirect_fst]

end

/-! ## Init and hot reload -/

/-- The runtime of a gateway and the entry of its `wan_config_map`. -/
structure Gateway where
  rt : Runtime
  fake4 : Nat

/-- `forwarder_init` loads the program anew, with a map that it writes to; a hot reload does not
know of the map. -/
inductive Event where
  | init (tls : Tls) (now : Nat) (addr : Nat → Option (UInt32 × Option UInt32)) (cfg : AppConfig)
  | reload (tls : Tls) (cfg : AppConfig)

/-- The `wan_fake4` of `forwarder_init`, which has made `rt'` of `rt`. -/
def wan_fake4 (o : Openssl) (tls : Tls) (cfg : AppConfig) (rt rt' : Runtime) : Nat :=
  let has_encrypt_l2 := (rebuild_crypto_runtime o tls cfg rt).2
  if rt'.crypto_enabled && has_encrypt_l2 then rt'.fwd_cfg.fake_ethertype_ipv4 else 0

/-- A call that fails ends the run. -/
def step (o : Openssl) (s : Gateway) : Event → Option Gateway
  | .init tls now addr cfg =>
    let r := forwarder_init o tls now addr cfg s.rt
    if r.1 then some { rt := r.2, fake4 := wan_fake4 o tls cfg s.rt r.2 } else none
  | .reload tls cfg => (forwarder_reload_config o tls cfg s.rt).map fun rt => { s with rt }

/-- A configuration under which frames of layer 2 can be opened. -/
def UsesLayer2 (cfg : AppConfig) : Prop :=
  cfg.crypto_enabled = true ∧ ∃ cp ∈ cfg.policies, cp.action = .encrypt_l2 ∧ key_nonzero cp = true

instance (cfg : AppConfig) : Decidable (UsesLayer2 cfg) := inferInstanceAs (Decidable (_ ∧ _))

/-- The configuration that an event starts the gateway with. -/
def Event.starts : Event → Option AppConfig
  | .init _ _ _ cfg => some cfg
  | .reload _ _ => none

def last_init (es : List Event) : Option AppConfig := (es.filterMap Event.starts).getLast?

theorem rebuild_policy_has_encrypt_l2 {o : Openssl} {tls : Tls} (he : tls.evp_ok = true)
    (old : PolicyTables) (s : Rebuild) (q : CryptoPolicy × Nat) :
    (rebuild_policy o tls old s q).has_encrypt_l2 =
      (s.has_encrypt_l2 || (wants_ctx q.1 && q.1.action == .encrypt_l2)) := by
  unfold rebuild_policy
  cases hw : wants_ctx q.1 with
  | false => simp
  | true =>
    rw [Bool.not_true, if_neg Bool.false_ne_true, Bool.true_and]
    split
    · rfl
    · simp only [packet_crypto_init, he, if_true]
      rfl

/-- The flag of a rebuild tells of a policy of layer 2 that got a context. -/
theorem rebuild_has_encrypt_l2 {o : Openssl} {tls : Tls} (he : tls.evp_ok = true) (cfg : AppConfig)
    (rt : Runtime) :
    (rebuild_crypto_runtime o tls cfg rt).2 = true ↔
      ∃ cp ∈ cfg.policies, cp.action = .encrypt_l2 ∧ key_nonzero cp = true := by
  have hfold : ∀ (qs : List (CryptoPolicy × Nat)) (s : Rebuild),
      (qs.foldl (rebuild_policy o tls rt.active) s).has_encrypt_l2 =
        (s.has_encrypt_l2 || qs.any fun q => wants_ctx q.1 && q.1.action == .encrypt_l2) := by
    intro qs
    induction qs with
    | nil =>
      intro s
      rw [List.foldl_nil, List.any_nil, Bool.or_false]
    | cons q qs ih =>
      intro s
      rw [List.foldl_cons, ih, rebuild_policy_has_encrypt_l2 he, List.any_cons, Bool.or_assoc]
  have hany : (rebuild_crypto_runtime o tls cfg rt).2 =
      cfg.policies.zipIdx.any fun q => wants_ctx q.1 && q.1.action == .encrypt_l2 := by
    show (cfg.policies.zipIdx.foldl (rebuild_policy o tls rt.active) _).has_encrypt_l2 = _
    rw [hfold, Bool.false_or]
  rw [hany, List.any_eq_true]
  constructor
  · rintro ⟨⟨cp, i⟩, hmem, hq⟩
    simp only [wants_ctx, Bool.and_eq_true, beq_iff_eq] at hq
    exact ⟨cp, List.mem_of_getElem? (List.mem_zipIdx_iff_getElem?.mp hmem), hq.2, hq.1.2⟩
  · rintro ⟨cp, hmem, hact, hkey⟩
    obtain ⟨i, hi⟩ := List.mem_iff_getElem?.mp hmem
    refine ⟨(cp, i), List.mem_zipIdx_iff_getElem?.mpr hi, ?_⟩
    simp [wants_ctx, hact, hkey]

/-- An init with crypto needs OpenSSL, and its rebuild sets the ethertype of layer 2. -/
theorem init_crypto_fake_ethertype {o : Openssl} {tls : Tls} {now : Nat} {cfg : AppConfig}
    {rt : Runtime} (h : (init_crypto o tls now cfg rt).1 = true) (hen : cfg.crypto_enabled = true) :
    tls.evp_ok = true ∧ ((∃ cp ∈ cfg.policies, cp.action = .encrypt_l2 ∧ key_nonzero cp = true) →
      (init_crypto o tls now cfg rt).2.fwd_cfg.fake_ethertype_ipv4 ≠ 0) := by
  unfold init_crypto at h ⊢
  rw [hen] at h ⊢
  simp only [Bool.not_true, Bool.false_eq_true, if_false] at h ⊢
  split at h
  · simp at h
  rename_i hsome
  have he : tls.evp_ok = true := by
    by_contra hno
    exact hsome (by simp [packet_crypto_init, hno])
  refine ⟨he, fun hl2 => ?_⟩
  rw [if_neg hsome, if_pos ((rebuild_has_encrypt_l2 he cfg _).mpr hl2)]
  dsimp only
  split
  · decide
  · assumption

/-- What an init that goes through writes to the map. -/
theorem step_init {o : Openssl} {s t : Gateway} {tls : Tls} {now : Nat}
    {addr : Nat → Option (UInt32 × Option UInt32)} {cfg : AppConfig}
    (h : step o s (.init tls now addr cfg) = some t) :
    (init_crypto o tls now cfg s.rt).1 = true ∧
      t.fake4 = wan_fake4 o tls cfg s.rt (init_crypto o tls now cfg s.rt).2 := by
  simp only [step] at h
  split at h
  swap
  · simp at h
  rename_i hok
  obtain rfl := Option.some.inj h
  unfold forwarder_init at hok ⊢
  dsimp only at hok ⊢
  split at hok
  · rename_i hinit
    rw [if_pos hinit]
    exact ⟨hinit, rfl⟩
  · rename_i hno
    exact absurd hok hno

/-- After an init the map tells whether the configuration uses layer 2. -/
theorem fake4_after_init {o : Openssl} {s t : Gateway} {tls : Tls} {now : Nat}
    {addr : Nat → Option (UInt32 × Option UInt32)} {cfg : AppConfig}
    (h : step o s (.init tls now addr cfg) = some t) : t.fake4 ≠ 0 ↔ UsesLayer2 cfg := by
  obtain ⟨hinit, hfake4⟩ := step_init h
  have hsettings := init_crypto_settings (show init_crypto o tls now cfg s.rt = (true, _) from
    Prod.ext hinit rfl)
  rw [hfake4]
  unfold wan_fake4 UsesLayer2
  dsimp only
  rw [hsettings.1]
  cases hen : cfg.crypto_enabled with
  | false => simp
  | true =>
    obtain ⟨he, hfake⟩ := init_crypto_fake_ethertype hinit hen
    rw [← rebuild_has_encrypt_l2 he cfg s.rt] at hfake ⊢
    rw [Bool.true_and]
    split
    · rename_i hl2
      exact iff_of_true (hfake hl2) ⟨rfl, hl2⟩
    · rename_i hno
      exact iff_of_false (not_not.mpr rfl) fun hl2 => hno hl2.2

/-- A hot reload leaves the map as it is. -/
theorem fake4_after_reload {o : Openssl} {s t : Gateway} {tls : Tls} {cfg : AppConfig}
    (h : step o s (.reload tls cfg) = some t) : t.fake4 = s.fake4 := by
  obtain ⟨rt, -, rfl⟩ := Option.map_eq_some_iff.mp h
  rfl

/-- So the map tells of the last init, whatever reloads came since. -/
theorem fake4_after_run {o : Openssl} {s t : Gateway} {es : List Event}
    (h : Run (fun s e t => step o s e = some t) s es t) {cfg : AppConfig}
    (hlast : last_init es = some cfg) : t.fake4 ≠ 0 ↔ UsesLayer2 cfg := by
  refine h.history (P := fun es t => ∀ cfg, last_init es = some cfg →
    (t.fake4 ≠ 0 ↔ UsesLayer2 cfg)) (by simp [last_init]) ?_ cfg hlast
  intro es t e u ih hstep cfg hlast
  unfold last_init at ih hlast
  rw [List.filterMap_append, List.getLast?_append] at hlast
  cases e with
  | init tls now addr cfg' =>
    obtain rfl : cfg' = cfg := by simpa [Event.starts] using hlast
    exact fake4_after_init hstep
  | reload tls cfg' =>
    rw [fake4_after_reload hstep]
    exact ih cfg (by simpa [Event.starts] using hlast)

/-- In every run of inits and hot reloads of one gateway, and for every packet that the LAN program
of another one redirects: the WAN program hands each frame that leaves for the packet to its socket,
but a frame of layer 2 only when the last init had a policy for it. -/
theorem the_wan_program_takes_layer_2_iff_the_last_init_used_it {o : Openssl} {s t : Gateway}
    {es : List Event} (h : Run (fun s e t => step o s e = some t) s es t) {cfg : AppConfig}
    (hlast : last_init es = some cfg) {e : LanEnv} (ho : e.o.Lawful) {job : PacketJob}
    (hxdp : xdp_redirect_prog true job.pkt job.pkt_len = .redirect) (hk : KnownMarks e)
    {f : Bytes} (hf : f ∈ (worker_packet e job).sent) (rest : Buf) (has_sock : Bool) :
    (xdp_wan_redirect_prog t.fake4 has_sock (write rest 0 f) f.length).1 =
      if be16 (write rest 0 f) 12 = ETH_P_IP ∨ UsesLayer2 cfg then
        if has_sock then .redirect else .drop
      else .pass := by
  rw [verdict_of_sent ho (redirected_of_xdp hxdp) hk hf rest t.fake4 has_sock]
  simp only [fake4_after_run h hlast]

/-! ## A reload to layer 2 -/

/-- Policy 7 with this action, behind one WAN interface. -/
def wanCfg (action : PolicyAction) : AppConfig :=
  { sampleCfg [samplePolicy 7 action] one_policy_le with
    wans := [{ ifname := [0x77, 0x61, 0x6e, 0x30] }]
    wans_le := one_interface_le }

def booted : Gateway := ⟨Runtime.boot, 0⟩

def started : Gateway :=
  (step sampleOpenssl booted (.init {} 1 (fun _ => none) (wanCfg .encrypt_l3))).getD booted

def reloaded : Gateway := (step sampleOpenssl started (.reload {} (wanCfg .encrypt_l2))).getD booted

theorem run_reloaded : Run (fun s e t => step sampleOpenssl s e = some t) booted
    [.init {} 1 (fun _ => none) (wanCfg .encrypt_l3), .reload {} (wanCfg .encrypt_l2)] reloaded :=
  ((Run.nil booted).snoc (rfl : step sampleOpenssl booted _ = some started)).snoc
    (rfl : step sampleOpenssl started _ = some reloaded)

/-- Another gateway after the same reload. -/
def reloadedEnv : LanEnv := { l3Env with rt := reloaded.rt }

theorem reloadedEnv_marks : KnownMarks reloadedEnv where
  fake _ := by decide +kernel
  proto := by decide
  nonce_size := by decide +kernel

/-- Of two gateways that started with layer 3 and were reloaded to layer 2 the WAN program of one
leaves to the kernel what the other one sends. -/
theorem a_frame_of_layer_2_is_lost_after_a_reload :
    reloaded.rt.fwd_cfg.policies = [samplePolicy 7 .encrypt_l2] ∧
    ∃ f, (worker_packet reloadedEnv (udpJob udpPing)).sent = [f] ∧
      (xdp_wan_redirect_prog reloaded.fake4 true (write (fun _ => 0) 0 f) f.length).1 = .pass := by
  have hone : (worker_packet reloadedEnv (udpJob udpPing)).sent.length = 1 := by decide +kernel
  obtain ⟨f, hf⟩ := List.length_eq_one_iff.mp hone
  have hmarked : (worker_packet reloadedEnv (udpJob udpPing)).sent.all
      (fun f => be16 (write (fun _ => 0) 0 f) 12 != ETH_P_IP) = true := by decide +kernel
  rw [hf, List.all_cons, Bool.and_eq_true, bne_iff_ne] at hmarked
  have hverdict := the_wan_program_takes_layer_2_iff_the_last_init_used_it run_reloaded
    (show last_init _ = some (wanCfg .encrypt_l3) from rfl) (e := reloadedEnv) sampleOpenssl_lawful
    (show xdp_redirect_prog true (udpJob udpPing).pkt (udpJob udpPing).pkt_len = .redirect by
      decide +kernel) reloadedEnv_marks (by rw [hf]; exact List.mem_singleton_self f) (fun _ => 0)
    true
  rw [if_neg (not_or.mpr ⟨hmarked.1, by decide⟩)] at hverdict
  exact ⟨rfl, f, hf, hverdict⟩

end ne_ip.wan_xdp
