-- Packets that the sender does not encrypt: whether a receive thread leaves them alone,
-- when they are told apart from encrypted ones by two of their bytes.
import NeIp.L4Wire
import NeIp.WanHistory

open runs byte_buf ne_ip.packet_crypto ne_ip.tunnel ne_ip.config ne_ip.crypto_layer2
open ne_ip.crypto_layer4
open ne_ip.crypto_dispatch ne_ip.db_runtime ne_ip.fragment ne_ip.forwarder ne_ip.wan_queue
open ne_ip.sample ne_ip.frag_delivery ne_ip.wan_history ne_ip.l4_wire

namespace ne_ip.bypass

/-! ## The receiver -/

/-- A peer whose L2 marker is the one of a merged configuration, or off. -/
structure Receiver (o : Openssl) (rt : Runtime) : Prop extends Peer o rt where
  fake : rt.fake_ethertype_ipv4 = 0 ∨ rt.fake_ethertype_ipv4 = 0x88b5

/-- The first init with a merged configuration that has policies makes a receiver. -/
theorem receiver_of_merged {o : Openssl} {tls : Tls} {now : Nat} {db : Db} {ids : List Int}
    {cfg : AppConfig} {rt : Runtime} (hcfg : build_merged_config db ids = some cfg)
    (hne : cfg.policies ≠ []) (h : init_crypto o tls now cfg Runtime.boot = (true, rt)) :
    Receiver o rt := by
  refine ⟨peer_of_merged (fun pi cp hpi => by simp [Runtime.boot] at hpi) hcfg hne h, ?_⟩
  obtain ⟨merged, -, rfl⟩ := build_merged_config_some hcfg
  have hfake : (merged_crypto merged).fake_ethertype_ipv4 = 0x88b5 := by
    rw [(merged_crypto_fields merged).2.1] at hne
    unfold merged_crypto
    split
    · rename_i hnil
      exact absurd hnil hne
    · rfl
  have hen := (build_merged_config_wireIds hcfg).2
  rw [← show (init_crypto o tls now (merged_crypto merged) Runtime.boot).2 = rt by rw [h]]
  unfold init_crypto
  rw [hen, List.isEmpty_eq_false_iff.mpr hne, hfake]
  simp only [Bool.not_false, Bool.not_true, Bool.false_eq_true, if_false]
  split
  · exact Or.inl rfl
  split
  · exact Or.inr rfl
  · exact Or.inl rfl

/-! ## What a plain packet may look like -/

/-- The packet goes on with the bytes and the length that it had. -/
def Untouched (r : Inbound) (pkt : Buf) (pkt_len : Nat) : Prop :=
  ∃ out, r = .packet out pkt_len ∧ ∀ i, i < pkt_len → out i = pkt i

/-- Behind the ports there is the header of an L4 policy, if one takes the bytes for one. -/
def HasHeader (magic : UInt8) (policies : List CryptoPolicy) (pkt : Buf) (pkt_len : Nat) : Prop :=
  ∃ q ∈ policies, q.action = .encrypt_l4 ∧ q.nonce_size ≠ 0 ∧
    plain_off_at pkt 14 + q.nonce_size + 1 < pkt_len ∧
    pkt (plain_off_at pkt 14 + q.nonce_size + 1) = magic ∧
    pkt (plain_off_at pkt 14 + q.nonce_size) = q.wire_id

/-- The packet looks like an encrypted one. -/
def LooksEncrypted (cfg : AppConfig) (pkt : Buf) (pkt_len : Nat) : Prop :=
  HasHeader CRYPTO_L4_TUNNEL_MAGIC cfg.policies pkt pkt_len

/-- The packet looks like a fragment: the tag is where the default nonce size puts it. -/
def LooksFragment (cfg : AppConfig) (pkt : Buf) (pkt_len : Nat) : Prop :=
  HasHeader CRYPTO_L4_FRAG_MAGIC cfg.policies pkt pkt_len ∧
    plain_off_at pkt 14 + cfg.nonce_size + 2 + FRAG_TAG_SIZE ≤ pkt_len ∧
    pkt (plain_off_at pkt 14 + cfg.nonce_size + 2 + 2) ≤ 1

instance (magic : UInt8) (policies : List CryptoPolicy) (pkt : Buf) (pkt_len : Nat) :
    Decidable (HasHeader magic policies pkt pkt_len) :=
  inferInstanceAs (Decidable (∃ q ∈ policies, _))

instance (cfg : AppConfig) (pkt : Buf) (pkt_len : Nat) :
    Decidable (LooksEncrypted cfg pkt pkt_len) :=
  inferInstanceAs (Decidable (HasHeader _ _ _ _))

instance (cfg : AppConfig) (pkt : Buf) (pkt_len : Nat) :
    Decidable (LooksFragment cfg pkt pkt_len) :=
  inferInstanceAs (Decidable (_ ∧ _ ∧ _))

theorem extract_eq_none_iff (cfg : AppConfig) {pkt : Buf} {pkt_len : Nat}
    (hp : L4Plain pkt pkt_len 14) :
    crypto_l4_extract_policy_id_ipv4 cfg pkt pkt_len = none ↔ ¬ LooksEncrypted cfg pkt pkt_len := by
  rw [extract_of_plain cfg hp, Option.map_eq_none_iff, List.find?_eq_none]
  unfold LooksEncrypted HasHeader
  simp only [fits_iff, not_exists, not_and]

theorem ipv4_of_plain {pkt : Buf} {pkt_len : Nat} (hp : L4Plain pkt pkt_len 14) :
    be16 pkt 12 = 0x0800 := by
  rcases crypto_eth_ipv4_offset_cases hp.offset with ⟨-, -, h⟩ | ⟨h, -⟩ | ⟨h, -⟩
  · exact h
  · omega
  · omega

theorem frag_is_fragment_l4_isSome_iff (tls : Tls) {cfg : AppConfig}
    (hns : tls.nonce_size = cfg.nonce_size) {pkt : Buf} {pkt_len : Nat}
    (hp : L4Plain pkt pkt_len 14) :
    (frag_is_fragment_l4 tls cfg pkt pkt_len).isSome = true ↔ LooksFragment cfg pkt pkt_len := by
  have h20 := hp.ihl
  have hfits := hp.fits
  have hproto : ¬ (pkt (14 + 9) ≠ 6 ∧ pkt (14 + 9) ≠ 17) := by
    rintro ⟨h6, h17⟩
    exact hp.proto.elim h6 h17
  have hoff : 14 + (pkt 14).toNat % 16 * 4 + L4_WIRE_PORT_LEN = plain_off_at pkt 14 := rfl
  have hihl : (pkt 14).toNat % 16 * 4 = ip_hdr_len_at pkt 14 := rfl
  have hH : packet_crypto_get_tunnel_hdr_size tls = cfg.nonce_size + 2 := by
    rw [← hns]
    rfl
  unfold frag_is_fragment_l4
  dsimp only
  rw [hoff, hihl, hH]
  by_cases hlen : pkt_len < plain_off_at pkt 14 + (cfg.nonce_size + 2) + FRAG_TAG_SIZE
  · rw [if_pos (by tauto)]
    refine ⟨fun h => absurd h nofun, fun h => absurd h.2.1 (by omega)⟩
  rw [if_neg (by
    simp only [hproto, ipv4_of_plain hp, ne_eq, not_true_eq_false, false_or]
    omega)]
  unfold fragment_of LooksFragment HasHeader
  have hone : ∀ q : CryptoPolicy, (q.action == .encrypt_l4 && q.nonce_size != 0 &&
      decide (plain_off_at pkt 14 + q.nonce_size + 1 < pkt_len) &&
      pkt (plain_off_at pkt 14 + q.nonce_size + 1) == CRYPTO_L4_FRAG_MAGIC &&
      pkt (plain_off_at pkt 14 + q.nonce_size) == q.wire_id) = true ↔
      (q.action = .encrypt_l4 ∧ q.nonce_size ≠ 0 ∧
        plain_off_at pkt 14 + q.nonce_size + 1 < pkt_len ∧
        pkt (plain_off_at pkt 14 + q.nonce_size + 1) = CRYPTO_L4_FRAG_MAGIC ∧
        pkt (plain_off_at pkt 14 + q.nonce_size) = q.wire_id) := by
    intro q
    simp only [Bool.and_eq_true, beq_iff_eq, bne_iff_ne, decide_eq_true_eq, and_assoc]
  split
  · rename_i hnone
    rw [List.find?_eq_none] at hnone
    refine ⟨fun h => absurd h nofun, ?_⟩
    rintro ⟨⟨q, hq, hhead⟩, -⟩
    exact absurd ((hone q).mpr hhead) (hnone q hq)
  · rename_i q hfind
    have hsome := List.find?_some hfind
    have hhead := (hone q).mp hsome
    have hq := List.mem_of_find?_eq_some hfind
    dsimp only [read_frag_tag]
    split
    · rename_i hidx
      exact ⟨fun _ => ⟨⟨q, hq, hhead⟩, by omega, hidx⟩, fun _ => rfl⟩
    · rename_i hidx
      exact ⟨fun h => absurd h nofun, fun h => absurd h.2.2 hidx⟩

/-! ## The steps of the receiver -/

variable {e : WanEnv} {w : WanThread} {pkt : Buf} {pkt_len : Nat}

theorem not_fake_proto (hp : L4Plain pkt pkt_len 14) : pkt (14 + 9) ≠ 99 := by
  rcases hp.proto with h | h
  · rw [h]
    decide
  · rw [h]
    decide

theorem extract_l3_of_plain (magic : UInt8) {tls : Tls} (hfake : tls.fake_protocol = 99)
    (cfg : AppConfig) (hp : L4Plain pkt pkt_len 14) :
    crypto_l3_extract_policy_id magic tls cfg pkt pkt_len = none := by
  have hne := not_fake_proto hp
  unfold crypto_l3_extract_policy_id
  dsimp only
  rw [hfake]
  exact if_pos (by simp [hne])

/-- The thread takes over the defaults, whose nonce size is that of the first policy. -/
theorem apply_inbound_params_of_plain (hrt : Receiver e.o e.rt) (hne : e.rt.fwd_cfg.policies ≠ [])
    (hw : w.tls.fake_protocol = 99) (hp : L4Plain pkt pkt_len 14) :
    (apply_inbound_params e w.tls pkt pkt_len).nonce_size = e.rt.fwd_cfg.nonce_size ∧
      (apply_inbound_params e w.tls pkt pkt_len).fake_protocol = 99 := by
  unfold apply_inbound_params
  rw [hrt.enabled, hrt.layer, List.isEmpty_eq_false_iff.mpr hne,
    extract_l3_of_plain e.magic hw _ hp]
  refine ⟨rfl, ?_⟩
  show (crypto_apply_default_from_cfg e.rt.fwd_cfg w.tls).fake_protocol = 99
  unfold crypto_apply_default_from_cfg
  dsimp only
  rw [if_pos hrt.encrypt_layer, hrt.fake_protocol]

theorem no_l2_marker (hrt : Receiver e.o e.rt) (hp : L4Plain pkt pkt_len 14) :
    l2_has_fake_marker e.rt.fake_ethertype_ipv4 pkt = false := by
  have h12 := ipv4_of_plain hp
  unfold l2_has_fake_marker
  rcases hrt.fake with h | h
  · rw [h]
    rfl
  · rw [h]
    have hne : pkt 12 ≠ 0x88 := by
      intro h88
      unfold be16 at h12
      rw [h88] at h12
      have := (pkt 13).toNat_lt
      have h88' : (0x88 : UInt8).toNat = 0x88 := rfl
      omega
    simpa using hne

/-- Layer 3 sees a packet without its marker, and lets it go on. -/
theorem receive_l3_of_plain (hrt : Receiver e.o e.rt) (hne : e.rt.fwd_cfg.policies ≠ [])
    (hw : w.tls.fake_protocol = 99) (hp : L4Plain pkt pkt_len 14) :
    receive_l3 e w pkt pkt_len = (.packet pkt pkt_len, w) := by
  have hfrag : frag_is_fragment w.tls e.rt.fwd_cfg pkt pkt_len = none := by
    unfold frag_is_fragment
    split
    · rfl
    · dsimp only
      rw [hw, if_pos (Or.inl (not_fake_proto hp))]
  unfold receive_l3
  rw [hfrag]
  dsimp only
  unfold decrypt_packet_auto_by_action crypto_decrypt_packet_auto_by_action
  rw [hrt.enabled, if_neg (by decide), if_neg hne, extract_l3_of_plain e.magic hw _ hp]
  rfl

/-- What looks like a fragment is dropped: the policy is looked for by the magic of packets,
and where it is found there is no fragment. -/
theorem receive_l4_of_fragment (hne : e.rt.fwd_cfg.policies ≠ []) (hp : L4Plain pkt pkt_len 14)
    (hfrag : (frag_is_fragment_l4 w.tls e.rt.fwd_cfg pkt pkt_len).isSome = true) :
    (receive_l4 e w pkt pkt_len).1 = .dropped := by
  obtain ⟨tag, htag⟩ := Option.isSome_iff_exists.mp hfrag
  unfold receive_l4 receive_fragment forwarder_resolve_l4_decrypt_ctx
  rw [htag, if_neg hne]
  dsimp only
  cases hex : crypto_l4_extract_policy_id_ipv4 e.rt.fwd_cfg pkt pkt_len with
  | none => rfl
  | some found =>
    obtain ⟨policy_id, nonce_size⟩ := found
    dsimp only
    cases hres : resolve_policy e.rt e.now_ms .encrypt_l4 policy_id
        (fun cp => cp.nonce_size != 0 && cp.nonce_size == nonce_size) w.tls with
    | none => rfl
    | some r =>
      obtain ⟨ctx, tls⟩ := r
      obtain ⟨cp, hcp, rfl⟩ := resolve_policy_accepts hres
      have hns : cp.nonce_size = nonce_size := by
        rw [Bool.and_eq_true_iff, beq_iff_eq] at hcp
        exact hcp.2
      -- the byte that the parser took for the magic of packets
      rw [extract_of_plain _ hp] at hex
      obtain ⟨q, hq, hqp⟩ := Option.map_eq_some_iff.mp hex
      have hmagic := (fits_iff.mp (List.find?_some hq)).2.2.2.1
      rw [(Prod.mk.inj hqp).2] at hmagic
      have htype : pkt (14 + ip_hdr_len_at pkt 14 + L4_WIRE_PORT_LEN +
          (crypto_apply_from_policy cp w.tls).nonce_size + 1) ≠ CRYPTO_L4_FRAG_MAGIC := by
        show pkt (plain_off_at pkt 14 + cp.nonce_size + 1) ≠ CRYPTO_L4_FRAG_MAGIC
        rw [hns, hmagic]
        decide
      have hdec : crypto_layer4_decrypt_fragment e.o (crypto_apply_from_policy cp w.tls) ctx pkt
          pkt_len = (none, pkt) := by
        unfold crypto_layer4_decrypt_fragment
        split
        · rfl
        rw [hp.offset]
        dsimp only
        rw [if_pos (by tauto)]
      dsimp only
      rw [hdec]

/-- A dispatch that goes through makes a packet shorter. -/
theorem try_current_then_prev_shorter (decrypt : Decrypt) (dctx : CryptoDispatchCtx)
    (action_layer : PolicyAction) (policy_id : UInt8) (accepts : CryptoPolicy → Bool) (tls : Tls)
    (pkt : Buf) (pkt_len : Nat)
    (h : (try_current_then_prev decrypt dctx action_layer policy_id accepts tls pkt pkt_len).ok =
      true) :
    (try_current_then_prev decrypt dctx action_layer policy_id accepts tls pkt pkt_len).pkt_len <
      pkt_len := by
  have htables : ∀ t tls pkt,
      ((try_tables decrypt t action_layer policy_id accepts tls pkt pkt_len).ok = false ∧
        (try_tables decrypt t action_layer policy_id accepts tls pkt pkt_len).pkt_len = pkt_len) ∨
      ((try_tables decrypt t action_layer policy_id accepts tls pkt pkt_len).ok = true ∧
        (try_tables decrypt t action_layer policy_id accepts tls pkt pkt_len).pkt_len < pkt_len) := by
    intro t tls pkt
    unfold try_tables
    split
    · exact Or.inl ⟨rfl, rfl⟩
    split
    · exact Or.inl ⟨rfl, rfl⟩
    split
    · unfold try_policy
      dsimp only
      split
      · exact Or.inl ⟨rfl, rfl⟩
      split
      · rename_i hlt
        exact Or.inr ⟨rfl, hlt⟩
      · exact Or.inl ⟨rfl, rfl⟩
    · exact Or.inl ⟨rfl, rfl⟩
  unfold try_current_then_prev at h ⊢
  dsimp only at h ⊢
  rcases htables dctx.active tls pkt with ⟨hfail, hlen⟩ | ⟨hok, hlt⟩
  · rw [hfail, hlen] at h ⊢
    simp only [Bool.false_eq_true, if_false] at h ⊢
    split at h
    · rename_i hgrace
      rw [if_pos hgrace]
      rcases htables dctx.prev _ _ with ⟨hfail', -⟩ | ⟨-, hlt⟩
      · rw [hfail'] at h
        exact absurd h nofun
      · exact hlt
    · rw [hfail] at h
      exact absurd h nofun
  · rw [if_pos hok]
    exact hlt

/-- What is not taken for a fragment goes on as it is, or it is taken for an encrypted packet
and dropped or made shorter. -/
theorem receive_l4_of_plain (hrt : Receiver e.o e.rt) (hne : e.rt.fwd_cfg.policies ≠ [])
    (hp : L4Plain pkt pkt_len 14)
    (hfrag : frag_is_fragment_l4 w.tls e.rt.fwd_cfg pkt pkt_len = none) :
    (¬ LooksEncrypted e.rt.fwd_cfg pkt pkt_len ∧
      receive_l4 e w pkt pkt_len = (.packet pkt pkt_len, w)) ∨
    (LooksEncrypted e.rt.fwd_cfg pkt pkt_len ∧ ((receive_l4 e w pkt pkt_len).1 = .dropped ∨
      ∃ out n, (receive_l4 e w pkt pkt_len).1 = .packet out n ∧ n < pkt_len)) := by
  have hiff := extract_eq_none_iff e.rt.fwd_cfg hp
  unfold receive_l4
  rw [hfrag]
  dsimp only
  unfold decrypt_packet_auto_by_action crypto_decrypt_packet_auto_by_action
  rw [hrt.enabled, if_neg (by decide), if_neg hne]
  dsimp only
  cases hex : crypto_l4_extract_policy_id_ipv4 e.rt.fwd_cfg pkt pkt_len with
  | none => exact Or.inl ⟨hiff.mp hex, rfl⟩
  | some found =>
    refine Or.inr ⟨Classical.byContradiction fun hno => ?_, ?_⟩
    · rw [hiff.mpr hno] at hex
      exact absurd hex nofun
    dsimp only
    have hshort := try_current_then_prev_shorter (crypto_layer4_decrypt e.o)
      (dispatch_ctx e.rt e.now_ms) .encrypt_l4 found.1
      (fun cp => cp.nonce_size != 0 && cp.nonce_size == found.2) w.tls pkt pkt_len
    unfold inbound_of
    split
    · rename_i hok
      exact Or.inr ⟨_, _, rfl, hshort hok⟩
    · exact Or.inl rfl

/-- A receive thread, whatever it has handled before, leaves a plain packet alone exactly when
the packet has no header of an L4 policy and no fragment header with a valid index. -/
theorem a_plain_packet_goes_through_iff_it_does_not_look_encrypted {e : WanEnv}
    (hrt : Receiver e.o e.rt) (hl4 : ∃ q ∈ e.rt.fwd_cfg.policies, q.action = .encrypt_l4)
    {start w : WanThread} (hs : start.tls.fake_protocol = 99) {history : List Arrival}
    (h : Run Handles start history w) {pkt : Buf} {pkt_len : Nat} (hp : L4Plain pkt pkt_len 14) :
    Untouched (inbound_l3l4 e w pkt pkt_len).1 pkt pkt_len ↔
      ¬ LooksEncrypted e.rt.fwd_cfg pkt pkt_len ∧ ¬ LooksFragment e.rt.fwd_cfg pkt pkt_len := by
  have hw := fake_protocol_after h hs
  have hne : e.rt.fwd_cfg.policies ≠ [] := by
    obtain ⟨q, hq, -⟩ := hl4
    exact List.ne_nil_of_mem hq
  obtain ⟨hns, hfake⟩ := apply_inbound_params_of_plain hrt hne hw hp
  let w' : WanThread := { w with tls := apply_inbound_params e w.tls pkt pkt_len }
  have hin : (inbound_l3l4 e w pkt pkt_len).1 = (receive_l4 e w' pkt pkt_len).1 := by
    unfold inbound_l3l4
    dsimp only
    rw [no_l2_marker hrt hp]
    simp only [Bool.false_eq_true, if_false, hrt.enabled, Bool.not_true]
    rw [receive_l3_of_plain (w := w') hrt hne hfake hp]
  have hiff := frag_is_fragment_l4_isSome_iff w'.tls hns hp
  rw [hin]
  cases hfrag : frag_is_fragment_l4 w'.tls e.rt.fwd_cfg pkt pkt_len with
  | some tag =>
    have hsome : (frag_is_fragment_l4 w'.tls e.rt.fwd_cfg pkt pkt_len).isSome = true := by
      rw [hfrag]
      rfl
    rw [receive_l4_of_fragment hne hp hsome]
    refine ⟨?_, fun hno => absurd (hiff.mp hsome) hno.2⟩
    rintro ⟨out, hout, -⟩
    exact absurd hout nofun
  | none =>
    have hnofrag : ¬ LooksFragment e.rt.fwd_cfg pkt pkt_len := by
      intro hyes
      rw [← hiff, hfrag] at hyes
      exact absurd hyes nofun
    rcases receive_l4_of_plain hrt hne hp hfrag with ⟨hno, hr⟩ | ⟨hyes, hr⟩
    · rw [hr]
      exact ⟨fun _ => ⟨hno, hnofrag⟩, fun _ => ⟨pkt, rfl, fun _ _ => rfl⟩⟩
    · refine ⟨?_, fun hno => absurd hyes hno.1⟩
      rintro ⟨out, hout, -⟩
      rcases hr with hr | ⟨out', n, hr, hlt⟩
      · rw [hr] at hout
        exact absurd hout nofun
      · rw [hr] at hout
        have hn := (Inbound.packet.inj hout).2
        omega

/-! ## A checksum that is taken for a header -/

theorem sampleEnv_receiver (magic : UInt8) :
    Receiver (sampleEnv magic .encrypt_l4).o (sampleEnv magic .encrypt_l4).rt :=
  ⟨sampleEnv_peer magic .encrypt_l4, Or.inl rfl⟩

theorem tcpPing_plain (cksum : Bytes) :
    L4Plain (write (ofBytes tcpPing) 50 cksum) 58 14 := by
  have hhead : ∀ i, i < 50 → write (ofBytes tcpPing) 50 cksum i = ofBytes tcpPing i :=
    fun i hi => write_out _ _ _ _ (by omega)
  have hihl : ip_hdr_len_at (write (ofBytes tcpPing) 50 cksum) 14 = 20 := by
    unfold ip_hdr_len_at
    rw [hhead 14 (by omega)]
    rfl
  refine ⟨?_, Or.inl (hhead 23 (by omega)), by rw [hihl], by rw [hihl]; omega⟩
  unfold crypto_eth_ipv4_offset
  rw [if_neg (by omega), if_pos]
  exact be16_congr (hhead 12 (by omega)) (hhead 13 (by omega))

theorem a_segment_with_another_checksum_goes_through :
    Untouched (inbound_l3l4 (sampleEnv 17 .encrypt_l4) freshThread
      (write (ofBytes tcpPing) 50 [7, 0xa4]) 58).1 (write (ofBytes tcpPing) 50 [7, 0xa4]) 58 :=
  (a_plain_packet_goes_through_iff_it_does_not_look_encrypted (sampleEnv_receiver 17)
    ⟨samplePolicy 7 .encrypt_l4, List.mem_singleton.mpr rfl, rfl⟩ rfl (Run.nil freshThread)
    (tcpPing_plain _)).mpr ⟨by decide, by decide⟩

/-- With nonces of 12 bytes the checksum of a TCP segment stands where the id and the magic of
policy 7 would be. -/
theorem a_segment_with_checksum_07a5_is_dropped :
    (inbound_l3l4 (sampleEnv 17 .encrypt_l4) freshThread (write (ofBytes tcpPing) 50 [7, 0xa5])
      58).1 = .dropped := by
  rfl

end ne_ip.bypass
