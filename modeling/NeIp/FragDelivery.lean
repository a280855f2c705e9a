-- The laws of fragment delivery: whether the two frames of a split packet get
-- through the receive thread of a peer with the same policies.
import NeIp.L3Wire
import NeIp.StaleKey
import NeIp.WanQueue

open byte_buf ne_ip.packet_crypto ne_ip.tunnel ne_ip.config ne_ip.crypto_layer3
open ne_ip.crypto_layer2 ne_ip.crypto_layer4 ne_ip.crypto_dispatch ne_ip.db_runtime ne_ip.fragment
open ne_ip.forwarder
open ne_ip.wan_queue ne_ip.sample ne_ip.l3_wire ne_ip.key_loop ne_ip.stale_key

namespace ne_ip.frag_delivery

/-! ## The peer -/

/-- A runtime with crypto on, whose tables belong to the policies of its configuration. The
settings are those that a merged configuration has. -/
structure Peer (o : Openssl) (rt : Runtime) : Prop where
  enabled : rt.crypto_enabled = true
  layer : rt.crypto_layer = 3
  encrypt_layer : rt.fwd_cfg.encrypt_layer = 3
  fake_protocol : rt.fwd_cfg.fake_protocol = 99
  nonce_size : ∀ cp, rt.fwd_cfg.policies.head? = some cp →
    rt.fwd_cfg.nonce_size = cp.nonce_size
  tables : TablesOf o rt.fwd_cfg.policies { rt.active with policies := rt.fwd_cfg.policies }
  indexed : Indexed rt.fwd_cfg.policies rt.active.ready rt.active.index_by_action_id
  distinct : DistinctWireIds rt.fwd_cfg.policies

/-- An init makes a peer of a configuration with these settings. -/
theorem peer_of_init {o : Openssl} {tls : Tls} {now : Nat} {cfg : AppConfig} {rt rt' : Runtime}
    (hold : CtxsOf o rt.active.policies rt.active.ctx rt.active.ready)
    (h : init_crypto o tls now cfg rt = (true, rt')) (hen : cfg.crypto_enabled = true)
    (hlayer : cfg.encrypt_layer = 3) (hfake : cfg.fake_protocol = 99)
    (hns : ∀ cp, cfg.policies.head? = some cp → cfg.nonce_size = cp.nonce_size)
    (hd : DistinctWireIds cfg.policies) : Peer o rt' := by
  obtain ⟨h1, h2, h3, h4, h5⟩ := init_crypto_settings h
  obtain ⟨hpol, hact, -, -⟩ := init_crypto_some h hen
  have htab : TablesOf o cfg.policies
      (rebuild_crypto_runtime o tls cfg { rt with nonce_counter := 0 }).1.active :=
    rebuild_crypto_runtime_tablesOf tls cfg hold
  have hidx := rebuild_loop_indexed o tls rt.active 0 cfg.policies
  refine ⟨h1.trans hen, h2.trans hlayer, h3.trans hlayer, h4.trans hfake, ?_, ?_, ?_, ?_⟩
  · rw [h5, hpol]
    exact hns
  · rw [hpol, hact]
    exact htab
  · rw [hpol, hact]
    exact hidx
  · rw [hpol]
    exact hd

/-- So does the init with a merged configuration that has policies. -/
theorem peer_of_merged {o : Openssl} {tls : Tls} {now : Nat} {db : Db} {ids : List Int}
    {cfg : AppConfig} {rt rt' : Runtime}
    (hold : CtxsOf o rt.active.policies rt.active.ctx rt.active.ready)
    (hcfg : build_merged_config db ids = some cfg) (hne : cfg.policies ≠ [])
    (h : init_crypto o tls now cfg rt = (true, rt')) : Peer o rt' := by
  obtain ⟨hd, hen⟩ := build_merged_config_wireIds hcfg
  obtain ⟨merged, -, rfl⟩ := build_merged_config_some hcfg
  have hfields : (merged_crypto merged).encrypt_layer = 3 ∧
      (merged_crypto merged).fake_protocol = 99 ∧
      ∀ cp, (merged_crypto merged).policies.head? = some cp →
        (merged_crypto merged).nonce_size = cp.nonce_size := by
    rw [(merged_crypto_fields merged).2.1] at hne ⊢
    unfold merged_crypto
    split
    · rename_i hnil
      exact absurd hnil hne
    · rename_i cp rest hcons
      refine ⟨rfl, rfl, ?_⟩
      intro cp' hhead
      rw [hcons, List.head?_cons] at hhead
      obtain rfl := Option.some.inj hhead
      rfl
  refine peer_of_init hold h ?_ hfields.1 hfields.2.1 hfields.2.2 hd
  rw [hen, List.isEmpty_eq_false_iff.mpr hne]
  rfl

/-- A ready policy is resolved by its action and id. -/
theorem Peer.resolve {o : Openssl} {rt : Runtime} (h : Peer o rt) {pi : Nat} {p : CryptoPolicy}
    (hp : rt.fwd_cfg.policies[pi]? = some p) (hready : rt.active.ready pi = true)
    (accepts : CryptoPolicy → Bool) (ha : accepts p = true) (now : Nat) (tls : Tls) :
    resolve_policy rt now p.action p.wire_id accepts tls =
      some (rt.active.ctx pi, crypto_apply_from_policy p tls) := by
  obtain ⟨pj, hidx⟩ := h.indexed pi p hp hready
  obtain ⟨q, hq, -, hid⟩ := h.tables.index_eq _ _ _ hidx
  obtain rfl := h.distinct.index_eq hq hp hid
  unfold resolve_policy resolve_in dispatch_ctx
  simp only [hidx, hp, hready, ha, Bool.and_self, if_true]

/-! ## What a fragment is to the receiver -/

/-- The header length that the receiver reads. -/
theorem l3Fragment_require {packet out : Buf} {pkt_len ihl n : Nat}
    (hs : Splittable packet pkt_len ihl) (hh : SameHeaders packet out ihl) (hn : 14 + ihl ≤ n) :
    frag_require_ipv4 out n = some ihl := by
  have hE : ETH_HEADER_SIZE = 14 := rfl
  have hP : IPV4_PROTO_OFF = 23 := rfl
  have h20 := hs.ihl_ge
  refine frag_require_ipv4_eq ?_ ?_ h20 hn
  · rw [be16_congr (hh 12 (by omega) (by omega) (by omega) (by omega))
      (hh 13 (by omega) (by omega) (by omega) (by omega))]
    exact hs.ipv4
  · rw [hh 14 (by omega) (by omega) (by omega) (by omega)]
    exact hs.ihl_eq

/-- The parser of whole packets finds the policy of a layer 3 fragment when the magic of
packets is the magic of fragments. -/
theorem extract_of_fragment {o : Openssl} (magic : UInt8) {cfg : AppConfig}
    (hd : DistinctWireIds cfg.policies) {p : CryptoPolicy} (hp : p ∈ cfg.policies)
    (hl3 : p.action = .encrypt_l3) (hsame : ∀ q ∈ cfg.policies, q.nonce_size = p.nonce_size)
    (h4 : 4 ≤ p.nonce_size) {tls : Tls} {ctx : PacketCryptoCtx} {counter : Nat}
    {packet : Buf} {pkt_len ihl : Nat} {plain : Bytes} {id : Nat} {idx : UInt8} {f : Buf × Nat}
    (hs : Splittable packet pkt_len ihl)
    (hf : L3Fragment o (crypto_apply_from_policy p tls) ctx counter packet ihl plain id idx f.1 f.2)
    (rtls : Tls) :
    crypto_l3_extract_policy_id magic rtls cfg f.1 f.2 =
      if markerOf rtls = (crypto_apply_from_policy p tls).fake_protocol ∧
          14 + ihl + rtls.nonce_size + 2 ≤ f.2 then
        (if magic = CRYPTO_L3_FRAG_MAGIC then some p else none).map (·.wire_id)
      else none := by
  have hE : ETH_HEADER_SIZE = 14 := rfl
  have hP : IPV4_PROTO_OFF = 23 := rfl
  have hN : (crypto_apply_from_policy p tls).nonce_size = p.nonce_size := rfl
  have hlen := hf.tagged.len
  have h20 := hs.ihl_ge
  have hmarked : Marked (crypto_apply_from_policy p tls) f.1 ihl := by
    refine ⟨?_, ?_, h20, hf.marker⟩
    · rw [be16_congr (hf.headers 12 (by omega) (by omega) (by omega) (by omega))
        (hf.headers 13 (by omega) (by omega) (by omega) (by omega))]
      exact hs.ipv4
    · unfold ip_hdr_len_at
      rw [hf.headers 14 (by omega) (by omega) (by omega) (by omega)]
      exact hs.ihl_eq
  have hfind : cfg.policies.find? (fits magic f.1 f.2 (14 + ihl)) =
      if magic = CRYPTO_L3_FRAG_MAGIC then some p else none :=
    find_fits_eq hd hp hl3 (fun q hq _ => hsame q hq) (by omega) (by omega)
      hf.tagged.tunnelled.policy_id hf.tagged.tunnelled.type_byte
  rw [crypto_l3_extract_policy_id_eq magic rtls cfg hmarked (by omega), hfind]

theorem l4Fragment_ipv4 {o : Openssl} {tls : Tls} {ctx : PacketCryptoCtx} {counter : Nat}
    {packet : Buf} {pkt_len ihl : Nat} {plain : Bytes} {id : Nat} {idx : UInt8} {out : Buf} {n : Nat}
    (hs : Splittable packet pkt_len ihl)
    (hf : L4Fragment o tls ctx counter packet ihl plain id idx out n) : be16 out 12 = 0x0800 := by
  rw [be16_congr (hf.headers 12 (by omega) (by omega) (by omega))
    (hf.headers 13 (by omega) (by omega) (by omega))]
  exact hs.ipv4

/-- The parser of layer 4 wants the type byte of whole packets, and finds no policy. -/
theorem extract_l4_of_fragment {o : Openssl} {cfg : AppConfig} {p : CryptoPolicy}
    (hsame : ∀ q ∈ cfg.policies, q.nonce_size = p.nonce_size)
    {tls : Tls} {ctx : PacketCryptoCtx} {counter : Nat}
    {packet : Buf} {pkt_len ihl : Nat} {plain : Bytes} {id : Nat} {idx : UInt8} {f : Buf × Nat}
    (hs : Splittable packet pkt_len ihl)
    (hf : L4Fragment o (crypto_apply_from_policy p tls) ctx counter packet ihl plain id idx f.1 f.2) :
    crypto_l4_extract_policy_id_ipv4 cfg f.1 f.2 = none := by
  have h20 := hs.ihl_ge
  have hlen := hf.tagged.len
  have hN : (crypto_apply_from_policy p tls).nonce_size = p.nonce_size := rfl
  have h12 := l4Fragment_ipv4 hs hf
  have hihl : ip_hdr_len_at f.1 14 = ihl := by
    unfold ip_hdr_len_at
    rw [hf.headers 14 (by omega) (by omega) (by omega)]
    exact hs.ihl_eq
  unfold crypto_l4_extract_policy_id_ipv4 crypto_eth_ipv4_offset
  rw [if_neg (by omega), if_pos h12]
  simp only [hihl]
  split
  · rfl
  rw [Option.map_eq_none_iff, List.find?_eq_none]
  intro q hq hfq
  simp only [Bool.and_eq_true, beq_iff_eq] at hfq
  have htype := hfq.1.2
  rw [hsame q hq, ← hN, hf.tagged.tunnelled.type_byte] at htype
  exact absurd htype (by decide)

/-! ## The settings of the receiving thread -/

/-- Whatever the thread handled before, it is ready for a fragment of a policy. -/
theorem apply_inbound_params_of_fragment {e : WanEnv} (hpeer : Peer e.o e.rt) {pi : Nat}
    {p : CryptoPolicy} (hp : e.rt.fwd_cfg.policies[pi]? = some p)
    (hready : e.rt.active.ready pi = true) (hl3 : p.action = .encrypt_l3)
    (hsame : ∀ q ∈ e.rt.fwd_cfg.policies, q.nonce_size = p.nonce_size) (h4 : 4 ≤ p.nonce_size)
    {tls : Tls} (hfake : (crypto_apply_from_policy p tls).fake_protocol = 99)
    {ctx : PacketCryptoCtx} {counter : Nat} {packet : Buf} {pkt_len ihl : Nat} {plain : Bytes}
    {id : Nat} {idx : UInt8} {f : Buf × Nat} (hs : Splittable packet pkt_len ihl)
    (hf : L3Fragment e.o (crypto_apply_from_policy p tls) ctx counter packet ihl plain id idx f.1 f.2)
    (rtls : Tls) :
    (apply_inbound_params e rtls f.1 f.2).nonce_size = p.nonce_size ∧
      (apply_inbound_params e rtls f.1 f.2).fake_protocol = 99 ∧
      (apply_inbound_params e rtls f.1 f.2).evp_ok = rtls.evp_ok := by
  have hmem := List.mem_of_getElem? hp
  have hhead : ∃ cp, e.rt.fwd_cfg.policies.head? = some cp := by
    cases hpol : e.rt.fwd_cfg.policies with
    | nil => simp [hpol] at hmem
    | cons cp rest => exact ⟨cp, rfl⟩
  obtain ⟨cp, hcp⟩ := hhead
  have hdefault : (crypto_apply_default_from_cfg e.rt.fwd_cfg rtls).nonce_size = p.nonce_size ∧
      (crypto_apply_default_from_cfg e.rt.fwd_cfg rtls).fake_protocol = 99 ∧
      (crypto_apply_default_from_cfg e.rt.fwd_cfg rtls).evp_ok = rtls.evp_ok := by
    unfold crypto_apply_default_from_cfg
    dsimp only
    rw [hpeer.encrypt_layer, if_pos rfl, hpeer.fake_protocol, hpeer.nonce_size cp hcp,
      hsame cp (List.mem_of_mem_head? hcp)]
    exact ⟨rfl, rfl, rfl⟩
  unfold apply_inbound_params
  rw [hpeer.enabled, hpeer.layer, List.isEmpty_eq_false_iff.mpr (List.ne_nil_of_mem hmem),
    extract_of_fragment e.magic hpeer.distinct hmem hl3 hsame h4 hs hf rtls, hfake]
  by_cases hm : markerOf rtls = 99 ∧ 14 + ihl + rtls.nonce_size + 2 ≤ f.2
  · rw [if_pos hm]
    by_cases hmagic : e.magic = CRYPTO_L3_FRAG_MAGIC
    · have hres := hpeer.resolve hp hready (fun _ => true) rfl e.now_ms rtls
      rw [hl3] at hres
      rw [if_pos hmagic, Option.map_some, Option.bind_some, hres]
      refine ⟨rfl, ?_, rfl⟩
      rw [← hm.1]
      unfold crypto_apply_from_policy markerOf
      simp only [hl3, true_and]
      rfl
    · rw [if_neg hmagic]
      exact hdefault
  · rw [if_neg hm]
    exact hdefault

/-- The settings with which the thread decrypts a fragment of a policy. -/
def opening (e : WanEnv) (p : CryptoPolicy) (rtls : Tls) (f : Buf × Nat) : Tls :=
  crypto_apply_from_policy p (apply_inbound_params e rtls f.1 f.2)

theorem opening_gcm_dec (e : WanEnv) (p : CryptoPolicy) (rtls : Tls) (f : Buf × Nat) :
    (opening e p rtls f).gcm_dec = rtls.gcm_dec := by
  show (apply_inbound_params e rtls f.1 f.2).gcm_dec = rtls.gcm_dec
  unfold apply_inbound_params
  split
  swap
  · rfl
  generalize crypto_l3_extract_policy_id e.magic rtls e.rt.fwd_cfg f.1 f.2 = policy_id
  cases policy_id with
  | none => rfl
  | some policy_id =>
    dsimp only [Option.bind_some]
    cases h : resolve_policy e.rt e.now_ms .encrypt_l3 policy_id (fun _ => true) rtls with
    | none => rfl
    | some r =>
      obtain ⟨ctx, tls⟩ := r
      obtain ⟨cp, -, rfl⟩ := resolve_policy_accepts h
      rfl

/-- The thread runs AES, for a fragment of a policy, under the key that the sender's thread sealed
it under. -/
def HasKey (e : WanEnv) (pi : Nat) (p : CryptoPolicy) (stls rtls : Tls) (f : Buf × Nat) : Prop :=
  SameKey (crypto_apply_from_policy p stls) (init_ctx e.o p.aes_bits p.key.toList)
    (opening e p rtls f) (e.rt.active.ctx pi)

/-- It does so when both threads find the key in place. -/
theorem hasKey_of_in_place {e : WanEnv} (hpeer : Peer e.o e.rt) {pi : Nat} {p : CryptoPolicy}
    (hp : e.rt.fwd_cfg.policies[pi]? = some p) (hready : e.rt.active.ready pi = true)
    {stls rtls : Tls} (f : Buf × Nat)
    (hs : EncInPlace (crypto_apply_from_policy p stls) (init_ctx e.o p.aes_bits p.key.toList))
    (hr : DecInPlace (crypto_apply_from_policy p rtls) (init_ctx e.o p.aes_bits p.key.toList)) :
    HasKey e pi p stls rtls f := by
  have hctx := hpeer.tables.ctx_eq pi p hp hready
  refine SameAes.sameKey ⟨rfl, rfl⟩ (by rw [show e.rt.active.ctx pi = _ from hctx]) hs ?_
  rw [show e.rt.active.ctx pi = _ from hctx]
  unfold DecInPlace dec_side at hr ⊢
  rw [opening_gcm_dec]
  exact hr

/-! ## The receive step -/

/-- The functions of a layer that its fragments pass through. -/
structure FragLayer where
  split : Openssl → Tls → PacketCryptoCtx → Nat → Nat → Buf → Nat → Buf → Buf → SplitResult
  is_fragment : Tls → AppConfig → Buf → Nat → Option (Nat × UInt8)
  resolve : WanEnv → Tls → Buf → Nat → Option (PacketCryptoCtx × Tls)
  decrypt_fragment : Openssl → Tls → PacketCryptoCtx → Buf → Nat →
    Option (Nat × Nat × UInt8) × Buf
  receive : WanEnv → WanThread → Buf → Nat → Inbound × WanThread

def layer3 : FragLayer where
  split := frag_split_and_encrypt
  is_fragment := frag_is_fragment
  resolve e tls := forwarder_resolve_l3_decrypt_ctx e.magic e.rt e.now_ms tls
  decrypt_fragment := crypto_layer3_decrypt_fragment
  receive := receive_l3

def layer4 : FragLayer where
  split := frag_split_and_encrypt_l4
  is_fragment := frag_is_fragment_l4
  resolve e tls := forwarder_resolve_l4_decrypt_ctx e.rt e.now_ms tls
  decrypt_fragment := crypto_layer4_decrypt_fragment
  receive := receive_l4

def layer_of (action : PolicyAction) : FragLayer :=
  if action = .encrypt_l4 then layer4 else layer3

/-- The thread when it comes to the layers: it has taken over the settings for the frame. -/
def entering (e : WanEnv) (w : WanThread) (f : Buf × Nat) : WanThread :=
  { w with tls := apply_inbound_params e w.tls f.1 f.2 }

/-- A frame that is recognised as a fragment, resolved to the context `ctx`, and decrypted. -/
def Accepted (layer : FragLayer) (e : WanEnv) (w : WanThread) (ctx : PacketCryptoCtx)
    (f : Buf × Nat) : Prop :=
  (layer.is_fragment (entering e w f).tls e.rt.fwd_cfg f.1 f.2).isSome = true ∧
  ∃ tls, layer.resolve e (entering e w f).tls f.1 f.2 = some (ctx, tls) ∧
    (layer.decrypt_fragment e.o tls ctx f.1 f.2).1.isSome = true

/-- A first fragment that is accepted and kept. -/
def Kept (layer : FragLayer) (e : WanEnv) (w : WanThread) (ctx : PacketCryptoCtx)
    (f : Buf × Nat) : Prop :=
  Accepted layer e w ctx f ∧ (layer.receive e (entering e w f) f.1 f.2).1 = .pending

/-- A second fragment that is accepted and completes its packet. -/
def Completes (layer : FragLayer) (e : WanEnv) (w : WanThread) (ctx : PacketCryptoCtx)
    (f : Buf × Nat) : Prop :=
  Accepted layer e w ctx f ∧
  ∃ out n, (layer.receive e (entering e w f) f.1 f.2).1 = .packet out n

/-- A thread that meets the tables as another one left them, after a gc at the time `gc_ns`. -/
def after_gc (gc_ns : Nat) (left : WanThread) (tls : Tls) : WanThread where
  tls := tls
  frag_l2 := frag_table_gc gc_ns left.frag_l2
  frag_l3 := frag_table_gc gc_ns left.frag_l3
  frag_l4 := frag_table_gc gc_ns left.frag_l4

/-- Both frames get through when they arrive in order: the first one on a thread with the
tables of `w`, the second one on a thread with settings `tls` in the environment `later`. -/
def Delivered (layer : FragLayer) (e later : WanEnv) (w : WanThread) (gc_ns : Nat) (tls : Tls)
    (ctx : PacketCryptoCtx) (f1 f2 : Buf × Nat) : Prop :=
  Kept layer e w ctx f1 ∧
  Completes layer later
    (after_gc gc_ns (layer.receive e (entering e w f1) f1.1 f1.2).2 tls) ctx f2

/-! ## Layer 4 -/

/-- The test for fragments knows the fragments of a policy. -/
theorem frag_is_fragment_l4_eq {o : Openssl} {cfg : AppConfig} {p : CryptoPolicy}
    (hp : p ∈ cfg.policies) (hl4 : p.action = .encrypt_l4) (h4 : 4 ≤ p.nonce_size) {tls : Tls}
    {ctx : PacketCryptoCtx} {counter : Nat} {packet : Buf} {pkt_len ihl : Nat} {plain : Bytes}
    {id : Nat} {idx : UInt8} {f : Buf × Nat} (hs : Splittable packet pkt_len ihl)
    (hf : L4Fragment o (crypto_apply_from_policy p tls) ctx counter packet ihl plain id idx f.1 f.2)
    (hidx : idx ≤ 1) {rtls : Tls} (hns : rtls.nonce_size = p.nonce_size) :
    frag_is_fragment_l4 rtls cfg f.1 f.2 = some (id % 65536, idx) := by
  have h20 := hs.ihl_ge
  have hL : L4_WIRE_PORT_LEN = 4 := rfl
  have hF : FRAG_TAG_SIZE = 4 := rfl
  have hlen := hf.tagged.len
  have hN : (crypto_apply_from_policy p tls).nonce_size = p.nonce_size := rfl
  have hh : packet_crypto_get_tunnel_hdr_size rtls = p.nonce_size + 2 := by rw [← hns]; rfl
  have hh' : packet_crypto_get_tunnel_hdr_size (crypto_apply_from_policy p tls) =
    p.nonce_size + 2 := rfl
  have h12 := l4Fragment_ipv4 hs hf
  have h9 : f.1 (14 + 9) = 6 ∨ f.1 (14 + 9) = 17 := by
    rw [hf.headers (14 + 9) (by omega) (by omega) (by omega)]
    exact hs.proto
  have hihl : (f.1 14).toNat % 16 * 4 = ihl := by
    rw [hf.headers 14 (by omega) (by omega) (by omega)]
    exact hs.ihl_eq
  have htype := hf.tagged.tunnelled.type_byte
  have hid := hf.tagged.tunnelled.policy_id
  have htag := hf.tagged.tag
  rw [hh'] at htag
  rw [hN] at htype hid
  have hfit : ∃ q, cfg.policies.find? (fun cp => cp.action == .encrypt_l4 && cp.nonce_size != 0 &&
      decide (14 + ihl + L4_WIRE_PORT_LEN + cp.nonce_size + 1 < f.2) &&
      f.1 (14 + ihl + L4_WIRE_PORT_LEN + cp.nonce_size + 1) == CRYPTO_L4_FRAG_MAGIC &&
      f.1 (14 + ihl + L4_WIRE_PORT_LEN + cp.nonce_size) == cp.wire_id) = some q := by
    rw [← Option.isSome_iff_exists, List.find?_isSome]
    refine ⟨p, hp, ?_⟩
    have hne : (p.nonce_size != 0) = true := bne_iff_ne.mpr (by omega)
    rw [hl4, htype, hid, hne, decide_eq_true (by omega)]
    exact beq_self_eq_true p.wire_id
  obtain ⟨q, hq⟩ := hfit
  unfold frag_is_fragment_l4
  dsimp only
  rw [hihl, hh, if_neg (by
    rcases h9 with h | h <;> rw [h] <;>
      simp only [h12, ne_eq, not_true_eq_false, false_and, and_false, false_or] <;> omega)]
  exact fragment_of_eq hq htag hidx

/-- Its context is not found, and the frame is dropped. -/
theorem receive_l4_of_fragment {e : WanEnv} {p : CryptoPolicy} (hp : p ∈ e.rt.fwd_cfg.policies)
    (hl4 : p.action = .encrypt_l4) (h4 : 4 ≤ p.nonce_size)
    (hsame : ∀ q ∈ e.rt.fwd_cfg.policies, q.nonce_size = p.nonce_size) {tls : Tls}
    {ctx : PacketCryptoCtx} {counter : Nat} {packet : Buf} {pkt_len ihl : Nat} {plain : Bytes}
    {id : Nat} {idx : UInt8} {f : Buf × Nat} (hs : Splittable packet pkt_len ihl)
    (hf : L4Fragment e.o (crypto_apply_from_policy p tls) ctx counter packet ihl plain id idx f.1
      f.2) (hidx : idx ≤ 1) {w : WanThread} (hns : w.tls.nonce_size = p.nonce_size) :
    (receive_l4 e w f.1 f.2).1 = .dropped := by
  unfold receive_l4 forwarder_resolve_l4_decrypt_ctx
  rw [frag_is_fragment_l4_eq hp hl4 h4 hs hf hidx hns, if_neg (List.ne_nil_of_mem hp),
    extract_l4_of_fragment hsame hs hf]
  rfl

/-- A TCP or UDP packet does not bear the marker of layer 3. -/
theorem extract_of_plain_proto (magic : UInt8) {tls : Tls} (hm : markerOf tls = 99)
    (cfg : AppConfig) {pkt : Buf} (h9 : pkt (14 + 9) = 6 ∨ pkt (14 + 9) = 17) (pkt_len : Nat) :
    crypto_l3_extract_policy_id magic tls cfg pkt pkt_len = none := by
  have hne : pkt (14 + 9) ≠ markerOf tls := by
    rw [hm]
    rcases h9 with h | h <;> rw [h] <;> decide
  unfold crypto_l3_extract_policy_id
  exact if_pos (Or.inr (Or.inr (Or.inr (Or.inr (Or.inl hne)))))

/-- The layer 3 step lets a TCP or UDP packet through. -/
theorem receive_l3_of_plain_proto {e : WanEnv} (hen : e.rt.crypto_enabled = true)
    (hne : e.rt.fwd_cfg.policies ≠ []) {w : WanThread} (hm : w.tls.fake_protocol = 99)
    {pkt : Buf} (h9 : pkt (14 + 9) = 6 ∨ pkt (14 + 9) = 17) (pkt_len : Nat) :
    receive_l3 e w pkt pkt_len = (.packet pkt pkt_len, w) := by
  have hmk : markerOf w.tls = 99 := by
    unfold markerOf
    rw [hm]
    rfl
  have hfrag : frag_is_fragment w.tls e.rt.fwd_cfg pkt pkt_len = none := by
    unfold frag_is_fragment
    split
    · rfl
    · refine if_pos (Or.inl ?_)
      rw [hm]
      rcases h9 with h | h <;> rw [h] <;> decide
  unfold receive_l3 decrypt_packet_auto_by_action crypto_decrypt_packet_auto_by_action
  rw [hfrag, hen, if_neg (by decide), if_neg hne]
  dsimp only
  rw [extract_of_plain_proto e.magic hmk e.rt.fwd_cfg h9]
  rfl

/-- The frame is recognised as a fragment, its context is not found, and it is dropped. -/
def RecognisedAndDropped (e : WanEnv) (w : WanThread) (f : Buf × Nat) : Prop :=
  (layer4.is_fragment (entering e w f).tls e.rt.fwd_cfg f.1 f.2).isSome = true ∧
    layer4.resolve e (entering e w f).tls f.1 f.2 = none ∧
    (inbound_l3l4 e w f.1 f.2).1 = .dropped

/-- So it goes with a layer 4 fragment in the whole thread, whatever it received before. -/
theorem inbound_l3l4_of_l4_fragment {e : WanEnv} (hpeer : Peer e.o e.rt) {p : CryptoPolicy}
    (hp : p ∈ e.rt.fwd_cfg.policies) (hl4 : p.action = .encrypt_l4) (h4 : 4 ≤ p.nonce_size)
    (hsame : ∀ q ∈ e.rt.fwd_cfg.policies, q.nonce_size = p.nonce_size) {tls : Tls}
    {ctx : PacketCryptoCtx} {counter : Nat} {packet : Buf} {pkt_len ihl : Nat} {plain : Bytes}
    {id : Nat} {idx : UInt8} {f : Buf × Nat} (hs : Splittable packet pkt_len ihl)
    (hf : L4Fragment e.o (crypto_apply_from_policy p tls) ctx counter packet ihl plain id idx f.1
      f.2) (hidx : idx ≤ 1) (hl2 : l2_has_fake_marker e.rt.fake_ethertype_ipv4 f.1 = false)
    {w : WanThread} (hm : markerOf w.tls = 99) : RecognisedAndDropped e w f := by
  have h20 := hs.ihl_ge
  have hne := List.ne_nil_of_mem hp
  have h9 : f.1 (14 + 9) = 6 ∨ f.1 (14 + 9) = 17 := by
    rw [hf.headers (14 + 9) (by omega) (by omega) (by omega)]
    exact hs.proto
  obtain ⟨cp, hcp⟩ : ∃ cp, e.rt.fwd_cfg.policies.head? = some cp :=
    ⟨_, List.head?_eq_some_head hne⟩
  have happly : apply_inbound_params e w.tls f.1 f.2 =
      crypto_apply_default_from_cfg e.rt.fwd_cfg w.tls := by
    unfold apply_inbound_params
    rw [hpeer.enabled, hpeer.layer, List.isEmpty_eq_false_iff.mpr hne,
      extract_of_plain_proto e.magic hm e.rt.fwd_cfg h9]
    rfl
  have hfake : (crypto_apply_default_from_cfg e.rt.fwd_cfg w.tls).fake_protocol = 99 := by
    unfold crypto_apply_default_from_cfg
    dsimp only
    rw [hpeer.encrypt_layer, if_pos rfl, hpeer.fake_protocol]
  have hns : (crypto_apply_default_from_cfg e.rt.fwd_cfg w.tls).nonce_size = p.nonce_size := by
    rw [← hsame cp (List.mem_of_mem_head? hcp), ← hpeer.nonce_size cp hcp]
    rfl
  refine ⟨?_, ?_, ?_⟩
  · have hfrag := frag_is_fragment_l4_eq hp hl4 h4 hs hf hidx hns
    unfold entering
    rw [happly]
    exact (congrArg Option.isSome hfrag).trans rfl
  · show forwarder_resolve_l4_decrypt_ctx e.rt e.now_ms _ f.1 f.2 = none
    unfold forwarder_resolve_l4_decrypt_ctx
    rw [if_neg hne, extract_l4_of_fragment hsame hs hf]
  · unfold inbound_l3l4
    rw [happly, hl2, hpeer.enabled]
    simp only [Bool.false_eq_true, if_false, Bool.not_true]
    rw [receive_l3_of_plain_proto hpeer.enabled hne hfake h9]
    exact receive_l4_of_fragment hp hl4 h4 hsame hs hf hidx hns

/-! ## Layer 3 -/

theorem frag_is_fragment_eq {o : Openssl} {cfg : AppConfig} (hd : DistinctWireIds cfg.policies)
    {p : CryptoPolicy} (hp : p ∈ cfg.policies) (hl3 : p.action = .encrypt_l3)
    (hsame : ∀ q ∈ cfg.policies, q.nonce_size = p.nonce_size) (h4 : 4 ≤ p.nonce_size) {tls : Tls}
    (hfake : (crypto_apply_from_policy p tls).fake_protocol = 99)
    {ctx : PacketCryptoCtx} {counter : Nat} {packet : Buf} {pkt_len ihl : Nat} {plain : Bytes}
    {id : Nat} {idx : UInt8} {f : Buf × Nat} (hs : Splittable packet pkt_len ihl)
    (hf : L3Fragment o (crypto_apply_from_policy p tls) ctx counter packet ihl plain id idx f.1 f.2)
    (hidx : idx ≤ 1) {rtls : Tls} (hns : rtls.nonce_size = p.nonce_size)
    (hm : rtls.fake_protocol = 99) :
    frag_is_fragment rtls cfg f.1 f.2 = some (id % 65536, idx) := by
  have hE : ETH_HEADER_SIZE = 14 := rfl
  have hF : FRAG_TAG_SIZE = 4 := rfl
  have h20 := hs.ihl_ge
  have hlen := hf.tagged.len
  have hN : (crypto_apply_from_policy p tls).nonce_size = p.nonce_size := rfl
  have hh : packet_crypto_get_tunnel_hdr_size rtls = p.nonce_size + 2 := by rw [← hns]; rfl
  have hmk : f.1 (14 + 9) = 99 := hf.marker.trans hfake
  have hfind : cfg.policies.find? (fits CRYPTO_L3_FRAG_MAGIC f.1 f.2 (14 + ihl)) = some p :=
    (find_fits_eq hd hp hl3 (fun q hq _ => hsame q hq) (by omega) (by omega)
      hf.tagged.tunnelled.policy_id hf.tagged.tunnelled.type_byte).trans (if_pos rfl)
  have htag := hf.tagged.tag
  rw [show packet_crypto_get_tunnel_hdr_size (crypto_apply_from_policy p tls) = p.nonce_size + 2
    from rfl] at htag
  unfold frag_is_fragment
  rw [l3Fragment_require hs hf.headers (by omega)]
  dsimp only
  rw [hmk, hm, hh, if_neg (by simp only [ne_eq, not_true_eq_false, false_or]; omega)]
  exact fragment_of_eq hfind htag hidx

/-- The key of a layer 3 fragment is found exactly when the two magics are one. -/
theorem resolve_of_fragment {e : WanEnv} (hpeer : Peer e.o e.rt) {pi : Nat}
    {p : CryptoPolicy} (hp : e.rt.fwd_cfg.policies[pi]? = some p)
    (hready : e.rt.active.ready pi = true) (hl3 : p.action = .encrypt_l3)
    (hsame : ∀ q ∈ e.rt.fwd_cfg.policies, q.nonce_size = p.nonce_size) (h4 : 4 ≤ p.nonce_size)
    {tls : Tls} (hfake : (crypto_apply_from_policy p tls).fake_protocol = 99)
    {ctx : PacketCryptoCtx} {counter : Nat} {packet : Buf} {pkt_len ihl : Nat} {plain : Bytes}
    {id : Nat} {idx : UInt8} {f : Buf × Nat} (hs : Splittable packet pkt_len ihl)
    (hf : L3Fragment e.o (crypto_apply_from_policy p tls) ctx counter packet ihl plain id idx f.1 f.2)
    {rtls : Tls} (hns : rtls.nonce_size = p.nonce_size) (hm : rtls.fake_protocol = 99) :
    forwarder_resolve_l3_decrypt_ctx e.magic e.rt e.now_ms rtls f.1 f.2 =
      if e.magic = CRYPTO_L3_FRAG_MAGIC then
        some (e.rt.active.ctx pi, crypto_apply_from_policy p rtls)
      else none := by
  have hE : ETH_HEADER_SIZE = 14 := rfl
  have hmem := List.mem_of_getElem? hp
  have hlen := hf.tagged.len
  have hN : (crypto_apply_from_policy p tls).nonce_size = p.nonce_size := rfl
  have hmk : markerOf rtls = 99 := by
    unfold markerOf
    rw [hm]
    rfl
  have hres := hpeer.resolve hp hready (fun _ => true) rfl e.now_ms rtls
  rw [hl3] at hres
  unfold forwarder_resolve_l3_decrypt_ctx
  rw [if_neg (List.ne_nil_of_mem hmem),
    extract_of_fragment e.magic hpeer.distinct hmem hl3 hsame h4 hs hf rtls, hfake,
    if_pos ⟨hmk, by omega⟩]
  by_cases hmagic : e.magic = CRYPTO_L3_FRAG_MAGIC
  · rw [if_pos hmagic, if_pos hmagic]
    exact hres
  · rw [if_neg hmagic, if_neg hmagic]
    rfl

/-- What the thread does with the outcome of a reassembly. -/
def inbound_of_reassembled (pkt : Buf) : Reassembled → Inbound
  | .pending => .pending
  | .failed => .dropped
  | .packet out reass_len => .packet (write pkt 0 (read out 0 reass_len)) reass_len

/-- When the two magics are one, a layer 3 fragment is decrypted and put to its other half. -/
theorem receive_l3_of_fragment {e : WanEnv} (ho : e.o.Lawful) (hpeer : Peer e.o e.rt) {pi : Nat}
    {p : CryptoPolicy} (hp : e.rt.fwd_cfg.policies[pi]? = some p)
    (hready : e.rt.active.ready pi = true) (hl3 : p.action = .encrypt_l3)
    (hsame : ∀ q ∈ e.rt.fwd_cfg.policies, q.nonce_size = p.nonce_size) (h4 : 4 ≤ p.nonce_size)
    {tls : Tls} (hfake : (crypto_apply_from_policy p tls).fake_protocol = 99)
    {counter : Nat} {packet : Buf} {pkt_len ihl : Nat} {plain : Bytes}
    {id : Nat} {idx : UInt8} {f : Buf × Nat} (hs : Splittable packet pkt_len ihl)
    (hf : L3Fragment e.o (crypto_apply_from_policy p tls) (init_ctx e.o p.aes_bits p.key.toList)
      counter packet ihl plain id idx f.1 f.2)
    (hidx : idx ≤ 1) (hmagic : e.magic = CRYPTO_L3_FRAG_MAGIC) {w : WanThread}
    (hns : w.tls.nonce_size = p.nonce_size) (hm : w.tls.fake_protocol = 99)
    (he : w.tls.evp_ok = true)
    (hk : SameKey (crypto_apply_from_policy p tls) (init_ctx e.o p.aes_bits p.key.toList)
      (crypto_apply_from_policy p w.tls) (e.rt.active.ctx pi)) :
    ∃ pkt, crypto_layer3_decrypt_fragment e.o (crypto_apply_from_policy p w.tls)
        (e.rt.active.ctx pi) f.1 f.2 = (some (14 + ihl + plain.length, id % 65536, idx), pkt) ∧
      frag_require_ipv4 pkt (14 + ihl + plain.length) = some ihl ∧
      ∀ r ft, frag_try_reassemble e.now_ns w.frag_l3 pkt (14 + ihl + plain.length) (id % 65536) idx
          e.reass_buf = (r, ft) →
        (receive_l3 e w f.1 f.2).1 = inbound_of_reassembled pkt r ∧
          (receive_l3 e w f.1 f.2).2.frag_l3 = ft := by
  have hmem := List.mem_of_getElem? hp
  have hctx := hpeer.tables.ctx_eq pi p hp hready
  have hfake' : (crypto_apply_from_policy p w.tls).fake_protocol = 99 := by
    unfold crypto_apply_from_policy
    rw [hm]
    simp
  obtain ⟨pkt, hdec, -, hhead⟩ := crypto_layer3_decrypt_fragment_frame ho
    (crypto_apply_from_policy p w.tls) (e.rt.active.ctx pi) hf hs.ipv4 hs.ihl_eq
    hs.ihl_ge ⟨rfl, rfl⟩ rfl he hk (by rw [show e.rt.active.ctx pi = _ from hctx]; rfl) (hfake'.trans hfake.symm)
  refine ⟨pkt, hdec, l3Fragment_require hs hhead (by omega), ?_⟩
  intro r ft hr
  have hfrag := frag_is_fragment_eq hpeer.distinct hmem hl3 hsame h4 hfake hs hf hidx hns hm
  have hres := resolve_of_fragment hpeer hp hready hl3 hsame h4 hfake hs hf hns hm
  rw [if_pos hmagic] at hres
  unfold receive_l3
  rw [hfrag, hres]
  unfold receive_fragment
  dsimp only
  rw [show crypto_layer3_decrypt_fragment e.o (crypto_apply_from_policy p w.tls)
    (e.rt.active.ctx pi) f.1 f.2 = (some (14 + ihl + plain.length, id % 65536, idx), pkt) from hdec]
  dsimp only
  rw [hr]
  cases r <;> exact ⟨rfl, rfl⟩

/-- So the thread accepts it whatever it handled before, and puts it to its other half. -/
theorem fragment_is_accepted {e : WanEnv} (ho : e.o.Lawful) (hpeer : Peer e.o e.rt) {pi : Nat}
    {p : CryptoPolicy} (hp : e.rt.fwd_cfg.policies[pi]? = some p)
    (hready : e.rt.active.ready pi = true) (hl3 : p.action = .encrypt_l3)
    (hsame : ∀ q ∈ e.rt.fwd_cfg.policies, q.nonce_size = p.nonce_size) (h4 : 4 ≤ p.nonce_size)
    {tls : Tls} (hfake : (crypto_apply_from_policy p tls).fake_protocol = 99)
    {counter : Nat} {packet : Buf} {pkt_len ihl : Nat} {plain : Bytes}
    {id : Nat} {idx : UInt8} {f : Buf × Nat} (hs : Splittable packet pkt_len ihl)
    (hf : L3Fragment e.o (crypto_apply_from_policy p tls) (init_ctx e.o p.aes_bits p.key.toList)
      counter packet ihl plain id idx f.1 f.2)
    (hidx : idx ≤ 1) (hmagic : e.magic = CRYPTO_L3_FRAG_MAGIC) {w : WanThread}
    (hevp : w.tls.evp_ok = true) (hk : HasKey e pi p tls w.tls f) :
    Accepted layer3 e w (e.rt.active.ctx pi) f ∧
    ∃ pkt, frag_require_ipv4 pkt (14 + ihl + plain.length) = some ihl ∧
      ∀ r ft, frag_try_reassemble e.now_ns w.frag_l3 pkt (14 + ihl + plain.length) (id % 65536) idx
          e.reass_buf = (r, ft) →
        (receive_l3 e (entering e w f) f.1 f.2).1 = inbound_of_reassembled pkt r ∧
          (receive_l3 e (entering e w f) f.1 f.2).2.frag_l3 = ft := by
  have hmem := List.mem_of_getElem? hp
  obtain ⟨hns, hm, he⟩ :=
    apply_inbound_params_of_fragment hpeer hp hready hl3 hsame h4 hfake hs hf w.tls
  have hfrag := frag_is_fragment_eq hpeer.distinct hmem hl3 hsame h4 hfake hs hf hidx hns hm
  have hres := resolve_of_fragment hpeer hp hready hl3 hsame h4 hfake hs hf hns hm
  rw [if_pos hmagic] at hres
  obtain ⟨pkt, hdec, hihl, hrecv⟩ := receive_l3_of_fragment ho hpeer hp hready hl3 hsame h4 hfake hs
    hf hidx hmagic (w := entering e w f) hns hm (he.trans hevp) hk
  refine ⟨⟨?_, _, hres, ?_⟩, pkt, hihl, hrecv⟩
  · exact (congrArg Option.isSome hfrag).trans rfl
  · exact (congrArg (fun r => r.1.isSome) hdec).trans rfl

/-- What it accepts it has taken for a fragment, and decrypts with the context of its policy. -/
theorem decrypted_of_accepted {e : WanEnv} (hpeer : Peer e.o e.rt) {pi : Nat}
    {p : CryptoPolicy} (hp : e.rt.fwd_cfg.policies[pi]? = some p)
    (hready : e.rt.active.ready pi = true) (hl3 : p.action = .encrypt_l3)
    (hsame : ∀ q ∈ e.rt.fwd_cfg.policies, q.nonce_size = p.nonce_size) (h4 : 4 ≤ p.nonce_size)
    {tls : Tls} (hfake : (crypto_apply_from_policy p tls).fake_protocol = 99)
    {ctx : PacketCryptoCtx} {counter : Nat} {packet : Buf} {pkt_len ihl : Nat} {plain : Bytes}
    {id : Nat} {idx : UInt8} {f : Buf × Nat} (hs : Splittable packet pkt_len ihl)
    (hf : L3Fragment e.o (crypto_apply_from_policy p tls) ctx counter packet ihl plain id idx f.1 f.2)
    {w : WanThread} (hacc : Accepted layer3 e w (e.rt.active.ctx pi) f) :
    e.magic = CRYPTO_L3_FRAG_MAGIC ∧ (layer3.decrypt_fragment e.o (opening e p w.tls f)
      (e.rt.active.ctx pi) f.1 f.2).1.isSome = true := by
  obtain ⟨hns, hm, -⟩ :=
    apply_inbound_params_of_fragment hpeer hp hready hl3 hsame h4 hfake hs hf w.tls
  obtain ⟨-, tls', hres, hdec⟩ := hacc
  have hresolve : forwarder_resolve_l3_decrypt_ctx e.magic e.rt e.now_ms (entering e w f).tls f.1 f.2 =
      _ := resolve_of_fragment hpeer hp hready hl3 hsame h4 hfake hs hf hns hm
  have heq := hres.symm.trans hresolve
  by_cases hmagic : e.magic = CRYPTO_L3_FRAG_MAGIC
  · rw [if_pos hmagic] at heq
    obtain ⟨-, rfl⟩ := Prod.mk.inj (Option.some.inj heq)
    exact ⟨hmagic, hdec⟩
  · rw [if_neg hmagic] at heq
    simp at heq

/-- And it only accepts it when it has the key. -/
theorem hasKey_of_accepted {e : WanEnv} (ho : e.o.Lawful) (hpeer : Peer e.o e.rt) {pi : Nat}
    {p : CryptoPolicy} (hp : e.rt.fwd_cfg.policies[pi]? = some p)
    (hready : e.rt.active.ready pi = true) (hl3 : p.action = .encrypt_l3)
    (hsame : ∀ q ∈ e.rt.fwd_cfg.policies, q.nonce_size = p.nonce_size) (h4 : 4 ≤ p.nonce_size)
    {tls : Tls} (hfake : (crypto_apply_from_policy p tls).fake_protocol = 99)
    {counter : Nat} {packet : Buf} {pkt_len ihl : Nat} {plain : Bytes}
    {id : Nat} {idx : UInt8} {f : Buf × Nat} (hs : Splittable packet pkt_len ihl)
    (hf : L3Fragment e.o (crypto_apply_from_policy p tls) (init_ctx e.o p.aes_bits p.key.toList)
      counter packet ihl plain id idx f.1 f.2)
    (hd : 0 < plain.length) {w : WanThread} (hevp : w.tls.evp_ok = true)
    (hacc : Accepted layer3 e w (e.rt.active.ctx pi) f)
    (hwrong : ¬ HasKey e pi p tls w.tls f → Refuses .layer3_fragment e.o 0 (opening e p w.tls f)
      (e.rt.active.ctx pi) f.1 f.2) : HasKey e pi p tls w.tls f := by
  by_contra hk
  have hctx := hpeer.tables.ctx_eq pi p hp hready
  obtain ⟨hns, hm, he⟩ :=
    apply_inbound_params_of_fragment hpeer hp hready hl3 hsame h4 hfake hs hf w.tls
  have hfake' : (opening e p w.tls f).fake_protocol = 99 := by
    unfold opening crypto_apply_from_policy
    rw [hm]
    simp
  have hset : SameParameters (crypto_apply_from_policy p tls) (init_ctx e.o p.aes_bits p.key.toList)
      (opening e p w.tls f) (e.rt.active.ctx pi) := by
    rw [show e.rt.active.ctx pi = _ from hctx]
    exact ⟨⟨⟨rfl, rfl⟩, rfl, hfake'.trans hfake.symm, he.trans hevp, rfl⟩, rfl⟩
  obtain ⟨-, hdec⟩ := decrypted_of_accepted hpeer hp hready hl3 hsame h4 hfake hs hf hacc
  have hnone := layer3_fragment_refuses ho hf hs.ipv4 hs.ihl_eq hs.ihl_ge hset.toSameSettings
    (hset.gcm_of_not_sameKey hk) hd (hwrong hk)
  rw [show (layer3.decrypt_fragment e.o (opening e p w.tls f) (e.rt.active.ctx pi) f.1 f.2).1 = none
    from hnone] at hdec
  simp at hdec

/-! ## Delivery -/

/-- The sender's settings when it splits under a policy. -/
def splitUnder (o : Openssl) (p : CryptoPolicy) (tls : Tls) (counter pkt_id_counter : Nat)
    (packet : Buf) (pkt_len : Nat) (frag1 frag2 : Buf) : SplitResult :=
  (layer_of p.action).split o (crypto_apply_from_policy p tls)
    (init_ctx o p.aes_bits p.key.toList) counter pkt_id_counter packet pkt_len frag1 frag2

/-- Neither fragment of a layer 4 packet is delivered: the resolver finds no context. -/
theorem not_delivered_l4 {e later : WanEnv} {p : CryptoPolicy}
    (hp : p ∈ e.rt.fwd_cfg.policies) (hl4 : p.action = .encrypt_l4) (h4 : 4 ≤ p.nonce_size)
    (hsame : ∀ q ∈ e.rt.fwd_cfg.policies, q.nonce_size = p.nonce_size) (ho : e.o.Lawful)
    {stls : Tls} {counter pkt_id_counter : Nat} {packet : Buf} {pkt_len : Nat} {frag1 frag2 : Buf}
    {f1 f2 : Buf × Nat}
    (hsplit : (splitUnder e.o p stls counter pkt_id_counter packet pkt_len frag1 frag2).frags =
      some (f1, f2)) (w : WanThread) (gc_ns : Nat) (tls : Tls) (ctx : PacketCryptoCtx) :
    ¬ Delivered (layer_of p.action) e later w gc_ns tls ctx f1 f2 := by
  rintro ⟨⟨⟨-, tls', hres, -⟩, -⟩, -⟩
  unfold splitUnder at hsplit
  rw [hl4] at hsplit hres
  obtain ⟨ihl, plain1, plain2, c, hs, hf1, -⟩ := frag_split_and_encrypt_l4_some ho
    (show 4 ≤ (crypto_apply_from_policy p stls).nonce_size from h4) hsplit
  have hnone : forwarder_resolve_l4_decrypt_ctx e.rt e.now_ms (entering e w f1).tls f1.1 f1.2 =
      none := by
    unfold forwarder_resolve_l4_decrypt_ctx
    rw [if_neg (List.ne_nil_of_mem hp), extract_l4_of_fragment hsame hs hf1]
  rw [show (layer_of .encrypt_l4).resolve e (entering e w f1).tls f1.1 f1.2 = none from hnone] at hres
  simp at hres

/-- The thread drops both. -/
theorem the_fragments_of_a_layer_4_packet_are_dropped {e : WanEnv} (hpeer : Peer e.o e.rt)
    {p : CryptoPolicy} (hp : p ∈ e.rt.fwd_cfg.policies) (hl4 : p.action = .encrypt_l4)
    (h4 : 4 ≤ p.nonce_size) (hsame : ∀ q ∈ e.rt.fwd_cfg.policies, q.nonce_size = p.nonce_size)
    (ho : e.o.Lawful) {stls : Tls} {counter pkt_id_counter : Nat} {packet : Buf} {pkt_len : Nat}
    {frag1 frag2 : Buf} {f1 f2 : Buf × Nat}
    (hsplit : (splitUnder e.o p stls counter pkt_id_counter packet pkt_len frag1 frag2).frags =
      some (f1, f2))
    (hl2 : ∀ pkt, be16 pkt 12 = 0x0800 → l2_has_fake_marker e.rt.fake_ethertype_ipv4 pkt = false)
    {w : WanThread} (hm : markerOf w.tls = 99) :
    RecognisedAndDropped e w f1 ∧ RecognisedAndDropped e w f2 := by
  unfold splitUnder at hsplit
  rw [hl4] at hsplit
  obtain ⟨ihl, plain1, plain2, c, hs, hf1, hf2, -⟩ := frag_split_and_encrypt_l4_some ho
    (show 4 ≤ (crypto_apply_from_policy p stls).nonce_size from h4) hsplit
  exact ⟨inbound_l3l4_of_l4_fragment hpeer hp hl4 h4 hsame hs hf1 (by decide)
      (hl2 _ (l4Fragment_ipv4 hs hf1)) hm,
    inbound_l3l4_of_l4_fragment hpeer hp hl4 h4 hsame hs hf2 (by decide)
      (hl2 _ (l4Fragment_ipv4 hs hf2)) hm⟩

/-- The two fragments of a packet get through to the context of its policy exactly when it is
a layer 3 policy, the magic of whole packets is the magic of fragments, the first half fits into
an entry of the table, and both threads run AES under the key of the packet. -/
theorem fragments_are_delivered_iff_the_parser_of_packets_knows_them {e : WanEnv}
    (ho : e.o.Lawful) (hpeer : Peer e.o e.rt) {pi : Nat} {p : CryptoPolicy}
    (hp : e.rt.fwd_cfg.policies[pi]? = some p) (hready : e.rt.active.ready pi = true)
    (hlayer : p.action = .encrypt_l3 ∨ p.action = .encrypt_l4)
    (hsame : ∀ q ∈ e.rt.fwd_cfg.policies, q.nonce_size = p.nonce_size) (h4 : 4 ≤ p.nonce_size)
    (stls : Tls) (hfake : stls.fake_protocol = 0 ∨ stls.fake_protocol = 99)
    (counter pkt_id_counter : Nat) (packet : Buf) (pkt_len : Nat) (frag1 frag2 : Buf)
    (f1 f2 : Buf × Nat)
    (hsplit : (splitUnder e.o p stls counter pkt_id_counter packet pkt_len frag1 frag2).frags =
      some (f1, f2))
    (w : WanThread) (hevp : w.tls.evp_ok = true) (gc_ns now_ms now_ns : Nat)
    (hgc : e.now_ns ≤ gc_ns ∧ gc_ns ≤ now_ns) (hnow : now_ns ≤ e.now_ns + FRAG_TIMEOUT_NS)
    (reass_buf : Buf) (tls : Tls) (hevp2 : tls.evp_ok = true)
    (hwrong1 : ¬ HasKey e pi p stls w.tls f1 →
      Refuses .layer3_fragment e.o 0 (opening e p w.tls f1) (e.rt.active.ctx pi) f1.1 f1.2)
    (hwrong2 : ¬ HasKey { e with now_ms, now_ns, reass_buf } pi p stls tls f2 →
      Refuses .layer3_fragment e.o 0 (opening { e with now_ms, now_ns, reass_buf } p tls f2)
        (e.rt.active.ctx pi) f2.1 f2.2) :
    Delivered (layer_of p.action) e { e with now_ms, now_ns, reass_buf } w gc_ns tls
        (e.rt.active.ctx pi) f1 f2 ↔
      p.action = .encrypt_l3 ∧ e.magic = CRYPTO_L3_FRAG_MAGIC ∧
        first_half_len packet pkt_len ≤ ENTRY_DATA_SIZE ∧ HasKey e pi p stls w.tls f1 ∧
        HasKey { e with now_ms, now_ns, reass_buf } pi p stls tls f2 := by
  have hmem := List.mem_of_getElem? hp
  rcases hlayer with hl3 | hl4
  swap
  · constructor
    · intro hdel
      exact absurd hdel (not_delivered_l4 hmem hl4 h4 hsame ho hsplit w gc_ns tls _)
    · rintro ⟨hl3, -⟩
      rw [hl4] at hl3
      simp at hl3
  have hsplit3 := hsplit
  unfold splitUnder at hsplit3
  rw [show layer_of p.action = layer3 by rw [hl3]; rfl] at hsplit3 ⊢
  obtain ⟨ihl, plain1, plain2, c, hs, hf1, hf2, -, hlen1, h8, hfit1, hlen2, hpos2⟩ :=
    frag_split_and_encrypt_some ho
      (show 4 ≤ (crypto_apply_from_policy p stls).nonce_size from h4) hsplit3
  have hfk : (crypto_apply_from_policy p stls).fake_protocol = 99 := by
    unfold crypto_apply_from_policy
    rcases hfake with h | h <;> simp [hl3, h]
  have hE : ENTRY_DATA_SIZE = 1600 := rfl
  have hF : FRAG0_PLAIN_SIZE = 2048 := rfl
  have hR : REASSEMBLED_SIZE = 4096 := rfl
  let e2 : WanEnv := { e with now_ms, now_ns, reass_buf }
  let w2 := after_gc gc_ns (layer3.receive e (entering e w f1) f1.1 f1.2).2 tls
  constructor
  · rintro ⟨⟨hacc1, hpend⟩, hacc2, -⟩
    obtain ⟨hmagic, -⟩ := decrypted_of_accepted hpeer hp hready hl3 hsame h4 hfk hs hf1 hacc1
    have hk1 := hasKey_of_accepted ho hpeer hp hready hl3 hsame h4 hfk hs hf1 (by omega) hevp hacc1
      hwrong1
    have hk2 : HasKey e2 pi p stls tls f2 := hasKey_of_accepted (e := e2) ho hpeer hp hready hl3 hsame
      h4 hfk hs hf2 hpos2 (w := w2) hevp2 hacc2 hwrong2
    refine ⟨hl3, hmagic, ?_, hk1, hk2⟩
    obtain ⟨-, pkt, hihl, hrecv⟩ := fragment_is_accepted ho hpeer hp hready hl3 hsame h4 hfk hs hf1
      (by decide) hmagic hevp hk1
    by_contra hbig
    have hfail := (frag_try_reassemble_first e.now_ns w.frag_l3
      (pkt_id_counter % 65536 % 65536) e.reass_buf hihl (by omega)).2 (by omega)
    have hdrop := (hrecv _ _ hfail).1
    rw [show layer3.receive e (entering e w f1) f1.1 f1.2 = receive_l3 e (entering e w f1) f1.1 f1.2
      from rfl, hdrop] at hpend
    simp [inbound_of_reassembled] at hpend
  · rintro ⟨-, hmagic, hsmall, hk1, hk2⟩
    obtain ⟨hacc1, pkt, hihl, hrecv⟩ := fragment_is_accepted ho hpeer hp hready hl3 hsame h4 hfk hs
      hf1 (by decide) hmagic hevp hk1
    obtain ⟨ft, hfirst, hpending⟩ := (frag_try_reassemble_first e.now_ns w.frag_l3
      (pkt_id_counter % 65536 % 65536) e.reass_buf hihl (by omega)).1 (by omega)
    obtain ⟨hin, hft⟩ := hrecv _ _ hfirst
    refine ⟨⟨hacc1, hin⟩, ?_⟩
    -- the second fragment meets the table with the first one in it
    have hp2 : Pending w2.frag_l3 (pkt_id_counter % 65536 % 65536) (14 + ihl + plain1.length - 14 - ihl)
        e.now_ns := by
      have hgc2 := hpending.gc hgc.1 (show gc_ns ≤ e.now_ns + FRAG_TIMEOUT_NS by omega)
      rw [← hft] at hgc2
      exact hgc2
    obtain ⟨hacc2, pkt2, hihl2, hrecv2⟩ := fragment_is_accepted (e := e2) ho hpeer hp hready hl3
      hsame h4 hfk hs hf2 (by decide) hmagic (w := w2) hevp2 hk2
    obtain ⟨out, n, ft2, hsecond⟩ := frag_try_reassemble_second reass_buf hihl2 hp2
      (hgc.1.trans hgc.2) hnow (by omega)
    exact ⟨hacc2, _, _, (hrecv2 _ _ hsecond).1⟩

/-! ## A datagram in two fragments -/

/-- A peer with one policy of `masterKey`. -/
def sampleEnv (magic : UInt8) (action : PolicyAction) : WanEnv where
  o := sampleOpenssl
  magic := magic
  rt := sampleRuntime [samplePolicy 7 action] one_policy_le
  now_ms := 2
  now_ns := 2000000
  reass_buf := fun _ => 0

theorem sampleEnv_peer (magic : UInt8) (action : PolicyAction) :
    Peer (sampleEnv magic action).o (sampleEnv magic action).rt := by
  refine peer_of_init ?_ (sampleCfg_init [samplePolicy 7 action] _ 1 Runtime.boot) rfl rfl rfl ?_
    (by simp [sampleCfg, DistinctWireIds])
  · intro pi cp hpi
    simp [Runtime.boot] at hpi
  · intro cp hcp
    obtain rfl := Option.some.inj hcp
    rfl

/-- A thread that has received nothing yet. -/
def freshThread : WanThread :=
  let free : FragEntry :=
    { valid := false
      pkt_id := 0
      data := fun _ => 0
      data_len := 0
      eth_hdr := []
      ip_hdr := []
      orig_proto := 0
      timestamp_ns := 0
      data_le := by decide }
  { tls := {}
    frag_l2 := fun _ => free
    frag_l3 := fun _ => free
    frag_l4 := fun _ => free }

/-- `udpPing` in two frames. -/
def splitPing (action : PolicyAction) : SplitResult :=
  splitUnder sampleOpenssl (samplePolicy 7 action) {} 0 0 (ofBytes udpPing) 46 (fun _ => 0)
    fun _ => 0

/-- Threads that have opened and sealed nothing yet have it too. -/
theorem sample_hasKey (now_ms now_ns : Nat) (reass_buf : Buf) (f : Buf × Nat) :
    HasKey { sampleEnv CRYPTO_L3_FRAG_MAGIC .encrypt_l3 with now_ms, now_ns, reass_buf } 0
      (samplePolicy 7 .encrypt_l3) {} {} f :=
  hasKey_of_in_place (e := { sampleEnv CRYPTO_L3_FRAG_MAGIC .encrypt_l3 with
      now_ms, now_ns, reass_buf }) (sampleEnv_peer CRYPTO_L3_FRAG_MAGIC .encrypt_l3)
    (show [samplePolicy 7 .encrypt_l3][0]? = some (samplePolicy 7 .encrypt_l3) from rfl) (by rfl) f
    (fun _ => GcmSide.inPlace_empty _ _) fun _ => GcmSide.inPlace_empty _ _

theorem a_layer_3_datagram_is_delivered_when_the_magics_are_one :
    ∃ f1 f2, (splitPing .encrypt_l3).frags = some (f1, f2) ∧
      Delivered layer3 (sampleEnv CRYPTO_L3_FRAG_MAGIC .encrypt_l3)
        { sampleEnv CRYPTO_L3_FRAG_MAGIC .encrypt_l3 with now_ms := 2, now_ns := 2500000 }
        freshThread 2200000 {} ((sampleEnv CRYPTO_L3_FRAG_MAGIC .encrypt_l3).rt.active.ctx 0)
        f1 f2 := by
  have hsome : (splitPing .encrypt_l3).frags.isSome = true := by rfl
  obtain ⟨⟨f1, f2⟩, hsplit⟩ := Option.isSome_iff_exists.mp hsome
  exact ⟨f1, f2, hsplit, (fragments_are_delivered_iff_the_parser_of_packets_knows_them
    (e := sampleEnv CRYPTO_L3_FRAG_MAGIC .encrypt_l3) sampleOpenssl_lawful (sampleEnv_peer _ _)
    (show [samplePolicy 7 .encrypt_l3][0]? = some (samplePolicy 7 .encrypt_l3) from rfl) (by rfl)
    (Or.inl rfl) (by
      intro q hq
      obtain rfl := List.mem_singleton.mp (show q ∈ [samplePolicy 7 .encrypt_l3] from hq)
      rfl)
    (by decide) {} (by decide) 0 0 (ofBytes udpPing) 46 _ _ f1 f2
    hsplit freshThread rfl 2200000 2 2500000 (by decide) (by decide) (fun _ => 0) {} rfl
    (fun hk => absurd (sample_hasKey 2 2000000 (fun _ => 0) f1) hk)
    fun hk => absurd (sample_hasKey 2 2500000 (fun _ => 0) f2) hk).mpr
    ⟨rfl, rfl, by decide, sample_hasKey 2 2000000 (fun _ => 0) f1,
      sample_hasKey 2 2500000 (fun _ => 0) f2⟩⟩

/-- The peer has the policy of the sender, and its context is ready. -/
theorem a_layer_4_datagram_is_recognised_and_dropped :
    (sampleEnv 0 .encrypt_l4).rt.active.ready 0 = true ∧
    ∃ f1 f2, (splitPing .encrypt_l4).frags = some (f1, f2) ∧
      ∀ magic, RecognisedAndDropped (sampleEnv magic .encrypt_l4) freshThread f1 ∧
        RecognisedAndDropped (sampleEnv magic .encrypt_l4) freshThread f2 := by
  have hp : samplePolicy 7 .encrypt_l4 ∈ (sampleEnv 0 .encrypt_l4).rt.fwd_cfg.policies :=
    List.mem_singleton.mpr rfl
  have hsame : ∀ q ∈ (sampleEnv 0 .encrypt_l4).rt.fwd_cfg.policies,
      q.nonce_size = (samplePolicy 7 .encrypt_l4).nonce_size := by
    intro q hq
    obtain rfl := List.mem_singleton.mp (show q ∈ [samplePolicy 7 .encrypt_l4] from hq)
    rfl
  have hsome : (splitPing .encrypt_l4).frags.isSome = true := by rfl
  obtain ⟨⟨f1, f2⟩, hsplit⟩ := Option.isSome_iff_exists.mp hsome
  refine ⟨by rfl, f1, f2, hsplit, ?_⟩
  intro magic
  exact the_fragments_of_a_layer_4_packet_are_dropped (sampleEnv_peer magic .encrypt_l4) hp rfl
    (by decide) hsame sampleOpenssl_lawful hsplit (fun _ _ => rfl) rfl

end ne_ip.frag_delivery
