-- The laws of the layer 4 wire format: which policy the parser finds in a packet, when
-- the nonce size of the sender is not on the wire.
import NeIp.GraceDecrypt

open byte_buf ne_ip.packet_crypto ne_ip.tunnel ne_ip.config ne_ip.crypto_layer4
open ne_ip.crypto_dispatch ne_ip.sample ne_ip.grace_decrypt

namespace ne_ip.l4_wire

/-! ## The parser -/

/-- What a policy must be for the parser to stop at it. -/
def fits (pkt : Buf) (pkt_len tunnel_off : Nat) (cp : CryptoPolicy) : Bool :=
  cp.action == .encrypt_l4 && cp.nonce_size != 0 &&
    decide (tunnel_off + cp.nonce_size + 1 < pkt_len) &&
    pkt (tunnel_off + cp.nonce_size + 1) == CRYPTO_L4_TUNNEL_MAGIC &&
    pkt (tunnel_off + cp.nonce_size) == cp.wire_id

theorem fits_iff {pkt : Buf} {pkt_len tunnel_off : Nat} {cp : CryptoPolicy} :
    fits pkt pkt_len tunnel_off cp = true ↔
      cp.action = .encrypt_l4 ∧ cp.nonce_size ≠ 0 ∧ tunnel_off + cp.nonce_size + 1 < pkt_len ∧
      pkt (tunnel_off + cp.nonce_size + 1) = CRYPTO_L4_TUNNEL_MAGIC ∧
      pkt (tunnel_off + cp.nonce_size) = cp.wire_id := by
  unfold fits
  simp only [Bool.and_eq_true, beq_iff_eq, bne_iff_ne, decide_eq_true_eq, and_assoc]

/-- On a TCP or UDP packet the parser takes the first policy that fits. -/
theorem extract_of_plain (cfg : AppConfig) {pkt : Buf} {pkt_len l3_off : Nat}
    (hp : L4Plain pkt pkt_len l3_off) :
    crypto_l4_extract_policy_id_ipv4 cfg pkt pkt_len =
      (cfg.policies.find? (fits pkt pkt_len (plain_off_at pkt l3_off))).map
        fun cp => (cp.wire_id, cp.nonce_size) := by
  have h20 := hp.ihl
  have hfits := hp.fits
  have hL : L4_WIRE_PORT_LEN = 4 := rfl
  have hproto : ¬ (pkt (l3_off + 9) ≠ 6 ∧ pkt (l3_off + 9) ≠ 17) := by
    rintro ⟨h6, h17⟩
    exact hp.proto.elim h6 h17
  unfold crypto_l4_extract_policy_id_ipv4
  rw [hp.offset]
  dsimp only
  rw [if_neg (by simp only [hproto, false_or]; omega)]
  rfl

theorem plain_of_frame {o : Openssl} {tls : Tls} {ctx : PacketCryptoCtx} {counter : Nat}
    {packet out : Buf} {pkt_len l3_off n : Nat}
    (hf : L4Frame o tls ctx counter packet pkt_len l3_off out) (hp : L4Plain packet pkt_len l3_off)
    (hn : pkt_len ≤ n) :
    L4Plain out n l3_off ∧ plain_off_at out l3_off = plain_off_at packet l3_off := by
  have hfits := hp.fits
  obtain ⟨hoff, hihl, hproto⟩ := hf.parse hp hn
  refine ⟨⟨hoff, by rw [hproto]; exact hp.proto, by rw [hihl]; exact hp.ihl, ?_⟩, ?_⟩
  · rw [hihl]
    omega
  · unfold plain_off_at
    rw [hihl]

/-! ## Policies with one action and wire id -/

/-- No two policies of the list share their action and wire id. -/
def DistinctActionIds (policies : List CryptoPolicy) : Prop :=
  (policies.map fun cp => (cp.action, cp.wire_id)).Nodup

instance (policies : List CryptoPolicy) : Decidable (DistinctActionIds policies) :=
  inferInstanceAs (Decidable (List.Nodup _))

theorem DistinctActionIds.index_eq {policies : List CryptoPolicy} (h : DistinctActionIds policies)
    {i j : Nat} {p q : CryptoPolicy} (hi : policies[i]? = some p) (hj : policies[j]? = some q)
    (ha : p.action = q.action) (hid : p.wire_id = q.wire_id) : i = j :=
  index_eq_of_nodup_map h hi hj (Prod.ext ha hid)

/-- The packet is attributed to the policy when no policy before it fits. -/
theorem attributed_iff {policies : List CryptoPolicy} (hd : DistinctActionIds policies) {pi : Nat}
    {p : CryptoPolicy} (hp : policies[pi]? = some p) {pkt : Buf} {pkt_len tunnel_off : Nat}
    (hfit : fits pkt pkt_len tunnel_off p = true) :
    (policies.find? (fits pkt pkt_len tunnel_off)).map (fun cp => (cp.wire_id, cp.nonce_size)) =
        some (p.wire_id, p.nonce_size) ↔
      ∀ qi q, qi < pi → policies[qi]? = some q → fits pkt pkt_len tunnel_off q = false := by
  obtain ⟨hlt, hget⟩ := List.getElem?_eq_some_iff.mp hp
  constructor
  · intro h qi q hqi hq
    obtain ⟨r, hr, hrp⟩ := Option.map_eq_some_iff.mp h
    obtain ⟨hrfit, i, hi, hri, hbefore⟩ := List.find?_eq_some_iff_getElem.mp hr
    obtain ⟨hql, rfl⟩ := List.getElem?_eq_some_iff.mp hq
    have hact := (fits_iff.mp hrfit).1.trans (fits_iff.mp hfit).1.symm
    obtain rfl := hd.index_eq (List.getElem?_eq_some_iff.mpr ⟨hi, hri⟩) hp hact
      (Prod.mk.inj hrp).1
    exact Bool.not_eq_true' _ ▸ hbefore qi hqi
  · intro h
    have hfind : policies.find? (fits pkt pkt_len tunnel_off) = some p := by
      refine List.find?_eq_some_iff_getElem.mpr ⟨hfit, pi, hlt, hget, fun j hj => ?_⟩
      rw [h j _ hj (List.getElem?_eq_getElem (by omega))]
      rfl
    rw [hfind]
    rfl

/-! ## A datagram with any data -/

/-- The headers of `udpPing` up to the ports, and what follows them. -/
def datagram (data : Bytes) : Buf := write (ofBytes udpPing) 38 data

theorem datagram_plain {data : Bytes} (h : 4 ≤ data.length) :
    L4Plain (datagram data) (38 + data.length) 14 ∧ datagram data 23 = 17 ∧
      plain_off_at (datagram data) 14 = 38 ∧ payloadOf (datagram data) (38 + data.length) 14 = data := by
  have hhead : ∀ i, i < 38 → datagram data i = ofBytes udpPing i :=
    fun i hi => write_out _ _ _ _ (by omega)
  have h12 : be16 (datagram data) 12 = 0x0800 := be16_congr (hhead 12 (by omega)) (hhead 13 (by omega))
  have h23 : datagram data 23 = 17 := hhead 23 (by omega)
  have hihl : ip_hdr_len_at (datagram data) 14 = 20 := by
    unfold ip_hdr_len_at
    rw [hhead 14 (by omega)]
    rfl
  have hoff : plain_off_at (datagram data) 14 = 38 := by
    unfold plain_off_at
    rw [hihl]
    rfl
  refine ⟨⟨?_, Or.inr h23, by rw [hihl], by rw [hihl]; omega⟩, h23, hoff, ?_⟩
  · unfold crypto_eth_ipv4_offset
    rw [if_neg (by omega), if_pos h12]
  · unfold payloadOf
    rw [hoff, Nat.add_sub_cancel_left]
    exact read_write_self _ _ _ _ rfl

/-- A thread that has AES encapsulates every datagram. -/
theorem encryptUnder_ret {o : Openssl} (ho : o.Lawful) (p : CryptoPolicy) {tls : Tls}
    (he : tls.evp_ok = true) (counter : Nat) {packet : Buf} {pkt_len l3_off : Nat}
    (hp : L4Plain packet pkt_len l3_off) (hudp : packet (l3_off + 9) = 17) :
    (encryptUnder o p tls counter packet pkt_len).ret =
      some (pkt_len + (p.nonce_size + 2 + tag_overhead (crypto_apply_from_policy p tls))) := by
  have h20 := hp.ihl
  have hfits := hp.fits
  have hL : L4_WIRE_PORT_LEN = 4 := rfl
  have hsize : size_sub pkt_len (l3_off + ip_hdr_len_at packet l3_off) =
      pkt_len - (l3_off + ip_hdr_len_at packet l3_off) := if_pos (by omega)
  have hplain : size_sub pkt_len (l3_off + ip_hdr_len_at packet l3_off + L4_WIRE_PORT_LEN) =
      pkt_len - (l3_off + ip_hdr_len_at packet l3_off + L4_WIRE_PORT_LEN) := if_pos (by omega)
  have hth : get_transport_hdr_size packet (l3_off + ip_hdr_len_at packet l3_off) 17
      (pkt_len - (l3_off + ip_hdr_len_at packet l3_off)) = some 8 := by
    unfold get_transport_hdr_size
    rw [if_neg (by decide), if_pos rfl, if_neg (by omega)]
  have hevp : (crypto_apply_from_policy p tls).evp_ok = true := he
  unfold encryptUnder crypto_layer4_encrypt
  rw [if_neg (by simp [init_ctx]), hp.offset]
  dsimp only
  rw [hudp, if_neg (by omega), if_neg (by simp), if_neg (by omega), hsize, hth,
    if_neg (by simp), hplain, if_neg (by omega)]
  rw [encrypt_tunnel_at_ret ho hevp]
  rfl

/-- Two bytes among a row of zeros. -/
theorem getD_replicate_append_pair (k : Nat) (x y : UInt8) (rest : Bytes) :
    (List.replicate k 0 ++ x :: y :: rest).getD k 0 = x ∧
      (List.replicate k 0 ++ x :: y :: rest).getD (k + 1) 0 = y := by
  constructor
  · rw [List.getD_append_right _ _ _ _ (by simp), List.length_replicate, Nat.sub_self]
    rfl
  · rw [List.getD_append_right _ _ _ _ (by simp), List.length_replicate, Nat.add_sub_cancel_left]
    rfl

/-- What a datagram of any thread looks like on the wire. -/
theorem datagram_on_the_wire {o : Openssl} (ho : o.Lawful) {p : CryptoPolicy} (h4 : 4 ≤ p.nonce_size)
    {tls : Tls} (he : tls.evp_ok = true) {data : Bytes} (hdata : 4 ≤ data.length) :
    ∃ n, (encryptUnder o p tls 0 (datagram data) (38 + data.length)).ret = some n ∧
      38 + data.length + p.nonce_size + 2 ≤ n ∧
      L4Frame o (crypto_apply_from_policy p tls) (init_ctx o p.aes_bits p.key.toList) 0
        (datagram data) (38 + data.length) 14
        (encryptUnder o p tls 0 (datagram data) (38 + data.length)).pkt := by
  obtain ⟨hplain, hudp, -, -⟩ := datagram_plain hdata
  have hret := encryptUnder_ret ho p he 0 hplain hudp
  exact ⟨_, hret, by omega, (encryptUnder_frame ho h4 hplain hret (by omega)).2⟩

/-- Some datagram of some thread under the policy `p` is, on the wire, one of the policy `q`. -/
def TakenFor (o : Openssl) (p q : CryptoPolicy) : Prop :=
  ∃ tls data n, 4 ≤ data.length ∧
    (encryptUnder o p tls 0 (datagram data) (38 + data.length)).ret = some n ∧
    n ≠ 38 + data.length ∧
    fits (encryptUnder o p tls 0 (datagram data) (38 + data.length)).pkt n 38 q = true

/-- With a salt whose last bytes are like the header of `q`. -/
theorem takenFor_of_smaller {o : Openssl} (ho : o.Lawful) {p q : CryptoPolicy}
    (hp4 : 4 ≤ p.nonce_size) (hq4 : 4 ≤ q.nonce_size) (hq : q.action = .encrypt_l4)
    (hlt : q.nonce_size + 2 ≤ p.nonce_size) : TakenFor o p q := by
  let salt : Bytes := List.replicate (q.nonce_size - 4) 0 ++ [q.wire_id, CRYPTO_L4_TUNNEL_MAGIC]
  let tls : Tls := { nonce_salt := ofBytes salt }
  have hdata : 4 ≤ (List.replicate 4 (0 : UInt8)).length := by simp
  obtain ⟨-, -, hoff, -⟩ := datagram_plain hdata
  obtain ⟨n, hret, hn, hf⟩ := datagram_on_the_wire ho hp4 (show tls.evp_ok = true from rfl) hdata
  refine ⟨tls, _, n, hdata, hret, by omega, ?_⟩
  have hnonce := hf.tunnelled.sealed.nonce_at
  rw [hoff] at hnonce
  have hsalt : ∀ i, 4 + i < p.nonce_size →
      (encryptUnder o p tls 0 (datagram (List.replicate 4 0)) (38 + 4)).pkt (38 + (4 + i)) =
        salt.getD i 0 := by
    intro i hi
    have hr := getD_read (encryptUnder o p tls 0 (datagram (List.replicate 4 0)) (38 + 4)).pkt 38
      p.nonce_size (4 + i) hi
    rw [← hr]
    have hnonce' := congrArg (fun bs => bs.getD (4 + i) 0) hnonce
    exact hnonce'.trans (getD_crypto_generate_nonce _ _ _ hi)
  obtain ⟨h1, h2⟩ := getD_replicate_append_pair (q.nonce_size - 4) q.wire_id
    CRYPTO_L4_TUNNEL_MAGIC []
  have e1 := (hsalt (q.nonce_size - 4) (by omega)).trans h1
  have e2 := (hsalt (q.nonce_size - 4 + 1) (by omega)).trans h2
  rw [show 38 + (4 + (q.nonce_size - 4)) = 38 + q.nonce_size by omega] at e1
  rw [show 38 + (4 + (q.nonce_size - 4 + 1)) = 38 + q.nonce_size + 1 by omega] at e2
  exact fits_iff.mpr ⟨hq, by omega, by omega, e2, e1⟩

/-- With a ciphertext whose first bytes are like the header of `q`: the data is what this
ciphertext decrypts to. -/
theorem takenFor_of_larger {o : Openssl} (ho : o.Lawful) {p q : CryptoPolicy}
    (hp4 : 4 ≤ p.nonce_size) (hq : q.action = .encrypt_l4)
    (hlt : p.nonce_size + 2 ≤ q.nonce_size) : TakenFor o p q := by
  let k := q.nonce_size - p.nonce_size - 2
  let cipher : Bytes := List.replicate k 0 ++ [q.wire_id, CRYPTO_L4_TUNNEL_MAGIC, 0, 0]
  let tls : Tls := {}
  let data := (sealOf o (crypto_apply_from_policy p tls)
    (packet_crypto_get_key (init_ctx o p.aes_bits p.key.toList) .current)
    (next_nonce (crypto_apply_from_policy p tls) 0) cipher).1
  have hlen : data.length = k + 4 := by
    rw [length_sealOf_cipher ho]
    simp [cipher]
  obtain ⟨-, -, hoff, hpay⟩ := datagram_plain (show 4 ≤ data.length by omega)
  obtain ⟨n, hret, hn, hf⟩ := datagram_on_the_wire ho hp4 (show tls.evp_ok = true from rfl)
    (show 4 ≤ data.length by omega)
  refine ⟨tls, data, n, by omega, hret, by omega, ?_⟩
  have hcipher := hf.tunnelled.sealed.cipher_at
  unfold payloadOf at hpay
  rw [hpay, hoff, sealOf_sealOf_cipher ho] at hcipher
  have hbyte : ∀ i, i < data.length →
      (encryptUnder o p tls 0 (datagram data) (38 + data.length)).pkt
        (38 + p.nonce_size + 2 + i) = cipher.getD i 0 := by
    intro i hi
    rw [← hcipher]
    exact (getD_read _ _ _ i hi).symm
  obtain ⟨h1, h2⟩ := getD_replicate_append_pair k q.wire_id CRYPTO_L4_TUNNEL_MAGIC [0, 0]
  have e1 := (hbyte k (by omega)).trans h1
  have e2 := (hbyte (k + 1) (by omega)).trans h2
  rw [show 38 + p.nonce_size + 2 + k = 38 + q.nonce_size by omega] at e1
  rw [show 38 + p.nonce_size + 2 + (k + 1) = 38 + q.nonce_size + 1 by omega] at e2
  exact fits_iff.mpr ⟨hq, by omega, by omega, e2, e1⟩

/-- Nonce sizes that leave room for the header of one policy in the nonce or the data of the
other. -/
theorem takenFor_of_apart {o : Openssl} (ho : o.Lawful) {p q : CryptoPolicy}
    (hp4 : 4 ≤ p.nonce_size) (hq4 : 4 ≤ q.nonce_size) (hq : q.action = .encrypt_l4)
    (hapart : q.nonce_size + 2 ≤ p.nonce_size ∨ p.nonce_size + 2 ≤ q.nonce_size) :
    TakenFor o p q := by
  rcases hapart with hlt | hlt
  · exact takenFor_of_smaller ho hp4 hq4 hq hlt
  · exact takenFor_of_larger ho hp4 hq hlt

/-! ## Attribution -/

/-- A policy fits its own packets. -/
theorem own_packet_fits {o : Openssl} (ho : o.Lawful) {p : CryptoPolicy}
    (hl4 : p.action = .encrypt_l4) (h4 : 4 ≤ p.nonce_size) {tls : Tls} {counter : Nat}
    {packet : Buf} {pkt_len l3_off n : Nat} (hp : L4Plain packet pkt_len l3_off)
    (henc : (encryptUnder o p tls counter packet pkt_len).ret = some n) (hn : n ≠ pkt_len) :
    L4Plain (encryptUnder o p tls counter packet pkt_len).pkt n l3_off ∧
      plain_off_at (encryptUnder o p tls counter packet pkt_len).pkt l3_off =
        plain_off_at packet l3_off ∧
      fits (encryptUnder o p tls counter packet pkt_len).pkt n (plain_off_at packet l3_off) p =
        true := by
  have hfits := hp.fits
  have hpo : plain_off_at packet l3_off = l3_off + ip_hdr_len_at packet l3_off + 4 := rfl
  have hh : packet_crypto_get_tunnel_hdr_size (crypto_apply_from_policy p tls) =
    p.nonce_size + 2 := rfl
  obtain ⟨hlen, hf⟩ := encryptUnder_frame ho h4 hp henc hn
  obtain ⟨hplain, hoff⟩ := plain_of_frame (n := n) hf hp (by omega)
  exact ⟨hplain, hoff, fits_iff.mpr
    ⟨hl4, by omega, by omega, hf.tunnelled.type_byte, hf.tunnelled.policy_id⟩⟩

/-- The parser gives every packet of an L4 policy to that policy exactly when the L4 policies
before it in the list have its nonce size. -/
theorem l4_packets_are_attributed_iff_no_other_nonce_size_comes_before {o : Openssl}
    (ho : o.Lawful) {cfg : AppConfig} (hd : DistinctActionIds cfg.policies)
    (hns : ∀ q ∈ cfg.policies, q.nonce_size ∈ [4, 8, 12, 16]) {pi : Nat} {p : CryptoPolicy}
    (hp : cfg.policies[pi]? = some p) (hl4 : p.action = .encrypt_l4) :
    (∀ tls counter packet pkt_len l3_off n, L4Plain packet pkt_len l3_off →
      (encryptUnder o p tls counter packet pkt_len).ret = some n → n ≠ pkt_len →
      crypto_l4_extract_policy_id_ipv4 cfg (encryptUnder o p tls counter packet pkt_len).pkt n =
        some (p.wire_id, p.nonce_size)) ↔
    ∀ qi q, qi < pi → cfg.policies[qi]? = some q → q.action = .encrypt_l4 →
      q.nonce_size = p.nonce_size := by
  have hsize : ∀ q ∈ cfg.policies, q.nonce_size = 4 ∨ q.nonce_size = 8 ∨ q.nonce_size = 12 ∨
      q.nonce_size = 16 := by
    intro q hq
    simpa using hns q hq
  have hp4 := hsize p (List.mem_of_getElem? hp)
  constructor
  · intro h qi q hqi hq hql4
    by_contra hne
    have hq4 := hsize q (List.mem_of_getElem? hq)
    obtain ⟨tls, data, n, hdata, hret, hn, hfit⟩ := takenFor_of_apart ho (p := p) (q := q)
      (by omega) (by omega) hql4 (by omega)
    obtain ⟨hplain, -, hoff, -⟩ := datagram_plain hdata
    obtain ⟨hplain', hoff', hown⟩ := own_packet_fits ho hl4 (by omega) hplain hret hn
    have hext := h tls 0 _ _ 14 n hplain hret hn
    rw [extract_of_plain cfg hplain', hoff', hoff] at hext
    rw [hoff] at hown
    rw [(attributed_iff hd hp hown).mp hext qi q hqi hq] at hfit
    exact Bool.false_ne_true hfit
  · intro h tls counter packet pkt_len l3_off n hplain hret hn
    obtain ⟨hplain', hoff', hown⟩ := own_packet_fits ho hl4 (by omega) hplain hret hn
    rw [extract_of_plain cfg hplain', hoff']
    refine (attributed_iff hd hp hown).mpr fun qi q hqi hq => ?_
    rw [← Bool.not_eq_true]
    intro hfit
    obtain ⟨hql4, -, -, -, hqid⟩ := fits_iff.mp hfit
    obtain ⟨-, -, -, -, hpid⟩ := fits_iff.mp hown
    -- with one nonce size the id stands at one place
    rw [h qi q hqi hq hql4, hpid] at hqid
    have := hd.index_eq hq hp (hql4.trans hl4.symm) hqid.symm
    omega

/-- Policy 7, and policy 8 with nonces of 4 bytes. -/
def policy7 : CryptoPolicy := samplePolicy 7 .encrypt_l4
def policy8 : CryptoPolicy := { samplePolicy 8 .encrypt_l4 with nonce_size := 4 }

theorem the_packets_of_the_first_policy_are_attributed :
    (encryptUnder sampleOpenssl policy7 {} 0 (datagram [0x70, 0x69, 0x6e, 0x67]) 42).ret = some 72 ∧
      crypto_l4_extract_policy_id_ipv4 (sampleCfg [policy7, policy8] (by decide))
        (encryptUnder sampleOpenssl policy7 {} 0 (datagram [0x70, 0x69, 0x6e, 0x67]) 42).pkt 72 =
          some (7, 12) := by
  have hret : (encryptUnder sampleOpenssl policy7 {} 0 (datagram [0x70, 0x69, 0x6e, 0x67]) 42).ret =
      some 72 := by decide +kernel
  refine ⟨hret, ?_⟩
  exact (l4_packets_are_attributed_iff_no_other_nonce_size_comes_before sampleOpenssl_lawful
    (show DistinctActionIds (sampleCfg [policy7, policy8] (by decide)).policies by decide) (by decide)
    (show [policy7, policy8][0]? = some policy7 from rfl) rfl).mpr
    (fun _ _ hqi => absurd hqi (Nat.not_lt_zero _)) {} 0 _ 42 14 72 (datagram_plain (by decide)).1 hret
    (by decide)

/-- In the other order the packet goes to the policy whose id and magic the salt looks like. -/
theorem a_packet_is_attributed_to_the_policy_that_its_salt_names :
    ∃ r, r = encryptUnder sampleOpenssl policy7
        { nonce_salt := ofBytes [8, 0xa5, 0, 0, 0, 0, 0, 0] } 0 (ofBytes udpPing) 46 ∧
      r.ret = some 76 ∧
      crypto_l4_extract_policy_id_ipv4 (sampleCfg [policy8, policy7] (by decide)) r.pkt 76 =
        some (8, 4) :=
  ⟨_, rfl, by decide +kernel, by decide +kernel⟩

end ne_ip.l4_wire
