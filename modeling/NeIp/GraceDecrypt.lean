-- The laws of decryption while the previous policies have their grace: which
-- packets of a previous layer 4 policy come back, and what a first, failed try
-- with the current policy leaves of the others.
import NeIp.KeyLoop
import NeIp.Sample

open byte_buf ne_ip.packet_crypto ne_ip.tunnel ne_ip.config ne_ip.crypto_layer4
open ne_ip.crypto_dispatch ne_ip.forwarder ne_ip.sample

namespace ne_ip.grace_decrypt

/-! ## Layer 4 decryption in GCM mode, under whatever key -/

/-- A frame that looks like an encapsulated packet: its headers, and after the nonce some
bytes `x` where the ciphertext stands, and a tag. -/
structure L4Wire (out : Buf) (l3_off ihl ns : Nat) (nonce x tag : Bytes) (n : Nat) : Prop where
  offset : crypto_eth_ipv4_offset out n = some l3_off
  ihl_eq : ip_hdr_len_at out l3_off = ihl
  ihl_ge : 20 ≤ ihl
  proto : out (l3_off + 9) = 6 ∨ out (l3_off + 9) = 17
  header : l4_is_tunnel_header out (l3_off + ihl + 4) ns = true
  nonce_at : read out (l3_off + ihl + 4) ns = nonce
  bytes_at : read out (l3_off + ihl + 4 + (ns + 2)) x.length = x
  tag_at : read out (l3_off + ihl + 4 + (ns + 2) + x.length) 16 = tag
  len_eq : n = l3_off + ihl + 4 + (ns + 2) + x.length + 16

/-- A try that fails puts other bytes where the ciphertext was, and nothing else. -/
theorem L4Wire.overwrite {out : Buf} {l3_off ihl ns n : Nat} {nonce x tag y : Bytes}
    (h : L4Wire out l3_off ihl ns nonce x tag n) (hy : y.length = x.length) :
    L4Wire (write out (l3_off + ihl + 4 + (ns + 2)) y) l3_off ihl ns nonce y tag n := by
  have h20 := h.ihl_ge
  have hout : ∀ i, i < l3_off + ihl + 4 + (ns + 2) →
      write out (l3_off + ihl + 4 + (ns + 2)) y i = out i := fun i hi =>
    write_out _ _ _ _ (Or.inl hi)
  refine ⟨?_, ?_, h20, ?_, ?_, ?_, ?_, ?_, by rw [h.len_eq, hy]⟩
  · exact crypto_eth_ipv4_offset_congr h.offset (Nat.le_refl n) fun i hi => hout i (by omega)
  · unfold ip_hdr_len_at
    rw [hout l3_off (by omega)]
    exact h.ihl_eq
  · rw [hout _ (by omega)]
    exact h.proto
  · unfold l4_is_tunnel_header
    rw [hout _ (by omega), hout _ (by omega)]
    exact h.header
  · rw [read_write_apart _ _ _ _ _ (by omega)]
    exact h.nonce_at
  · exact read_write_self _ _ _ _ rfl
  · rw [read_write_apart _ _ _ _ _ (by omega), hy]
    exact h.tag_at

/-- What a decrypt puts into the frame when it takes `data` for the plaintext. -/
def opened (out : Buf) (l3_off ihl : Nat) (data : Bytes) : Buf :=
  patch_ipv4 (write out (l3_off + ihl + 4) data) l3_off ihl (ihl + 4 + data.length)

/-- Such a frame gets to AES. -/
theorem L4Wire.decrypt_eq (o : Openssl) {tls : Tls} {ctx : PacketCryptoCtx} {out : Buf}
    {l3_off ihl n : Nat} {nonce x tag : Bytes}
    (h : L4Wire out l3_off ihl tls.nonce_size nonce x tag n) (hi : ctx.initialized = true) :
    crypto_layer4_decrypt o tls ctx out n =
      open_tunnel_at o tls ctx out n l3_off ihl (l3_off + ihl + 4)
        (l3_off + ihl + 4 + (tls.nonce_size + 2)) := by
  have hh : packet_crypto_get_tunnel_hdr_size tls = tls.nonce_size + 2 := rfl
  have hL : L4_WIRE_PORT_LEN = 4 := rfl
  have h20 := h.ihl_ge
  have hlen := h.len_eq
  unfold crypto_layer4_decrypt
  rw [if_neg (by rw [hi]; decide), h.offset]
  dsimp only
  rw [h.ihl_eq, hh, hL, if_neg (by omega), if_neg (by rcases h.proto with h | h <;> simp [h]),
    if_neg (by omega), h.header,
    if_neg (by simp only [Bool.not_true, Bool.false_eq_true, or_false]; omega)]

/-- Layer 4 decryption with a context that has one key in its three slots, where AES runs under
`run`. Only a tag that fits gives a plaintext; a packet that is refused is left overwritten. -/
theorem L4Wire.decrypt {o : Openssl} (ho : o.Lawful) (tls : Tls) (ctx : PacketCryptoCtx)
    {out : Buf} {l3_off ihl n : Nat} {nonce x tag key run : Bytes}
    (h : L4Wire out l3_off ihl tls.nonce_size nonce x tag n) (hx : x ≠ [])
    (hm : tls.crypto_mode = .gcm) (he : tls.evp_ok = true) (hi : ctx.initialized = true)
    (hk : ∀ slot, (packet_crypto_get_key ctx slot).take (get_key_size tls.aes_bits) = key)
    (hr : dec_key tls ctx.key_current = run) :
    crypto_layer4_decrypt o tls ctx out n =
      if o.gcm_tag run nonce x = tag then
        (some (l3_off + ihl + 4 + x.length), opened
          (write out (l3_off + ihl + 4 + (tls.nonce_size + 2)) (o.gcm run nonce x)) l3_off ihl
          (o.gcm run nonce x))
      else if BACKUP_SIZE < x.length ∧ o.gcm_tag run nonce (o.gcm run nonce x) = tag then
        (some (l3_off + ihl + 4 + x.length), opened out l3_off ihl x)
      else
        (none, write out (l3_off + ihl + 4 + (tls.nonce_size + 2)) (o.gcm run nonce x)) := by
  have htag : tag_overhead tls = 16 := if_pos hm
  have hpos : 0 < x.length := List.length_pos_iff.mpr hx
  have hlen := h.len_eq
  have hset : ((dec_side tls ctx.key_current).set_up key tls.nonce_size).evp_key = run := by
    rw [← hk .current, ← hr]
    exact (run_key_gcm hm _ _).symm
  rw [h.decrypt_eq o hi]
  unfold open_tunnel_at decrypt_in_place
  dsimp only
  rw [h.nonce_at, htag, show n - (l3_off + ihl + 4 + (tls.nonce_size + 2)) = x.length + 16 by omega,
    if_neg (show ¬ x.length + 16 < 16 by omega), Nat.add_sub_cancel, h.tag_at,
    key_loop.try_keys_gcm ho hm he hk hset _ hpos out, h.bytes_at]
  have hS : (o.gcm run nonce x).length = x.length := ho.length_gcm _ _ _
  have htot : l3_off + ihl + 4 + x.length - l3_off = ihl + 4 + x.length := by omega
  by_cases h1 : o.gcm_tag run nonce x = tag
  · rw [if_pos h1, if_pos h1]
    dsimp only
    rw [read_write_self _ _ _ _ hS.symm, htot]
    unfold opened
    rw [hS]
  rw [if_neg h1, if_neg h1]
  by_cases h2 : BACKUP_SIZE < x.length ∧ o.gcm_tag run nonce (o.gcm run nonce x) = tag
  · rw [if_pos h2, if_pos h2]
    dsimp only
    rw [h.bytes_at, htot]
    rfl
  · rw [if_neg h2, if_neg h2]

/-- In CTR mode nothing is refused. -/
theorem L4Wire.decrypt_ctr (o : Openssl) (tls : Tls) (ctx : PacketCryptoCtx) {out : Buf}
    {l3_off ihl n : Nat} {nonce x tag : Bytes}
    (h : L4Wire out l3_off ihl tls.nonce_size nonce x tag n) (hm : tls.crypto_mode = .ctr)
    (he : tls.evp_ok = true) (hi : ctx.initialized = true) :
    ∃ m pkt', crypto_layer4_decrypt o tls ctx out n = (some m, pkt') ∧ m < n := by
  have htag : tag_overhead tls = 0 := if_neg (by rw [hm]; decide)
  have hlen := h.len_eq
  rw [h.decrypt_eq o hi]
  have haes : ∀ s key tag b, ∃ pkt', aes_decrypt o tls s key nonce tag (fun _ => true) b
      (l3_off + ihl + 4 + (tls.nonce_size + 2)) (x.length + 16) = (true, pkt') := by
    intro s key tag b
    unfold aes_decrypt crypto_aes_ctr_with_key
    rw [hm]
    dsimp only
    rw [if_neg (by omega), if_neg (by rw [he]; decide)]
    exact ⟨_, rfl⟩
  obtain ⟨pkt', hpkt⟩ := haes (dec_side tls ctx.key_current) ctx.key_current
    (read out (l3_off + ihl + 4 + (tls.nonce_size + 2) + (x.length + 16)) 0) out
  unfold open_tunnel_at decrypt_in_place
  dsimp only
  rw [h.nonce_at, htag, show n - (l3_off + ihl + 4 + (tls.nonce_size + 2)) = x.length + 16 by omega,
    if_neg (show ¬ x.length + 16 < 0 by omega), Nat.sub_zero, try_keys_current hpkt]
  exact ⟨_, _, rfl, by omega⟩

/-- What a decrypt returns tells how much it took off. -/
theorem crypto_layer4_decrypt_len {o : Openssl} {tls : Tls} {ctx : PacketCryptoCtx}
    {pkt pkt' : Buf} {n m : Nat} (h : crypto_layer4_decrypt o tls ctx pkt n = (some m, pkt')) :
    m = n ∨ m + (tls.nonce_size + 2 + tag_overhead tls) = n := by
  have hh : packet_crypto_get_tunnel_hdr_size tls = tls.nonce_size + 2 := rfl
  unfold crypto_layer4_decrypt at h
  split at h
  · simp at h
  split at h
  · exact Or.inl (Option.some.inj (Prod.mk.inj h).1).symm
  dsimp only at h
  split at h
  · simp at h
  split at h
  · exact Or.inl (Option.some.inj (Prod.mk.inj h).1).symm
  split at h
  · simp at h
  split at h
  · exact Or.inl (Option.some.inj (Prod.mk.inj h).1).symm
  rename_i henc
  rw [not_or] at henc
  unfold open_tunnel_at decrypt_in_place at h
  dsimp only at h
  split at h
  · simp at h
  rename_i hr
  split at hr
  · simp at hr
  split at hr
  · have hm := Option.some.inj (Prod.mk.inj h).1
    have hlen := Option.some.inj (Prod.mk.inj hr).1
    right
    omega
  · simp at hr

/-! ## The dispatch for layer 4 -/

/-- The check of the nonce size that a try for layer 4 makes. -/
def sizeIs (ns : Nat) (cp : CryptoPolicy) : Bool := cp.nonce_size != 0 && cp.nonce_size == ns

theorem sizeIs_self (cp : CryptoPolicy) (h : 0 < cp.nonce_size) :
    sizeIs cp.nonce_size cp = true := by
  unfold sizeIs
  simp only [Bool.and_eq_true, bne_iff_ne, beq_self_eq_true, and_true]
  omega

theorem sizeIs_eq {ns : Nat} {cp : CryptoPolicy} (h : sizeIs ns cp = true) : cp.nonce_size = ns := by
  unfold sizeIs at h
  simp only [Bool.and_eq_true, beq_iff_eq] at h
  exact h.2

theorem dispatch_l4 {o : Openssl} {magic : UInt8} {fake : Nat} {cfg : AppConfig}
    (dctx : CryptoDispatchCtx) (hne : cfg.policies ≠ []) (tls : Tls) (pkt : Buf)
    (n scratch_sz : Nat) :
    crypto_decrypt_packet_auto_by_action o magic fake true cfg dctx .encrypt_l4 tls pkt n
        scratch_sz =
      match crypto_l4_extract_policy_id_ipv4 cfg pkt n with
      | none => { ok := true, pkt, pkt_len := n, tls }
      | some (policy_id, nonce_size) =>
        try_current_then_prev (crypto_layer4_decrypt o) dctx .encrypt_l4 policy_id
          (sizeIs nonce_size) tls pkt n := by
  unfold crypto_decrypt_packet_auto_by_action
  rw [if_neg (by decide), if_neg hne]
  rfl

/-- The parse stops at a policy of layer 4 whose id stands after its nonce. -/
theorem crypto_l4_extract_some {cfg : AppConfig} {pkt : Buf} {n l3_off ns : Nat} {id : UInt8}
    (hoff : crypto_eth_ipv4_offset pkt n = some l3_off)
    (h : crypto_l4_extract_policy_id_ipv4 cfg pkt n = some (id, ns)) :
    ∃ cp ∈ cfg.policies, cp.action = .encrypt_l4 ∧ cp.wire_id = id ∧ cp.nonce_size = ns ∧
      pkt (l3_off + ip_hdr_len_at pkt l3_off + 4 + ns) = id := by
  unfold crypto_l4_extract_policy_id_ipv4 at h
  rw [hoff] at h
  dsimp only at h
  split at h
  · simp at h
  obtain ⟨cp, hfind, hcp⟩ := Option.map_eq_some_iff.mp h
  obtain ⟨rfl, rfl⟩ := Prod.mk.inj hcp
  have hfit := List.find?_some hfind
  simp only [Bool.and_eq_true, beq_iff_eq] at hfit
  exact ⟨cp, List.mem_of_find?_eq_some hfind, hfit.1.1.1.1, rfl, rfl, hfit.2⟩

/-- A try is a decrypt with a ready policy that is accepted, or nothing at all. -/
theorem try_tables_cases (decrypt : Decrypt) (t : PolicyTables) (a : PolicyAction) (id : UInt8)
    (accepts : CryptoPolicy → Bool) (tls : Tls) (pkt : Buf) (n : Nat) :
    try_tables decrypt t a id accepts tls pkt n = { ok := false, pkt, pkt_len := n, tls } ∨
    ∃ pi cp, lookup_policy_index t a id = some pi ∧ t.policies[pi]? = some cp ∧
      t.ready pi = true ∧ accepts cp = true ∧
      try_tables decrypt t a id accepts tls pkt n = try_policy decrypt cp (t.ctx pi) tls pkt n := by
  unfold try_tables
  split
  · exact Or.inl rfl
  rename_i pi hpi
  split
  · exact Or.inl rfl
  rename_i cp hcp
  split
  · rename_i hra
    rw [Bool.and_eq_true] at hra
    exact Or.inr ⟨pi, cp, hpi, hcp, hra.1, hra.2, rfl⟩
  · exact Or.inl rfl

/-- The tag that GCM adds, and CTR does not. -/
def tagOf (cp : CryptoPolicy) : Nat := if cp.crypto_mode = .gcm then 16 else 0

/-- A try with a policy takes its nonce and its tag off the packet, or leaves the length. -/
theorem try_policy_len (o : Openssl) (cp : CryptoPolicy) (ctx : PacketCryptoCtx) (tls : Tls)
    (pkt : Buf) (n : Nat) :
    ((try_policy (crypto_layer4_decrypt o) cp ctx tls pkt n).ok = true ∧
      (try_policy (crypto_layer4_decrypt o) cp ctx tls pkt n).pkt_len +
        (cp.nonce_size + 2 + tagOf cp) = n) ∨
    ((try_policy (crypto_layer4_decrypt o) cp ctx tls pkt n).ok = false ∧
      (try_policy (crypto_layer4_decrypt o) cp ctx tls pkt n).pkt_len = n) := by
  unfold try_policy
  dsimp only
  split
  · exact Or.inr ⟨rfl, rfl⟩
  rename_i m pkt' hdec
  split
  · left
    rcases crypto_layer4_decrypt_len hdec with h | h
    · omega
    · exact ⟨rfl, h⟩
  · exact Or.inr ⟨rfl, rfl⟩

theorem try_tables_len (o : Openssl) (t : PolicyTables) (id : UInt8) (ns : Nat) (tls : Tls)
    (pkt : Buf) (n : Nat) :
    ((try_tables (crypto_layer4_decrypt o) t .encrypt_l4 id (sizeIs ns) tls pkt n).ok = true ∧
      ∃ cp ∈ t.policies, cp.nonce_size = ns ∧
        (try_tables (crypto_layer4_decrypt o) t .encrypt_l4 id (sizeIs ns) tls pkt n).pkt_len +
          (ns + 2 + tagOf cp) = n) ∨
    ((try_tables (crypto_layer4_decrypt o) t .encrypt_l4 id (sizeIs ns) tls pkt n).ok = false ∧
      (try_tables (crypto_layer4_decrypt o) t .encrypt_l4 id (sizeIs ns) tls pkt n).pkt_len = n) := by
  rcases try_tables_cases (crypto_layer4_decrypt o) t .encrypt_l4 id (sizeIs ns) tls pkt n with
    h | ⟨pi, cp, -, hcp, -, hns, h⟩
  · rw [h]
    exact Or.inr ⟨rfl, rfl⟩
  · rw [h, ← sizeIs_eq hns]
    rcases try_policy_len o cp (t.ctx pi) tls pkt n with hok | hfail
    · exact Or.inl ⟨hok.1, cp, List.mem_of_getElem? hcp, rfl, hok.2⟩
    · exact Or.inr hfail

/-- The policy that took something off the packet is one of the two tables', and has the
nonce size that was asked for. -/
theorem try_current_then_prev_len {o : Openssl} {dctx : CryptoDispatchCtx} {id : UInt8}
    {ns : Nat} {tls : Tls} {pkt : Buf} {n : Nat}
    (h : (try_current_then_prev (crypto_layer4_decrypt o) dctx .encrypt_l4 id (sizeIs ns) tls pkt
      n).ok = true) :
    ∃ cp, (cp ∈ dctx.active.policies ∨ cp ∈ dctx.prev.policies) ∧ cp.nonce_size = ns ∧
      (try_current_then_prev (crypto_layer4_decrypt o) dctx .encrypt_l4 id (sizeIs ns) tls pkt
        n).pkt_len + (ns + 2 + tagOf cp) = n := by
  unfold try_current_then_prev at h ⊢
  dsimp only at h ⊢
  rcases try_tables_len o dctx.active id ns tls pkt n with ⟨hok, cp, hcp, hns, hlen⟩ | ⟨hno, hlen1⟩
  · rw [if_pos hok]
    exact ⟨cp, Or.inl hcp, hns, hlen⟩
  rw [if_neg (by rw [hno]; decide)] at h ⊢
  rw [hlen1] at h ⊢
  split at h
  · rename_i hprev
    rw [if_pos hprev]
    generalize try_tables (crypto_layer4_decrypt o) dctx.active .encrypt_l4 id (sizeIs ns) tls pkt
      n = r at h ⊢
    rcases try_tables_len o dctx.prev id ns r.tls r.pkt n with
      ⟨-, cp, hcp, hns, hlen⟩ | ⟨hno', -⟩
    · exact ⟨cp, Or.inr hcp, hns, hlen⟩
    · rw [hno'] at h
      simp at h
  · rw [hno] at h
    simp at h

/-! ## A packet of a previous policy -/

/-- The keys that AES runs under when a thread seals a packet under a policy, and when it tries the
policy on one. -/
def sealKey (o : Openssl) (cp : CryptoPolicy) (tls : Tls) : Bytes :=
  enc_key (crypto_apply_from_policy cp tls) (init_ctx o cp.aes_bits cp.key.toList).key_current

def openKey (o : Openssl) (cp : CryptoPolicy) (tls : Tls) : Bytes :=
  dec_key (crypto_apply_from_policy cp tls) (init_ctx o cp.aes_bits cp.key.toList).key_current

/-- `crypto_layer4_encrypt` on a thread that has taken over policy `q`, whose context is
ready. -/
def encryptUnder (o : Openssl) (q : CryptoPolicy) (tls : Tls) (counter : Nat) (packet : Buf)
    (pkt_len : Nat) : EncResult :=
  crypto_layer4_encrypt o (crypto_apply_from_policy q tls) (init_ctx o q.aes_bits q.key.toList)
    counter packet pkt_len

/-- The bytes of a packet that layer 4 encrypts: what follows the ports. -/
def payloadOf (packet : Buf) (pkt_len l3_off : Nat) : Bytes :=
  read packet (plain_off_at packet l3_off) (pkt_len - plain_off_at packet l3_off)

theorem length_payloadOf (packet : Buf) (pkt_len l3_off : Nat) :
    (payloadOf packet pkt_len l3_off).length = pkt_len - plain_off_at packet l3_off :=
  length_read _ _ _

/-- An encapsulated packet: its length on the wire, and the frame. -/
theorem encryptUnder_frame {o : Openssl} (ho : o.Lawful) {q : CryptoPolicy}
    (h4 : 4 ≤ q.nonce_size) {tls : Tls} {counter : Nat} {packet : Buf} {pkt_len l3_off n : Nat}
    (hp : L4Plain packet pkt_len l3_off)
    (henc : (encryptUnder o q tls counter packet pkt_len).ret = some n) (hn : n ≠ pkt_len) :
    n = pkt_len + (packet_crypto_get_tunnel_hdr_size (crypto_apply_from_policy q tls) +
      tag_overhead (crypto_apply_from_policy q tls)) ∧
    L4Frame o (crypto_apply_from_policy q tls) (init_ctx o q.aes_bits q.key.toList) counter packet
      pkt_len l3_off (encryptUnder o q tls counter packet pkt_len).pkt := by
  have hfits := hp.fits
  unfold encryptUnder at henc ⊢
  rcases crypto_layer4_encrypt_cases ho (crypto_apply_from_policy q tls)
    (init_ctx o q.aes_bits q.key.toList) counter packet pkt_len h4 (by
      intro off hoff
      obtain rfl := Option.some.inj (hp.offset.symm.trans hoff)
      omega) with hnone | ⟨hsome, -, -⟩ | ⟨off, hp', -, hsome, hf⟩
  · rw [hnone] at henc
    simp at henc
  · rw [hsome] at henc
    exact absurd (Option.some.inj henc).symm hn
  · obtain rfl := Option.some.inj (hp.offset.symm.trans hp'.offset)
    rw [hsome] at henc
    exact ⟨(Option.some.inj henc).symm, hf⟩

/-- The nonce of a packet that is encrypted under a policy. -/
def nonceUnder (q : CryptoPolicy) (tls : Tls) (counter : Nat) : Bytes :=
  next_nonce (crypto_apply_from_policy q tls) counter

def cipherUnder (o : Openssl) (key nonce data : Bytes) : Bytes := o.gcm key nonce data

def tagUnder (o : Openssl) (key nonce data : Bytes) : Bytes :=
  o.gcm_tag key nonce (cipherUnder o key nonce data)

theorem sealOf_gcm (o : Openssl) {q : CryptoPolicy} (hgcm : q.crypto_mode = .gcm) (tls : Tls)
    (nonce : Bytes) {data : Bytes} (hd : data ≠ []) :
    sealOf o (crypto_apply_from_policy q tls)
        (packet_crypto_get_key (init_ctx o q.aes_bits q.key.toList) .current) nonce data =
      (cipherUnder o (sealKey o q tls) nonce data, tagUnder o (sealKey o q tls) nonce data) := by
  have hmode : (crypto_apply_from_policy q tls).crypto_mode = .gcm := hgcm
  unfold sealOf
  rw [hmode]
  dsimp only
  rw [if_neg hd]
  rfl

/-- The frame of an encapsulated packet, in GCM mode: the ciphertext and its tag. -/
theorem wire_of_frame {o : Openssl} (ho : o.Lawful) {q : CryptoPolicy} (hgcm : q.crypto_mode = .gcm)
    {tls : Tls} {counter : Nat} {packet out : Buf} {pkt_len l3_off n : Nat}
    (h4 : 4 ≤ q.nonce_size) (hp : L4Plain packet pkt_len l3_off)
    (hf : L4Frame o (crypto_apply_from_policy q tls) (init_ctx o q.aes_bits q.key.toList) counter
      packet pkt_len l3_off out)
    (hn : n = pkt_len + (packet_crypto_get_tunnel_hdr_size (crypto_apply_from_policy q tls) +
      tag_overhead (crypto_apply_from_policy q tls))) :
    L4Wire out l3_off (ip_hdr_len_at packet l3_off) q.nonce_size (nonceUnder q tls counter)
      (cipherUnder o (sealKey o q tls) (nonceUnder q tls counter) (payloadOf packet pkt_len l3_off))
      (tagUnder o (sealKey o q tls) (nonceUnder q tls counter) (payloadOf packet pkt_len l3_off))
      n := by
  have hh : packet_crypto_get_tunnel_hdr_size (crypto_apply_from_policy q tls) = q.nonce_size + 2 :=
    rfl
  have htag : tag_overhead (crypto_apply_from_policy q tls) = 16 := if_pos hgcm
  have hpo : plain_off_at packet l3_off = l3_off + ip_hdr_len_at packet l3_off + 4 := rfl
  have hlen := length_payloadOf packet pkt_len l3_off
  have h20 := hp.ihl
  have hfits := hp.fits
  have hd : payloadOf packet pkt_len l3_off ≠ [] := by
    intro hd
    rw [hd, List.length_nil] at hlen
    omega
  obtain ⟨hoff, hihl, hpr⟩ := hf.parse (n := n) hp (by omega)
  have hs := hf.tunnelled.sealed
  have hc : (cipherUnder o (sealKey o q tls) (nonceUnder q tls counter)
    (payloadOf packet pkt_len l3_off)).length = (payloadOf packet pkt_len l3_off).length :=
    ho.length_gcm _ _ _
  have hseal := sealOf_gcm o hgcm tls (nonceUnder q tls counter) hd
  refine ⟨hoff, hihl, h20, by rw [hpr]; exact hp.proto, ?_, hs.nonce_at, ?_, ?_, by omega⟩
  · unfold l4_is_tunnel_header
    have ht := hf.tunnelled.type_byte
    rw [← hpo, show q.nonce_size = (crypto_apply_from_policy q tls).nonce_size from rfl, ht,
      decide_eq_true (hf.tunnelled.first_lt h4)]
    rfl
  · rw [hc]
    exact hs.cipher_at.trans (congrArg Prod.fst hseal)
  · rw [hc, ← htag]
    exact hs.tag_at.trans (congrArg Prod.snd hseal)

/-! ## What comes back -/

/-- The dispatch returns 0 and leaves the sender's packet. -/
structure Recovered (packet : Buf) (pkt_len : Nat) (r : DispatchResult) : Prop where
  ok : r.ok = true
  len : r.pkt_len = pkt_len
  restored : ∀ i, i < pkt_len → r.pkt i = packet i

/-- GCM under a key that a tag was not made under: it reports failure, also on the bytes that a
first failure leaves. -/
structure Refuses (o : Openssl) (key nonce x tag : Bytes) : Prop where
  refused : o.gcm_tag key nonce x ≠ tag
  refused_again : o.gcm_tag key nonce (o.gcm key nonce x) ≠ tag

/-- GCM under a key that is not the one that some data was sealed under: besides, what it puts in
place of the ciphertext is neither the ciphertext nor the plaintext. -/
structure WrongKey (o : Openssl) (key right nonce data : Bytes) : Prop where
  refuses : Refuses o key nonce (cipherUnder o right nonce data) (tagUnder o right nonce data)
  overwritten : o.gcm key nonce (cipherUnder o right nonce data) ≠ cipherUnder o right nonce data
  garbled : o.gcm key nonce (cipherUnder o right nonce data) ≠ data

/-- A thread whose AES would run under another key than `right` for policy `q` refuses the packet
with it, as the packet comes and as a failed try with a current policy of its id leaves it. -/
def StaleRefuses (o : Openssl) (cfg : AppConfig) (q : CryptoPolicy) (right : Bytes) (tls : Tls)
    (nonce data : Bytes) : Prop :=
  openKey o q tls ≠ right → ∀ x, (x = cipherUnder o right nonce data ∨
      ∃ p ∈ cfg.policies, p.wire_id = q.wire_id ∧
        x = o.gcm (openKey o p tls) nonce (cipherUnder o right nonce data)) →
    Refuses o (openKey o q tls) nonce x (tagUnder o right nonce data)

/-- A try with a GCM policy on a frame of its nonce size. -/
theorem L4Wire.try_policy_eq {o : Openssl} (ho : o.Lawful) {cp : CryptoPolicy}
    (hgcm : cp.crypto_mode = .gcm) {out : Buf} {l3_off ihl n : Nat} {nonce x tag : Bytes}
    (h : L4Wire out l3_off ihl cp.nonce_size nonce x tag n) (hx : x ≠ []) {tls : Tls}
    (he : tls.evp_ok = true) :
    try_policy (crypto_layer4_decrypt o) cp (init_ctx o cp.aes_bits cp.key.toList) tls out n =
      if o.gcm_tag (openKey o cp tls) nonce x = tag then
        { ok := true
          pkt := opened (write out (l3_off + ihl + 4 + (cp.nonce_size + 2))
            (o.gcm (openKey o cp tls) nonce x)) l3_off ihl (o.gcm (openKey o cp tls) nonce x)
          pkt_len := l3_off + ihl + 4 + x.length
          tls := crypto_apply_from_policy cp tls }
      else if BACKUP_SIZE < x.length ∧
          o.gcm_tag (openKey o cp tls) nonce (o.gcm (openKey o cp tls) nonce x) = tag then
        { ok := true
          pkt := opened out l3_off ihl x
          pkt_len := l3_off + ihl + 4 + x.length
          tls := crypto_apply_from_policy cp tls }
      else
        { ok := false
          pkt := write out (l3_off + ihl + 4 + (cp.nonce_size + 2)) (o.gcm (openKey o cp tls) nonce x)
          pkt_len := n
          tls := crypto_apply_from_policy cp tls } := by
  have hm : l3_off + ihl + 4 + x.length < n := by
    have := h.len_eq
    omega
  have hdec := h.decrypt ho (crypto_apply_from_policy cp tls)
    (init_ctx o cp.aes_bits cp.key.toList) hx hgcm he rfl
    (take_get_key_init_ctx ho cp.aes_bits cp.key.toList)
    (show _ = openKey o cp tls from rfl)
  unfold try_policy
  dsimp only
  rw [hdec]
  by_cases h1 : o.gcm_tag (openKey o cp tls) nonce x = tag
  · rw [if_pos h1, if_pos h1]
    exact if_pos hm
  rw [if_neg h1, if_neg h1]
  by_cases h2 : BACKUP_SIZE < x.length ∧
      o.gcm_tag (openKey o cp tls) nonce (o.gcm (openKey o cp tls) nonce x) = tag
  · rw [if_pos h2, if_pos h2]
    exact if_pos hm
  · rw [if_neg h2, if_neg h2]
    rfl

theorem read_opened (b : Buf) (l3_off ihl : Nat) (data : Bytes) (h : 20 ≤ ihl) :
    read (opened b l3_off ihl data) (l3_off + ihl + 4) data.length = data := by
  unfold opened
  rw [read_congr (c := write b (l3_off + ihl + 4) data) fun i h1 _ =>
    patch_ipv4_out _ _ _ _ i (by omega) (by omega)]
  exact read_write_self _ _ _ _ rfl

/-- On a packet whose ciphertext was overwritten by other bytes `y`, the right key does not
bring the plaintext back. -/
theorem not_recovered_of_overwritten {o : Openssl} (ho : o.Lawful) {q : CryptoPolicy}
    (hgcm : q.crypto_mode = .gcm) {packet out : Buf} {pkt_len l3_off n : Nat} {nonce tag y : Bytes}
    (hp : L4Plain packet pkt_len l3_off)
    (hw : L4Wire out l3_off (ip_hdr_len_at packet l3_off) q.nonce_size nonce y tag n)
    (hlen : y.length = (payloadOf packet pkt_len l3_off).length)
    {tls : Tls} (hy : y ≠ cipherUnder o (openKey o q tls) nonce (payloadOf packet pkt_len l3_off))
    (hy' : y ≠ payloadOf packet pkt_len l3_off) (he : tls.evp_ok = true) :
    ¬ Recovered packet pkt_len (try_policy (crypto_layer4_decrypt o) q
      (init_ctx o q.aes_bits q.key.toList) tls out n) := by
  intro hrec
  have hdata := length_payloadOf packet pkt_len l3_off
  have hpo : plain_off_at packet l3_off = l3_off + ip_hdr_len_at packet l3_off + 4 := rfl
  have hfits := hp.fits
  have h20 := hp.ihl
  have hne : y ≠ [] := by
    intro hy0
    rw [hy0, List.length_nil] at hlen
    omega
  have hback : read (try_policy (crypto_layer4_decrypt o) q (init_ctx o q.aes_bits q.key.toList)
      tls out n).pkt (plain_off_at packet l3_off) y.length = payloadOf packet pkt_len l3_off := by
    rw [hlen, hdata]
    exact read_congr fun i _ h2 => hrec.restored i (by omega)
  have hok := hrec.ok
  have hS : (o.gcm (openKey o q tls) nonce y).length = y.length := ho.length_gcm _ _ _
  rw [hw.try_policy_eq ho hgcm hne he] at hback hok
  by_cases h1 : o.gcm_tag (openKey o q tls) nonce y = tag
  · -- the tag fits the other bytes: they are deciphered, and not to the plaintext
    rw [if_pos h1, hpo, ← hS, read_opened _ _ _ _ h20] at hback
    apply hy
    unfold cipherUnder
    rw [← hback, ho.gcm_gcm]
  rw [if_neg h1] at hback hok
  by_cases h2 : BACKUP_SIZE < y.length ∧
      o.gcm_tag (openKey o q tls) nonce (o.gcm (openKey o q tls) nonce y) = tag
  · -- the second turn undoes the first and takes the other bytes for the plaintext
    rw [if_pos h2, hpo, read_opened _ _ _ _ h20] at hback
    exact hy' hback
  · rw [if_neg h2] at hok
    simp at hok

/-- Under a key that refuses what stands in the packet nothing comes back. -/
theorem not_recovered_of_refused {o : Openssl} (ho : o.Lawful) {q : CryptoPolicy}
    (hgcm : q.crypto_mode = .gcm) {packet out : Buf} {pkt_len l3_off ihl n : Nat}
    {nonce tag x : Bytes} (hw : L4Wire out l3_off ihl q.nonce_size nonce x tag n) (hx : x ≠ [])
    {tls : Tls} (he : tls.evp_ok = true) (hr : Refuses o (openKey o q tls) nonce x tag) :
    ¬ Recovered packet pkt_len (try_policy (crypto_layer4_decrypt o) q
      (init_ctx o q.aes_bits q.key.toList) tls out n) := by
  intro hrec
  have hok := hrec.ok
  rw [hw.try_policy_eq ho hgcm hx he, if_neg hr.refused, if_neg fun h => hr.refused_again h.2] at hok
  simp at hok

/-- The configuration, the current and the previous tables at a moment of the grace. Both
lists of policies are as the database layer merges them. -/
structure InGrace (o : Openssl) (cfg : AppConfig) (dctx : CryptoDispatchCtx)
    (prev : List CryptoPolicy) : Prop where
  enabled : cfg.crypto_enabled = !cfg.policies.isEmpty
  active : TablesOf o cfg.policies dctx.active
  active_ids : DistinctWireIds cfg.policies
  prev_tables : TablesOf o prev dctx.prev
  prev_ids : DistinctWireIds prev
  grace : dctx.prev_grace_active = true
  nonce_sizes : ∀ cp, cp ∈ cfg.policies ∨ cp ∈ prev → 4 ≤ cp.nonce_size ∧ cp.nonce_size ≤ 16

/-- A second init with crypto on, and the minute after it. -/
theorem inGrace_of_init {o : Openssl} {tls : Tls} {t0 now : Nat} {cfg : AppConfig}
    {rt rt' : Runtime} (hact : TablesOf o rt.active.policies rt.active)
    (hinit : init_crypto o tls t0 cfg rt = (true, rt')) (hne : cfg.policies ≠ [])
    (hold : rt.active.policies ≠ []) (hen : cfg.crypto_enabled = true)
    (hids : DistinctWireIds cfg.policies) (hids' : DistinctWireIds rt.active.policies)
    (hsizes : ∀ cp, cp ∈ cfg.policies ∨ cp ∈ rt.active.policies →
      4 ≤ cp.nonce_size ∧ cp.nonce_size ≤ 16)
    (ht0 : t0 + POLICY_RELOAD_GRACE_MS < 2 ^ 64) (hnow : t0 < now)
    (hnow' : now ≤ t0 + POLICY_RELOAD_GRACE_MS) :
    InGrace o cfg (dispatch_ctx rt' now) rt.active.policies := by
  obtain ⟨hpol, hactive, hprev, huntil⟩ := init_crypto_some hinit hen
  have ht : TablesOf o cfg.policies
      (rebuild_crypto_runtime o tls cfg { rt with nonce_counter := 0 }).1.active :=
    rebuild_crypto_runtime_tablesOf tls cfg hact.ctx_eq
  have hold' : rt.active.policies.isEmpty = false := List.isEmpty_eq_false_iff.mpr hold
  unfold snapshot_prev at hprev huntil
  rw [hold', if_neg Bool.false_ne_true] at hprev huntil
  rw [Nat.mod_eq_of_lt ht0] at huntil
  refine ⟨?_, ?_, hids, ?_, hids', ?_, hsizes⟩
  · rw [hen, List.isEmpty_eq_false_iff.mpr hne]
    rfl
  · unfold dispatch_ctx
    rw [hactive, hpol]
    exact ⟨rfl, ht.ctx_eq, ht.index_eq⟩
  · unfold dispatch_ctx
    rw [hprev]
    exact hact
  · unfold dispatch_ctx prev_policy_grace_active
    rw [hprev, huntil, hold']
    have h1 : (now != 0) = true := by simp only [bne_iff_ne]; omega
    have h2 : (t0 + POLICY_RELOAD_GRACE_MS != 0) = true := by
      simp only [bne_iff_ne]
      unfold POLICY_RELOAD_GRACE_MS
      omega
    rw [h1, h2, decide_eq_true hnow']
    rfl

theorem lookup_policy_index_some {o : Openssl} {policies : List CryptoPolicy} {t : PolicyTables}
    (ht : TablesOf o policies t) {a : PolicyAction} {id : UInt8} {pi : Nat}
    (h : lookup_policy_index t a id = some pi) :
    ∃ cp, policies[pi]? = some cp ∧ cp.action = a ∧ cp.wire_id = id := by
  have hfind : ∀ j, (t.policies.findIdx? fun cp => cp.action == a && cp.wire_id == id) = some j →
      ∃ cp, policies[j]? = some cp ∧ cp.action = a ∧ cp.wire_id = id := by
    intro j hj
    rw [ht.policies_eq, List.findIdx?_eq_some_iff_getElem] at hj
    obtain ⟨hlt, hmatch, -⟩ := hj
    simp only [Bool.and_eq_true, beq_iff_eq] at hmatch
    exact ⟨policies[j], List.getElem?_eq_getElem hlt, hmatch.1, hmatch.2⟩
  unfold lookup_policy_index at h
  split at h
  · rename_i pi' hidx
    split at h
    · obtain rfl := Option.some.inj h
      exact ht.index_eq a id pi' hidx
    · exact hfind pi h
  · exact hfind pi h

/-- Without a ready policy of the id the try with the current ones does nothing. -/
theorem try_current_of_unready {o : Openssl} {dctx : CryptoDispatchCtx} {id : UInt8} {ns : Nat}
    {tls : Tls} {out : Buf} {n : Nat}
    (hno : ∀ pi, lookup_policy_index dctx.active .encrypt_l4 id = some pi →
      dctx.active.ready pi = false) :
    try_tables (crypto_layer4_decrypt o) dctx.active .encrypt_l4 id (sizeIs ns) tls out n =
      { ok := false, pkt := out, pkt_len := n, tls } := by
  rcases try_tables_cases (crypto_layer4_decrypt o) dctx.active .encrypt_l4 id (sizeIs ns) tls out
    n with h | ⟨pi, cp, hpi, -, hr, -, -⟩
  · exact h
  · rw [hno pi hpi] at hr
    simp at hr

/-- When no current policy takes the packet, the previous one gets it as it came. -/
theorem recovered_by_the_previous_policy {o : Openssl} (ho : o.Lawful) {cfg : AppConfig}
    {dctx : CryptoDispatchCtx} {prev : List CryptoPolicy} (hg : InGrace o cfg dctx prev)
    {qi : Nat} {q : CryptoPolicy} (hq : prev[qi]? = some q) (hl4 : q.action = .encrypt_l4)
    (hready : dctx.prev.ready qi = true) {stls tls : Tls} (he : tls.evp_ok = true)
    {counter : Nat} {packet out : Buf} {pkt_len l3_off : Nat} (hp : L4Plain packet pkt_len l3_off)
    (hf : L4Frame o (crypto_apply_from_policy q stls) (init_ctx o q.aes_bits q.key.toList) counter
      packet pkt_len l3_off out)
    (hk : openKey o q tls = sealKey o q stls)
    (hno : ∀ pi, lookup_policy_index dctx.active .encrypt_l4 q.wire_id = some pi →
      dctx.active.ready pi = false) :
    ∃ pkt', try_current_then_prev (crypto_layer4_decrypt o) dctx .encrypt_l4 q.wire_id
        (sizeIs q.nonce_size) tls out
        (pkt_len + (packet_crypto_get_tunnel_hdr_size (crypto_apply_from_policy q stls) +
          tag_overhead (crypto_apply_from_policy q stls))) =
        { ok := true, pkt := pkt', pkt_len := pkt_len, tls := crypto_apply_from_policy q tls } ∧
      ∀ i, i < pkt_len → pkt' i =
        patch_ipv4 packet l3_off (ip_hdr_len_at packet l3_off) (pkt_len - l3_off) i := by
  have hh : packet_crypto_get_tunnel_hdr_size (crypto_apply_from_policy q stls) =
    q.nonce_size + 2 := rfl
  have h4 := (hg.nonce_sizes q (Or.inr (List.mem_of_getElem? hq))).1
  have hctx := hg.prev_tables.ctx_eq qi q hq hready
  obtain ⟨pkt', hdec, hback⟩ := crypto_layer4_decrypt_frame ho
    (crypto_apply_from_policy q tls) (dctx.prev.ctx qi) hf hp ⟨rfl, rfl⟩ rfl h4 he
    (by rw [hctx]; exact hk) (by rw [hctx]; rfl)
  generalize hn : pkt_len + (packet_crypto_get_tunnel_hdr_size (crypto_apply_from_policy q stls) +
    tag_overhead (crypto_apply_from_policy q stls)) = n at hdec ⊢
  have hcur : try_tables (crypto_layer4_decrypt o) dctx.active .encrypt_l4 q.wire_id
      (sizeIs q.nonce_size) tls out n = { ok := false, pkt := out, pkt_len := n, tls } :=
    try_current_of_unready hno
  have hsize := sizeIs_self q (by omega)
  have hempty : dctx.prev.policies.isEmpty = false := by
    rw [hg.prev_tables.policies_eq, List.isEmpty_eq_false_iff]
    exact List.ne_nil_of_mem (List.mem_of_getElem? hq)
  have hprev : try_tables (crypto_layer4_decrypt o) dctx.prev .encrypt_l4 q.wire_id
      (sizeIs q.nonce_size) tls out n =
      { ok := true, pkt := pkt', pkt_len := pkt_len, tls := crypto_apply_from_policy q tls } := by
    rw [← hl4, try_tables_eq hg.prev_tables hg.prev_ids hq hready hsize]
    unfold try_policy
    dsimp only
    rw [hdec]
    exact if_pos (by omega)
  refine ⟨pkt', ?_, hback⟩
  unfold try_current_then_prev
  dsimp only
  rw [hcur, if_neg Bool.false_ne_true, hg.grace, hempty]
  exact hprev

/-- The try with the previous policy. -/
theorem try_prev_eq {o : Openssl} {cfg : AppConfig} {dctx : CryptoDispatchCtx}
    {prev : List CryptoPolicy} (hg : InGrace o cfg dctx prev) {qi : Nat} {q : CryptoPolicy}
    (hq : prev[qi]? = some q) (hl4 : q.action = .encrypt_l4)
    (hready : dctx.prev.ready qi = true) (tls : Tls) (pkt : Buf) (n : Nat) :
    try_tables (crypto_layer4_decrypt o) dctx.prev .encrypt_l4 q.wire_id (sizeIs q.nonce_size) tls
        pkt n =
      try_policy (crypto_layer4_decrypt o) q (init_ctx o q.aes_bits q.key.toList) tls pkt n := by
  have h4 := (hg.nonce_sizes q (Or.inr (List.mem_of_getElem? hq))).1
  rw [← hl4, try_tables_eq hg.prev_tables hg.prev_ids hq hready (sizeIs_self _ (by omega)),
    hg.prev_tables.ctx_eq qi q hq hready]

/-- CTR refuses nothing, and takes the tag for ciphertext. -/
theorem taken_by_ctr {o : Openssl} {cp : CryptoPolicy} {ctx : PacketCryptoCtx} {tls : Tls}
    {out : Buf} {l3_off ihl n pkt_len : Nat} {nonce cipher tag : Bytes}
    (hw : L4Wire out l3_off ihl cp.nonce_size nonce cipher tag n) (hm : cp.crypto_mode = .ctr)
    (he : tls.evp_ok = true) (hctx : ctx.initialized = true)
    (hn : n = pkt_len + (cp.nonce_size + 2 + 16)) :
    (try_policy (crypto_layer4_decrypt o) cp ctx tls out n).ok = true ∧
      (try_policy (crypto_layer4_decrypt o) cp ctx tls out n).pkt_len ≠ pkt_len := by
  obtain ⟨m, pkt', hdec, hlt⟩ := hw.decrypt_ctr o (crypto_apply_from_policy cp tls) ctx hm he hctx
  have htry : (try_policy (crypto_layer4_decrypt o) cp ctx tls out n).ok = true := by
    unfold try_policy
    dsimp only
    rw [hdec]
    dsimp only
    rw [if_pos hlt]
  have htag : tagOf cp = 0 := if_neg (by rw [hm]; decide)
  refine ⟨htry, fun hlen => ?_⟩
  rcases try_policy_len o cp ctx tls out n with ⟨-, h⟩ | ⟨h, -⟩
  · rw [hlen] at h
    omega
  · rw [htry] at h
    simp at h

/-- A ready current policy of the same id takes the packet and does not give it back. -/
theorem lost_to_a_current_policy {o : Openssl} (ho : o.Lawful) {cfg : AppConfig}
    {dctx : CryptoDispatchCtx} {prev : List CryptoPolicy} (hg : InGrace o cfg dctx prev)
    {qi : Nat} {q : CryptoPolicy} (hq : prev[qi]? = some q) (hl4 : q.action = .encrypt_l4)
    (hgcm : q.crypto_mode = .gcm) (hready : dctx.prev.ready qi = true) {tls : Tls}
    (he : tls.evp_ok = true) {packet out : Buf} {pkt_len l3_off n : Nat} {nonce right : Bytes}
    (hp : L4Plain packet pkt_len l3_off)
    (hw : L4Wire out l3_off (ip_hdr_len_at packet l3_off) q.nonce_size nonce
      (cipherUnder o right nonce (payloadOf packet pkt_len l3_off))
      (tagUnder o right nonce (payloadOf packet pkt_len l3_off)) n)
    (hn : n = pkt_len + (q.nonce_size + 2 + 16))
    (hcur : ∀ p ∈ cfg.policies, p.wire_id = q.wire_id → p.nonce_size = q.nonce_size ∧
      WrongKey o (openKey o p tls) right nonce (payloadOf packet pkt_len l3_off))
    (hstale : StaleRefuses o cfg q right tls nonce (payloadOf packet pkt_len l3_off))
    {pi : Nat} (hpi : lookup_policy_index dctx.active .encrypt_l4 q.wire_id = some pi)
    (hr : dctx.active.ready pi = true) :
    ¬ Recovered packet pkt_len (try_current_then_prev (crypto_layer4_decrypt o) dctx .encrypt_l4
      q.wire_id (sizeIs q.nonce_size) tls out n) := by
  have h4 := (hg.nonce_sizes q (Or.inr (List.mem_of_getElem? hq))).1
  obtain ⟨cp, hcp, hact, hid⟩ := lookup_policy_index_some hg.active hpi
  obtain ⟨hns, hwrong⟩ := hcur cp (List.mem_of_getElem? hcp) hid
  have hfirst : try_tables (crypto_layer4_decrypt o) dctx.active .encrypt_l4 q.wire_id
      (sizeIs q.nonce_size) tls out n = try_policy (crypto_layer4_decrypt o) cp
        (init_ctx o cp.aes_bits cp.key.toList) tls out n := by
    rw [← hact, ← hid, ← hns, try_tables_eq hg.active hg.active_ids hcp hr (sizeIs_self _ (by omega)),
      hg.active.ctx_eq pi cp hcp hr]
  have hlen : (cipherUnder o right nonce (payloadOf packet pkt_len l3_off)).length =
    (payloadOf packet pkt_len l3_off).length := ho.length_gcm _ _ _
  have hdata := length_payloadOf packet pkt_len l3_off
  have hpo : plain_off_at packet l3_off = l3_off + ip_hdr_len_at packet l3_off + 4 := rfl
  have hfits := hp.fits
  rw [← hns] at hw
  intro hrec
  unfold try_current_then_prev at hrec
  dsimp only at hrec
  rw [hfirst] at hrec
  cases hm : cp.crypto_mode with
  | ctr =>
    obtain ⟨htry, hlost⟩ := taken_by_ctr (o := o) hw hm he
      (show (init_ctx o cp.aes_bits cp.key.toList).initialized = true from rfl)
      (show n = pkt_len + (cp.nonce_size + 2 + 16) by omega)
    rw [if_pos htry] at hrec
    exact hlost hrec.len
  | gcm =>
    have hne : ∀ y : Bytes, y.length =
        (cipherUnder o right nonce (payloadOf packet pkt_len l3_off)).length → y ≠ [] := by
      intro y hy h0
      rw [h0, List.length_nil] at hy
      omega
    have hover := hw.overwrite (y := o.gcm (openKey o cp tls) nonce
      (cipherUnder o right nonce (payloadOf packet pkt_len l3_off))) (ho.length_gcm _ _ _)
    have hfail := hw.try_policy_eq ho hm (hne _ rfl) he
    rw [if_neg hwrong.refuses.refused, if_neg (fun h => hwrong.refuses.refused_again h.2)] at hfail
    rw [hfail, if_neg Bool.false_ne_true] at hrec
    split at hrec
    · rw [try_prev_eq hg hq hl4 hready] at hrec
      rw [hns] at hover hrec
      have he' : (crypto_apply_from_policy cp tls).evp_ok = true := he
      by_cases hk : openKey o q tls = right
      · exact not_recovered_of_overwritten ho hgcm hp hover
          ((ho.length_gcm _ _ _).trans hlen) (by
            show _ ≠ cipherUnder o (openKey o q tls) _ _
            rw [hk]
            exact hwrong.overwritten) hwrong.garbled he' hrec
      · exact not_recovered_of_refused ho hgcm hover (hne _ (ho.length_gcm _ _ _)) he'
          (hstale hk _ (Or.inr ⟨cp, List.mem_of_getElem? hcp, hid, rfl⟩)) hrec
    · exact Bool.false_ne_true hrec.ok

/-- A stale context for the previous policy refuses the packet when no current policy takes it. -/
theorem lost_to_a_stale_context {o : Openssl} (ho : o.Lawful) {cfg : AppConfig}
    {dctx : CryptoDispatchCtx} {prev : List CryptoPolicy} (hg : InGrace o cfg dctx prev)
    {qi : Nat} {q : CryptoPolicy} (hq : prev[qi]? = some q) (hl4 : q.action = .encrypt_l4)
    (hgcm : q.crypto_mode = .gcm) (hready : dctx.prev.ready qi = true) {tls : Tls}
    (he : tls.evp_ok = true) {packet out : Buf} {pkt_len l3_off n : Nat} {nonce right : Bytes}
    (hp : L4Plain packet pkt_len l3_off)
    (hw : L4Wire out l3_off (ip_hdr_len_at packet l3_off) q.nonce_size nonce
      (cipherUnder o right nonce (payloadOf packet pkt_len l3_off))
      (tagUnder o right nonce (payloadOf packet pkt_len l3_off)) n)
    (hstale : StaleRefuses o cfg q right tls nonce (payloadOf packet pkt_len l3_off))
    (hno : ∀ pi, lookup_policy_index dctx.active .encrypt_l4 q.wire_id = some pi →
      dctx.active.ready pi = false) (hk : openKey o q tls ≠ right) :
    ¬ Recovered packet pkt_len (try_current_then_prev (crypto_layer4_decrypt o) dctx .encrypt_l4
      q.wire_id (sizeIs q.nonce_size) tls out n) := by
  have hlen : (cipherUnder o right nonce (payloadOf packet pkt_len l3_off)).length =
    (payloadOf packet pkt_len l3_off).length := ho.length_gcm _ _ _
  have hdata := length_payloadOf packet pkt_len l3_off
  have hpo : plain_off_at packet l3_off = l3_off + ip_hdr_len_at packet l3_off + 4 := rfl
  have hfits := hp.fits
  have hne : cipherUnder o right nonce (payloadOf packet pkt_len l3_off) ≠ [] := by
    intro h0
    rw [h0, List.length_nil] at hlen
    omega
  intro hrec
  unfold try_current_then_prev at hrec
  dsimp only at hrec
  rw [try_current_of_unready hno, if_neg Bool.false_ne_true] at hrec
  split at hrec
  · dsimp only at hrec
    rw [try_prev_eq hg hq hl4 hready] at hrec
    exact not_recovered_of_refused ho hgcm hw hne he (hstale hk _ (Or.inl rfl)) hrec
  · exact Bool.false_ne_true hrec.ok

/-- A packet that comes back was found under its own id, as its length leaves only the nonce size of
its sender. -/
theorem found_of_recovered {o : Openssl} {cfg : AppConfig} {dctx : CryptoDispatchCtx}
    {prev : List CryptoPolicy} (hg : InGrace o cfg dctx prev) {q : CryptoPolicy} (hq : q ∈ prev)
    {tls : Tls} {packet out : Buf} {pkt_len l3_off n : Nat} {nonce cipher tag : Bytes}
    (hw : L4Wire out l3_off (ip_hdr_len_at packet l3_off) q.nonce_size nonce cipher tag n)
    (hbyte : out (l3_off + ip_hdr_len_at packet l3_off + 4 + q.nonce_size) = q.wire_id)
    (hn : n = pkt_len + (q.nonce_size + 2 + 16)) {id : UInt8} {ns : Nat}
    (hex : crypto_l4_extract_policy_id_ipv4 cfg out n = some (id, ns))
    (hrec : Recovered packet pkt_len (try_current_then_prev (crypto_layer4_decrypt o) dctx
      .encrypt_l4 id (sizeIs ns) tls out n)) : id = q.wire_id ∧ ns = q.nonce_size := by
  have h4 := hg.nonce_sizes q (Or.inr hq)
  obtain ⟨cp, hcp, hns, hcplen⟩ := try_current_then_prev_len hrec.ok
  rw [hg.active.policies_eq, hg.prev_tables.policies_eq] at hcp
  have hcpns := hg.nonce_sizes cp hcp
  have hnsq : ns = q.nonce_size := by
    rw [hrec.len] at hcplen
    unfold tagOf at hcplen
    split at hcplen <;> omega
  obtain ⟨-, -, -, -, -, hid⟩ := crypto_l4_extract_some hw.offset hex
  refine ⟨?_, hnsq⟩
  rw [← hid, hnsq, hw.ihl_eq]
  exact hbyte

/-- During grace a packet of a previous GCM policy comes back exactly when the parse against
the current configuration still finds its policy id, no current policy with that id has a
ready context, the thread runs AES under the key that the packet was sealed under, and the total
length and the checksum of its IPv4 header are what the receiver computes. -/
theorem a_packet_of_a_previous_policy_comes_back_iff_its_id_is_current_without_a_context
    {o : Openssl} (ho : o.Lawful) (magic : UInt8) (fake : Nat) {cfg : AppConfig}
    {dctx : CryptoDispatchCtx} {prev : List CryptoPolicy} (hg : InGrace o cfg dctx prev)
    {qi : Nat} {q : CryptoPolicy} (hq : prev[qi]? = some q) (hl4 : q.action = .encrypt_l4)
    (hgcm : q.crypto_mode = .gcm) (hready : dctx.prev.ready qi = true) (stls : Tls)
    (counter : Nat) {packet : Buf} {pkt_len l3_off n : Nat} (hp : L4Plain packet pkt_len l3_off)
    (henc : (encryptUnder o q stls counter packet pkt_len).ret = some n) (hn : n ≠ pkt_len)
    {rtls : Tls} (he : rtls.evp_ok = true)
    (hcur : ∀ p ∈ cfg.policies, p.wire_id = q.wire_id → p.nonce_size = q.nonce_size ∧
      WrongKey o (openKey o p rtls) (sealKey o q stls) (nonceUnder q stls counter)
        (payloadOf packet pkt_len l3_off))
    (hstale : StaleRefuses o cfg q (sealKey o q stls) rtls (nonceUnder q stls counter)
      (payloadOf packet pkt_len l3_off)) (scratch_sz : Nat) :
    Recovered packet pkt_len
        (crypto_decrypt_packet_auto_by_action o magic fake cfg.crypto_enabled cfg dctx .encrypt_l4
          rtls (encryptUnder o q stls counter packet pkt_len).pkt n scratch_sz) ↔
      crypto_l4_extract_policy_id_ipv4 cfg (encryptUnder o q stls counter packet pkt_len).pkt n =
          some (q.wire_id, q.nonce_size) ∧
        (∀ pi, lookup_policy_index dctx.active .encrypt_l4 q.wire_id = some pi →
          dctx.active.ready pi = false) ∧
        openKey o q rtls = sealKey o q stls ∧
        ∀ i, i < pkt_len →
          patch_ipv4 packet l3_off (ip_hdr_len_at packet l3_off) (pkt_len - l3_off) i =
            packet i := by
  have hmem := List.mem_of_getElem? hq
  obtain ⟨h4, h16⟩ := hg.nonce_sizes q (Or.inr hmem)
  have hh : packet_crypto_get_tunnel_hdr_size (crypto_apply_from_policy q stls) =
    q.nonce_size + 2 := rfl
  have htag : tag_overhead (crypto_apply_from_policy q stls) = 16 := if_pos hgcm
  obtain ⟨hlen, hf⟩ := encryptUnder_frame ho h4 hp henc hn
  generalize (encryptUnder o q stls counter packet pkt_len).pkt = out at hf ⊢
  have hw := wire_of_frame ho hgcm h4 hp hf hlen
  by_cases hne : cfg.policies = []
  · -- without a policy crypto is off, and the dispatch refuses
    have hoff : cfg.crypto_enabled = false := by rw [hg.enabled, hne]; rfl
    constructor
    · intro hrec
      have hok := hrec.ok
      unfold crypto_decrypt_packet_auto_by_action at hok
      rw [hoff] at hok
      simp at hok
    · rintro ⟨hex, -⟩
      obtain ⟨cp, hcp, -⟩ := crypto_l4_extract_some hw.offset hex
      rw [hne] at hcp
      simp at hcp
  have hon : cfg.crypto_enabled = true := by
    rw [hg.enabled, Bool.not_eq_true', List.isEmpty_eq_false_iff]
    exact hne
  rw [hon, dispatch_l4 dctx hne]
  constructor
  · intro hrec
    cases hex : crypto_l4_extract_policy_id_ipv4 cfg out n with
    | none =>
      rw [hex] at hrec
      exact absurd hrec.len hn
    | some parsed =>
      obtain ⟨id, ns⟩ := parsed
      rw [hex] at hrec
      dsimp only at hrec
      obtain ⟨hid, hns⟩ := found_of_recovered hg hmem hw hf.tunnelled.policy_id (by omega) hex hrec
      subst hid hns
      have hnone : ∀ pi, lookup_policy_index dctx.active .encrypt_l4 q.wire_id = some pi →
          dctx.active.ready pi = false := by
        intro pi hpi
        by_contra hr
        exact lost_to_a_current_policy ho hg hq hl4 hgcm hready he hp hw (by omega) hcur hstale hpi
          (by simpa using hr) hrec
      have hk : openKey o q rtls = sealKey o q stls := by
        by_contra hk
        exact lost_to_a_stale_context ho hg hq hl4 hgcm hready he hp hw hstale hnone hk hrec
      refine ⟨rfl, hnone, hk, ?_⟩
      obtain ⟨pkt', heq, hback⟩ := recovered_by_the_previous_policy ho hg hq hl4 hready he hp hf hk
        hnone
      rw [← hlen] at heq
      rw [heq] at hrec
      intro i hi
      rw [← hback i hi]
      exact hrec.restored i hi
  · rintro ⟨hex, hnone, hk, hsame⟩
    obtain ⟨pkt', heq, hback⟩ := recovered_by_the_previous_policy ho hg hq hl4 hready he hp hf hk
      hnone
    rw [← hlen] at heq
    rw [hex]
    dsimp only
    rw [heq]
    exact ⟨rfl, rfl, fun i hi => (hback i hi).trans (hsame i hi)⟩

/-- The runtime after a first init with policy 7 and a second one with policy `cp`. -/
def replacedBy (cp : CryptoPolicy) : Runtime :=
  (init_crypto sampleOpenssl {} 1000 (sampleCfg [cp] one_policy_le)
    (sampleRuntime [samplePolicy 7 .encrypt_l4] one_policy_le)).2

theorem replacedBy_inGrace (cp : CryptoPolicy) (h : 4 ≤ cp.nonce_size ∧ cp.nonce_size ≤ 16) :
    InGrace sampleOpenssl (sampleCfg [cp] (Nat.le_add_left 1 127)) (dispatch_ctx (replacedBy cp) 2000)
      [samplePolicy 7 .encrypt_l4] := by
  refine inGrace_of_init (sampleRuntime_tablesOf _ _)
    (sampleCfg_init [cp] (Nat.le_add_left 1 127) 1000 _) (List.cons_ne_nil _ _)
    (List.cons_ne_nil _ _) rfl (List.nodup_singleton _) (List.nodup_singleton _) ?_ (by decide)
    (by decide) (by decide)
  rintro p (hp | hp)
  · rw [List.mem_singleton.mp hp]
    exact h
  · rw [List.mem_singleton.mp hp]
    decide

/-- The policy that keeps id 7, with a key of zeros: it gets no context. -/
def zeroPolicy : CryptoPolicy :=
  { samplePolicy 7 .encrypt_l4 with key := Vector.replicate AES_KEY_LEN 0 }

/-- A packet under policy 7, while the policy that replaced it has no context. -/
theorem a_packet_comes_back_past_a_policy_without_a_context :
    Recovered (ofBytes tcpPing) 58
      (crypto_decrypt_packet_auto_by_action sampleOpenssl 0 0 true
        (sampleCfg [zeroPolicy] (Nat.le_add_left 1 127)) (dispatch_ctx (replacedBy zeroPolicy) 2000)
        .encrypt_l4 {}
        (encryptUnder sampleOpenssl (samplePolicy 7 .encrypt_l4) {} 0 (ofBytes tcpPing) 58).pkt
        88 2048) :=
  (a_packet_of_a_previous_policy_comes_back_iff_its_id_is_current_without_a_context
    sampleOpenssl_lawful 0 0 (replacedBy_inGrace zeroPolicy (by decide))
    (show [samplePolicy 7 .encrypt_l4][0]? = some (samplePolicy 7 .encrypt_l4) from rfl) rfl rfl
    (by rfl) {} 0
    (show L4Plain (ofBytes tcpPing) 58 14 from ⟨by decide, by decide, by decide, by decide⟩)
    (n := 88) (by rfl) (by decide) rfl (by
      intro p hp _
      rw [List.mem_singleton.mp hp]
      exact ⟨rfl, ⟨by decide, by decide⟩, by decide, by decide⟩) (fun hk => absurd rfl hk) 2048).mpr
    ⟨by decide, fun _ _ => rfl, rfl, by decide⟩

/-- The same packet, when the current configuration has policy 8 in place of policy 7: the
dispatch returns 0 and leaves the ciphertext. -/
theorem a_packet_of_a_removed_policy_is_left_encrypted :
    InGrace sampleOpenssl (sampleCfg [samplePolicy 8 .encrypt_l4] (by decide))
      (dispatch_ctx (replacedBy (samplePolicy 8 .encrypt_l4)) 2000) [samplePolicy 7 .encrypt_l4] ∧
    (dispatch_ctx (replacedBy (samplePolicy 8 .encrypt_l4)) 2000).prev.ready 0 = true ∧
    L4Plain (ofBytes tcpPing) 58 14 ∧
    (encryptUnder sampleOpenssl (samplePolicy 7 .encrypt_l4) {} 0 (ofBytes tcpPing) 58).ret =
      some 88 ∧
    crypto_decrypt_packet_auto_by_action sampleOpenssl 0 0 true
        (sampleCfg [samplePolicy 8 .encrypt_l4] (by decide))
        (dispatch_ctx (replacedBy (samplePolicy 8 .encrypt_l4)) 2000) .encrypt_l4 {}
        (encryptUnder sampleOpenssl (samplePolicy 7 .encrypt_l4) {} 0 (ofBytes tcpPing) 58).pkt
        88 2048 =
      { ok := true
        pkt := (encryptUnder sampleOpenssl (samplePolicy 7 .encrypt_l4) {} 0 (ofBytes tcpPing)
          58).pkt
        pkt_len := 88
        tls := {} } := by
  refine ⟨replacedBy_inGrace _ (by decide), rfl, ⟨by decide, by decide, by decide, by decide⟩, rfl,
    ?_⟩
  have hnone : crypto_l4_extract_policy_id_ipv4
      (sampleCfg [samplePolicy 8 .encrypt_l4] (by decide))
      (encryptUnder sampleOpenssl (samplePolicy 7 .encrypt_l4) {} 0 (ofBytes tcpPing) 58).pkt 88 =
      none := by decide
  rw [dispatch_l4 _ (List.cons_ne_nil _ _), hnone]

end ne_ip.grace_decrypt
