-- Which packets GCM mode accepts. The wrapper returns success for an empty ciphertext before
-- it looks at the tag, and a ciphertext without a backup is checked again after a turn has
-- written over it.
import NeIp.KeyLoop
import NeIp.L3RoundTrip

open byte_buf ne_ip.packet_crypto ne_ip.key_loop ne_ip.sample

namespace ne_ip.gcm_auth

open crypto_layer2 (L2_FRAG_MAGIC)
open crypto_layer3 (IPV4_PROTO_OFF)
open l3_round_trip (gcmTls gcmCtx)

/-! ## What is promised -/

section

variable (f : Opener) (o : Openssl) (fake : Nat) (tls : Tls) (ctx : PacketCryptoCtx) (packet : Buf)
  (pkt_len : Nat) (s : Start)

/-- The bytes between the tunnel header and the tag. -/
def cipher_of : Bytes := read packet s.enc_off (pkt_len - s.enc_off - 16)

/-- The tag of some bytes under a key and the nonce of the packet. -/
def tag_under (key data : Bytes) : Bytes :=
  o.gcm_tag key (read packet s.nonce_off tls.nonce_size) data

/-- The last 16 bytes are the tag of the ciphertext under one of the keys. -/
def Authentic : Prop :=
  ∃ slot, read packet (pkt_len - 16) 16 = tag_under o tls packet s (key_of tls ctx slot)
    (cipher_of packet pkt_len s)

/-- A packet that is taken to be encrypted and for which the function returns success. -/
def Accepted : Prop :=
  f.start fake tls ctx packet pkt_len = some s ∧ (f.decrypt o fake tls ctx packet pkt_len).1 ≠ none

/-- The packet with another tag. -/
def retag (tag : Vector UInt8 16) : Buf := write packet (pkt_len - 16) tag.toList

/-- Whatever the tag of the packet is: it is only accepted when it is authentic. -/
def OnlyAuthentic : Prop :=
  ∀ tag s', Accepted f o fake tls ctx (retag packet pkt_len tag) pkt_len s' →
    Authentic o tls ctx (retag packet pkt_len tag) pkt_len s'

/-- The turns of the loop on the ciphertext, from the context that this thread has. -/
def turns_of : List (Bytes × Bytes) :=
  turns o tls ctx (read packet s.nonce_off tls.nonce_size) (dec_side tls ctx.key_current) f.slots
    (cipher_of packet pkt_len s)

/-- The turns check no other tag than those of the ciphertext under the keys. -/
def ChecksOwnTags : Prop :=
  ∀ t ∈ turns_of f o tls ctx packet pkt_len s,
    ∃ slot, tag_under o tls packet s t.1 t.2 =
      tag_under o tls packet s (key_of tls ctx slot) (cipher_of packet pkt_len s)

end

/-! ## The turns -/

section

variable {f : Opener} {o : Openssl} {fake : Nat} {tls : Tls} {ctx : PacketCryptoCtx}
  {packet c : Buf} {pkt_len : Nat} {s : Start} {nonce : Bytes} {side : GcmSide}

theorem length_of_mem_turns (ho : o.Lawful) {slots : List KeySlot} {data : Bytes}
    {t : Bytes × Bytes} (ht : t ∈ turns o tls ctx nonce side slots data) :
    t.2.length = data.length := by
  induction slots generalizing side data with
  | nil => simp [turns] at ht
  | cons slot slots ih =>
    rw [turns, List.mem_cons] at ht
    rcases ht with rfl | ht
    · rfl
    · rw [ih ht]
      split
      · rfl
      · exact length_pass ho _ data

/-- With a backup every turn sees the ciphertext. -/
theorem turns_of_backup {slots : List KeySlot} {data : Bytes} (hb : data.length ≤ BACKUP_SIZE)
    {t : Bytes × Bytes} (ht : t ∈ turns o tls ctx nonce side slots data) : t.2 = data := by
  induction slots generalizing side with
  | nil => simp [turns] at ht
  | cons slot slots ih =>
    rw [turns, if_pos hb, List.mem_cons] at ht
    rcases ht with rfl | ht
    · rfl
    · exact ih ht

/-- With every key in place the turns run under the keys of the slots. -/
theorem turns_of_keysInPlace {slots : List KeySlot} {data : Bytes}
    (hk : KeysInPlace tls ctx side slots) {t : Bytes × Bytes}
    (ht : t ∈ turns o tls ctx nonce side slots data) : ∃ slot, t.1 = key_of tls ctx slot := by
  induction slots generalizing side data with
  | nil => simp [turns] at ht
  | cons slot slots ih =>
    rw [turns, List.mem_cons] at ht
    rcases ht with rfl | ht
    · exact ⟨slot, hk.1.run_key_eq⟩
    · exact ih hk.2 ht

theorem slots_eq_cons (f : Opener) : ∃ slots, f.slots = .current :: slots := by
  cases f <;> exact ⟨_, rfl⟩

/-! ## A packet with another tag -/

theorem start3_congr {gap : Nat} {fragment : Bool}
    (h : Opener.start3 tls ctx packet pkt_len gap fragment = some s)
    (hc : ∀ i, i < s.enc_off → c i = packet i) :
    Opener.start3 tls ctx c pkt_len gap fragment = some s := by
  obtain ⟨hinit, hip, ihl, hihl, rfl, hlen, hfrag, hmark⟩ := start3_some h
  have hE : ETH_HEADER_SIZE = 14 := rfl
  have hh : packet_crypto_get_tunnel_hdr_size tls = tls.nonce_size + 2 := rfl
  have h20 := (crypto_layer3.ipv4_hdr_len_at_some hihl).2.1
  dsimp only at hc hlen hfrag
  refine start3_eq hinit
    (crypto_layer3.pkt_is_ipv4_congr hip (Nat.le_refl _) (hc _ (by omega)) (hc _ (by omega)))
    (crypto_layer3.ipv4_hdr_len_at_congr hihl (Nat.le_refl _) (hc _ (by omega))) hlen ?_ ?_
  · rw [← hfrag]
    unfold crypto_layer3.l3_is_frag_tunnel
    rw [hc _ (by omega)]
  · rw [← hmark]
    refine hc _ ?_
    unfold crypto_layer3.IPV4_PROTO_OFF
    omega

theorem start4_congr {gap : Nat} {is_tunnel : Buf → Nat → Nat → Bool}
    (ht : ∀ off, (∀ i, off ≤ i → i < off + tls.nonce_size + 2 → c i = packet i) →
      is_tunnel c off tls.nonce_size = is_tunnel packet off tls.nonce_size)
    (h : Opener.start4 tls ctx packet pkt_len gap is_tunnel = some s)
    (hc : ∀ i, i < s.enc_off → c i = packet i) :
    Opener.start4 tls ctx c pkt_len gap is_tunnel = some s := by
  obtain ⟨hinit, l3_off, hl3, hn, he, h20, hproto, hihl, hlen, htun⟩ := start4_some h
  obtain ⟨nonce_off, enc_off⟩ := s
  dsimp only at hn he hlen htun hc
  subst hn he
  have hh : packet_crypto_get_tunnel_hdr_size tls = tls.nonce_size + 2 := rfl
  have hW : crypto_layer4.L4_WIRE_PORT_LEN = 4 := rfl
  have hihl' : crypto_layer4.ip_hdr_len_at c l3_off = crypto_layer4.ip_hdr_len_at packet l3_off := by
    unfold crypto_layer4.ip_hdr_len_at
    rw [hc _ (by omega)]
  have hoff := crypto_layer4.crypto_eth_ipv4_offset_congr hl3 (Nat.le_refl _)
    fun i hi => hc i (by omega)
  have heq : Opener.start4 tls ctx c pkt_len gap is_tunnel = _ := start4_eq hinit hoff h20
    (by rw [hc _ (by omega)]; exact hproto) (by rw [hihl']; exact hihl)
    (by rw [hihl']; exact hlen)
    (by rw [hihl', ht _ fun i _ h2 => hc i (by omega)]; exact htun)
  rw [hihl'] at heq
  exact heq

/-- A start depends on the bytes before the ciphertext, and for whole packets of layer 2 on the
first byte of what follows, which must not be the magic of a fragment. -/
theorem start_congr (h : f.start fake tls ctx packet pkt_len = some s)
    (hc : ∀ i, i < s.enc_off → c i = packet i)
    (hm : f = .layer2 → c s.enc_off ≠ L2_FRAG_MAGIC) :
    f.start fake tls ctx c pkt_len = some s := by
  cases f with
  | layer3 => exact start3_congr h hc
  | layer3_fragment => exact start3_congr h hc
  | layer4 =>
    refine start4_congr (fun off hoff => ?_) h hc
    unfold crypto_layer4.l4_is_tunnel_header
    rw [hoff _ (by omega) (by omega), hoff off (by omega) (by omega)]
  | layer4_fragment =>
    refine start4_congr (fun off hoff => ?_) h hc
    unfold Opener.l4_is_frag_tunnel
    rw [hoff _ (by omega) (by omega)]
  | layer2 =>
    unfold Opener.start at h ⊢
    dsimp only at h ⊢
    split at h
    swap
    · simp at h
    rename_i hin
    obtain ⟨hinit, hlen, hmark, -⟩ := hin
    obtain rfl := Option.some.inj h
    have h12 : c 12 = packet 12 := hc 12 (by
      show 12 < 14 + tls.nonce_size
      omega)
    unfold crypto_layer2.l2_has_fake_marker at hmark ⊢
    rw [h12, if_pos ⟨hinit, hlen, hmark, fun hmagic => hm rfl hmagic.2⟩]
  | layer2_fragment =>
    unfold Opener.start at h ⊢
    dsimp only at h ⊢
    split at h
    swap
    · simp at h
    rename_i hin
    obtain ⟨hinit, hlen, hmark, hmagic⟩ := hin
    obtain rfl := Option.some.inj h
    have hoff : crypto_layer2.l2_frag_enc_start_offset tls.nonce_size = 14 + tls.nonce_size + 5 := rfl
    have hE : ETH_HEADER_SIZE = 14 := rfl
    dsimp only at hc
    unfold crypto_layer2.l2_has_fake_marker at hmark ⊢
    rw [hc 12 (by omega), hc (ETH_HEADER_SIZE + tls.nonce_size) (by omega),
      if_pos ⟨hinit, hlen, hmark, hmagic⟩]

/-- A whole packet of layer 2 does not start with the magic of a fragment. -/
theorem enc_off_ne_magic (hf : f = .layer2) (h : f.start fake tls ctx packet pkt_len = some s)
    (hlen : s.enc_off < pkt_len) : packet s.enc_off ≠ L2_FRAG_MAGIC := by
  subst hf
  unfold Opener.start at h
  dsimp only at h
  split at h
  · rename_i hin
    obtain rfl := Option.some.inj h
    exact fun hmagic => hin.2.2.2 ⟨hlen, hmagic⟩
  · simp at h

/-- A packet with another tag starts, if at all, where the packet does. -/
theorem start_unique (h : f.start fake tls ctx packet pkt_len = some s)
    (hc : ∀ i, i < s.enc_off → c i = packet i) {s' : Start}
    (h' : f.start fake tls ctx c pkt_len = some s') : s' = s := by
  by_cases hf : f = .layer2
  · subst hf
    unfold Opener.start at h h'
    dsimp only at h h'
    split at h
    · split at h'
      · exact Option.some.inj (h'.symm.trans h)
      · simp at h'
    · simp at h
  · exact Option.some.inj (h'.symm.trans (start_congr h hc fun hl => absurd hl hf))

/-! ## What is accepted -/

/-- The checks of GCM mode. -/
theorem accepts_gcm (hm : tls.crypto_mode = .gcm) (tag : Bytes) (verify : Bytes → Bool)
    (t : Bytes × Bytes) :
    accepts o tls nonce tag verify t = true ↔ t.2 = [] ∨ o.gcm_tag t.1 nonce t.2 = tag := by
  unfold accepts
  rw [hm]
  simp

/-- The wrapper returns before its check when there is nothing to decrypt. -/
theorem try_keys_empty (hm : tls.crypto_mode = .gcm) (slot : KeySlot) (slots : List KeySlot)
    (tag backup : Bytes) (verify : Bytes → Bool) (off : Nat) :
    (try_keys o tls ctx nonce tag verify off 0 backup 0 side (slot :: slots) packet).1 = true := by
  rw [try_keys, if_neg (by omega)]
  unfold aes_decrypt crypto_aes_gcm_decrypt
  rw [hm]
  rfl

/-- A packet of GCM mode with room for a tag. It is accepted when there is nothing to decrypt, or
when its tag is the one of what some turn finds. -/
theorem accepted_iff (ho : o.Lawful) (hm : tls.crypto_mode = .gcm)
    (h : f.start fake tls ctx packet pkt_len = some s) (hlen : s.enc_off + 16 ≤ pkt_len) :
    Accepted f o fake tls ctx packet pkt_len s ↔
      s.enc_off + 16 = pkt_len ∨ (tls.evp_ok = true ∧
        ∃ t ∈ turns_of f o tls ctx packet pkt_len s,
          tag_under o tls packet s t.1 t.2 = read packet (pkt_len - 16) 16) := by
  have htag : tag_overhead tls = 16 := by
    unfold tag_overhead
    rw [if_pos hm]
    rfl
  have hcut : s.enc_off + (pkt_len - s.enc_off - 16) = pkt_len - 16 := by omega
  have hret : Accepted f o fake tls ctx packet pkt_len s ↔
      (f.tries o tls ctx packet pkt_len s).1 = true := by
    unfold Accepted
    rw [ne_eq, (Opener.follows h).none_iff, Bool.not_eq_false, and_iff_right h]
  rw [hret]
  unfold Opener.tries attempt
  rw [htag, if_neg (by omega)]
  dsimp only
  rw [Opener.read_marked h (by omega), hcut]
  by_cases hzero : s.enc_off + 16 = pkt_len
  · obtain ⟨slots, hslots⟩ := slots_eq_cons f
    rw [show pkt_len - s.enc_off - 16 = 0 by omega, hslots]
    exact iff_of_true (try_keys_empty hm _ _ _ _ _ _) (Or.inl hzero)
  rw [or_iff_right hzero]
  cases he : tls.evp_ok with
  | false =>
    rw [(try_keys_without_evp he _ _ _ _ _ _).2 (by omega)]
    simp
  | true =>
    rw [try_keys_accepts_iff ho he, Opener.read_marked h (Nat.le_refl _)]
    have hne : cipher_of packet pkt_len s ≠ [] := by
      intro hnil
      have := congrArg List.length hnil
      unfold cipher_of at this
      rw [length_read, List.length_nil] at this
      omega
    unfold turns_of cipher_of tag_under at *
    simp only [accepts_gcm hm, true_and]
    constructor
    · rintro ⟨t, ht, hnil | heq⟩
      · have := length_of_mem_turns ho ht
        rw [hnil, List.length_nil] at this
        exact absurd (List.length_eq_zero_iff.mp this.symm) hne
      · exact ⟨t, ht, heq⟩
    · rintro ⟨t, ht, heq⟩
      exact ⟨t, ht, Or.inr heq⟩

/-- The nonce stands before the ciphertext. -/
theorem nonce_le (h : f.start fake tls ctx packet pkt_len = some s) :
    s.nonce_off + tls.nonce_size ≤ s.enc_off := by
  have hh : packet_crypto_get_tunnel_hdr_size tls = tls.nonce_size + 2 := rfl
  cases f with
  | layer2 =>
    unfold Opener.start at h
    dsimp only at h
    split at h
    · obtain rfl := Option.some.inj h
      exact Nat.le_refl _
    · simp at h
  | layer2_fragment =>
    unfold Opener.start at h
    dsimp only at h
    split at h
    · obtain rfl := Option.some.inj h
      exact Nat.le_add_right (14 + tls.nonce_size) 5
    · simp at h
  | layer3 | layer3_fragment =>
    obtain ⟨-, -, ihl, -, rfl, -⟩ := start3_some h
    dsimp only
    omega
  | layer4 | layer4_fragment =>
    obtain ⟨-, l3_off, -, -, he, -⟩ := start4_some h
    omega

/-- What another tag leaves alone. -/
structure SameBody (packet c : Buf) (pkt_len : Nat) (s : Start) (nonce_size : Nat) : Prop where
  before : ∀ i, i < pkt_len - 16 → c i = packet i
  cipher : cipher_of c pkt_len s = cipher_of packet pkt_len s
  nonce : read c s.nonce_off nonce_size = read packet s.nonce_off nonce_size

theorem retag_sameBody (h : f.start fake tls ctx packet pkt_len = some s)
    (hlen : s.enc_off + 16 ≤ pkt_len) (tag : Vector UInt8 16) :
    SameBody packet (retag packet pkt_len tag) pkt_len s tls.nonce_size := by
  have hn := nonce_le h
  have hbefore : ∀ i, i < pkt_len - 16 → retag packet pkt_len tag i = packet i := fun i hi =>
    write_out _ _ _ _ (Or.inl hi)
  exact ⟨hbefore, read_congr fun i _ h2 => hbefore i (by omega),
    read_congr fun i _ h2 => hbefore i (by omega)⟩

theorem read_retag (packet : Buf) (pkt_len : Nat) (tag : Vector UInt8 16) :
    read (retag packet pkt_len tag) (pkt_len - 16) 16 = tag.toList :=
  read_write_self _ _ _ _ Vector.length_toList.symm

theorem SameBody.tag_under {packet c : Buf} (h : SameBody packet c pkt_len s tls.nonce_size) :
    tag_under o tls c s = tag_under o tls packet s := by
  funext key data
  unfold gcm_auth.tag_under
  rw [h.nonce]

/-- The promise, tag by tag. -/
theorem onlyAuthentic_iff (ho : o.Lawful) (hm : tls.crypto_mode = .gcm)
    (h : f.start fake tls ctx packet pkt_len = some s) (hlen : s.enc_off + 16 ≤ pkt_len) :
    OnlyAuthentic f o fake tls ctx packet pkt_len ↔
      ∀ tag : Vector UInt8 16, f.start fake tls ctx (retag packet pkt_len tag) pkt_len = some s →
        (s.enc_off + 16 = pkt_len ∨ (tls.evp_ok = true ∧
          ∃ t ∈ turns_of f o tls ctx packet pkt_len s,
            tag_under o tls packet s t.1 t.2 = tag.toList)) →
        ∃ slot, tag.toList = tag_under o tls packet s (key_of tls ctx slot)
          (cipher_of packet pkt_len s) := by
  unfold OnlyAuthentic
  refine forall_congr' fun tag => ?_
  have hsame := retag_sameBody h hlen tag
  have hacc : f.start fake tls ctx (retag packet pkt_len tag) pkt_len = some s →
      (Accepted f o fake tls ctx (retag packet pkt_len tag) pkt_len s ↔ _) := fun hs =>
    accepted_iff ho hm hs hlen
  have hauth : Authentic o tls ctx (retag packet pkt_len tag) pkt_len s ↔
      ∃ slot, tag.toList = tag_under o tls packet s (key_of tls ctx slot)
        (cipher_of packet pkt_len s) := by
    unfold Authentic
    rw [read_retag, hsame.tag_under, hsame.cipher]
  have hturns : turns_of f o tls ctx (retag packet pkt_len tag) pkt_len s =
      turns_of f o tls ctx packet pkt_len s := by
    unfold turns_of
    rw [hsame.nonce, hsame.cipher]
  rw [read_retag, hsame.tag_under, hturns] at hacc
  constructor
  · exact fun hin hs hok => hauth.mp (hin s ((hacc hs).mpr hok))
  · intro hin s' hs'
    have heq : s' = s := start_unique h (fun i hi => hsame.before i (by omega)) hs'.1
    subst heq
    exact hauth.mpr (hin hs'.1 ((hacc hs'.1).mp hs'))

end

/-- A byte that is none of four. -/
theorem exists_other_byte (a b c d : UInt8) : ∃ x : UInt8, x ≠ a ∧ x ≠ b ∧ x ≠ c ∧ x ≠ d := by
  have h0 : (0 : UInt8) ≠ 1 ∧ (0 : UInt8) ≠ 2 ∧ (0 : UInt8) ≠ 3 ∧ (0 : UInt8) ≠ 4 := by decide
  have h1 : (1 : UInt8) ≠ 2 ∧ (1 : UInt8) ≠ 3 ∧ (1 : UInt8) ≠ 4 := by decide
  have h2 : (2 : UInt8) ≠ 3 ∧ (2 : UInt8) ≠ 4 ∧ (3 : UInt8) ≠ 4 := by decide
  by_contra hno
  have hall : ∀ x : UInt8, x = a ∨ x = b ∨ x = c ∨ x = d := by
    intro x
    by_contra hx
    simp only [not_or] at hx
    exact hno ⟨x, hx⟩
  have := hall 0
  have := hall 1
  have := hall 2
  have := hall 3
  have := hall 4
  grind

section

variable {f : Opener} {o : Openssl} {fake : Nat} {tls : Tls} {ctx : PacketCryptoCtx}
  {packet : Buf} {pkt_len : Nat} {s : Start}

/-- Some tag that is not one of an empty ciphertext. At layer 2 it stands where a fragment has its
magic, and must not look like it. -/
theorem exists_wrong_tag (f : Opener) (tags : KeySlot → Bytes) : ∃ tag : Vector UInt8 16,
    (f = .layer2 → tag.toList.getD 0 0 ≠ L2_FRAG_MAGIC) ∧ ∀ slot, tag.toList ≠ tags slot := by
  obtain ⟨x, hp, hc, hn, hm⟩ := exists_other_byte ((tags .prev).getD 0 0)
    ((tags .current).getD 0 0) ((tags .next).getD 0 0) L2_FRAG_MAGIC
  refine ⟨Vector.replicate 16 x, fun _ => hm, fun slot heq => ?_⟩
  have hx : x = (tags slot).getD 0 0 := by
    rw [← heq]
    rfl
  cases slot with
  | prev => exact hp hx
  | current => exact hc hx
  | next => exact hn hx

/-- An empty ciphertext is accepted with any tag. -/
theorem not_onlyAuthentic_of_empty (ho : o.Lawful) (hm : tls.crypto_mode = .gcm)
    (h : f.start fake tls ctx packet pkt_len = some s) (hlen : s.enc_off + 16 = pkt_len) :
    ¬ OnlyAuthentic f o fake tls ctx packet pkt_len := by
  rw [onlyAuthentic_iff ho hm h hlen.le]
  intro hin
  obtain ⟨tag, hmagic, hwrong⟩ := exists_wrong_tag f fun slot =>
    tag_under o tls packet s (key_of tls ctx slot) (cipher_of packet pkt_len s)
  have hsame := retag_sameBody h hlen.le tag
  have hfirst : retag packet pkt_len tag s.enc_off = tag.toList.getD 0 0 := by
    have hr := getD_read (retag packet pkt_len tag) (pkt_len - 16) 16 0 (by omega)
    have hoff : pkt_len - 16 = s.enc_off := by omega
    rw [read_retag, hoff] at hr
    exact hr.symm
  obtain ⟨slot, heq⟩ := hin tag (start_congr h (fun i hi => hsame.before i (by omega))
    (fun hf => by rw [hfirst]; exact hmagic hf)) (Or.inl hlen)
  exact hwrong slot heq

/-- A nonempty one has to carry the tag of what some turn finds. -/
theorem onlyAuthentic_iff_of_nonempty (ho : o.Lawful) (hm : tls.crypto_mode = .gcm)
    (h : f.start fake tls ctx packet pkt_len = some s) (hlen : s.enc_off + 16 < pkt_len) :
    OnlyAuthentic f o fake tls ctx packet pkt_len ↔
      tls.evp_ok = false ∨ ChecksOwnTags f o tls ctx packet pkt_len s := by
  rw [onlyAuthentic_iff ho hm h hlen.le]
  cases he : tls.evp_ok with
  | false =>
    refine iff_of_true (fun tag _ hok => ?_) (Or.inl rfl)
    rcases hok with heq | ⟨hfalse, -⟩
    · omega
    · simp at hfalse
  | true =>
    simp only [Bool.true_eq_false, false_or, true_and]
    constructor
    · intro hin t ht
      -- the packet that carries the tag of what this turn finds
      have htag : (tag_under o tls packet s t.1 t.2).length = 16 := ho.length_gcm_tag _ _ _
      have hsame := retag_sameBody h hlen.le
        ⟨(tag_under o tls packet s t.1 t.2).toArray, by simpa using htag⟩
      obtain ⟨slot, heq⟩ := hin ⟨(tag_under o tls packet s t.1 t.2).toArray, by simpa using htag⟩
        (start_congr h (fun i hi => hsame.before i (by omega)) fun hf => by
          rw [hsame.before _ (by omega)]
          exact enc_off_ne_magic hf h (by omega))
        (Or.inr ⟨t, ht, by simp⟩)
      exact ⟨slot, by simpa using heq⟩
    · intro hown tag _ hok
      rcases hok with heq | ⟨t, ht, heq⟩
      · omega
      obtain ⟨slot, hslot⟩ := hown t ht
      exact ⟨slot, heq.symm.trans hslot⟩

/-- With a backup and the keys in place the turns check the tags of the ciphertext alone. -/
theorem checksOwnTags_of_backup (hb : pkt_len - s.enc_off - 16 ≤ BACKUP_SIZE)
    (hk : KeysInPlace tls ctx (dec_side tls ctx.key_current) f.slots) :
    ChecksOwnTags f o tls ctx packet pkt_len s := by
  intro t ht
  obtain ⟨slot, hslot⟩ := turns_of_keysInPlace hk ht
  refine ⟨slot, ?_⟩
  have hle : (cipher_of packet pkt_len s).length ≤ BACKUP_SIZE := by
    unfold cipher_of
    rw [length_read]
    exact hb
  rw [turns_of_backup hle ht, hslot]

/-- A packet that one of the six functions takes to be encrypted in GCM mode, and that is long
enough for a tag: no tag but an authentic one gets it accepted, exactly when there is something to
decrypt and no turn accepts another tag. A turn does so that finds a ciphertext already written
over, for which there was no backup, or a context with another key than the one in its cache. -/
theorem gcm_accepts_only_authentic_packets_iff {o : Openssl} (ho : o.Lawful) (f : Opener)
    (fake : Nat) {tls : Tls} (hm : tls.crypto_mode = .gcm) (ctx : PacketCryptoCtx) (packet : Buf)
    (pkt_len : Nat) {s : Start} (h : f.start fake tls ctx packet pkt_len = some s)
    (hlen : s.enc_off + 16 ≤ pkt_len) :
    OnlyAuthentic f o fake tls ctx packet pkt_len ↔
      s.enc_off + 16 < pkt_len ∧
      (tls.evp_ok = false ∨
        (pkt_len - s.enc_off - 16 ≤ BACKUP_SIZE ∧
          KeysInPlace tls ctx (dec_side tls ctx.key_current) f.slots) ∨
        ChecksOwnTags f o tls ctx packet pkt_len s) := by
  by_cases hzero : s.enc_off + 16 = pkt_len
  · exact iff_of_false (not_onlyAuthentic_of_empty ho hm h hzero) (fun hc => by omega)
  have hpos : s.enc_off + 16 < pkt_len := by omega
  rw [onlyAuthentic_iff_of_nonempty ho hm h hpos, and_iff_right hpos]
  constructor
  · rintro (he | hown)
    · exact Or.inl he
    · exact Or.inr (Or.inr hown)
  · rintro (he | ⟨hb, hk⟩ | hown)
    · exact Or.inl he
    · exact Or.inr (checksOwnTags_of_backup hb hk)
    · exact Or.inr hown

end

/-- `tcpPing` as layer 4 sends it. -/
def sent : Buf :=
  (crypto_layer4.crypto_layer4_encrypt sampleOpenssl gcmTls gcmCtx 0 (ofBytes tcpPing) 58).pkt

theorem a_short_packet_is_accepted_with_its_tag_only :
    Accepted .layer4 sampleOpenssl 0 gcmTls gcmCtx sent 88 ⟨38, 52⟩ ∧
    OnlyAuthentic .layer4 sampleOpenssl 0 gcmTls gcmCtx sent 88 := by
  have hstart : Opener.layer4.start 0 gcmTls gcmCtx sent 88 = some ⟨38, 52⟩ := by decide +kernel
  have hplace : KeysInPlace gcmTls gcmCtx (dec_side gcmTls gcmCtx.key_current) key_order :=
    keysInPlace_of_inPlace (fun slot => by cases slot <;> rfl) (fun hc => absurd hc (by decide)) _
  exact ⟨⟨hstart, by decide +kernel⟩, (gcm_accepts_only_authentic_packets_iff sampleOpenssl_lawful
    .layer4 0 rfl gcmCtx sent 88 hstart (by decide)).mpr
    ⟨by decide, Or.inr (Or.inl ⟨by decide, hplace⟩)⟩⟩

/-- The tag of no bytes at all under the first nonce. -/
def emptyTag : Vector UInt8 16 :=
  #v[0xa8, 0xef, 0x65, 0xb5, 0x7d, 0xad, 0xe8, 0xce, 0x13, 0x9c, 0x31, 0x3a, 0x57, 0xa1, 0x73, 0x61]

/-- The sample with that tag. -/
def emptyOpenssl : Openssl :=
  streamOpenssl (fun _ _ _ => 0) gcmStream
    (fun key nonce cipher =>
      if key = masterDigest.toList.take 16 ∧ nonce = nonce0 ∧ cipher = [] then emptyTag
      else gcmTag key nonce cipher)
    fun _ _ => masterDigest

/-- A tunnel header with 16 bytes behind it that are no tag of anything. -/
def forged : Buf :=
  ofBytes (tcpPing.take 38 ++ nonce0 ++ [0, 0xA5] ++ List.replicate 16 0x11)

theorem a_packet_without_ciphertext_is_accepted_with_any_tag :
    emptyOpenssl.Lawful ∧
    Accepted .layer4 emptyOpenssl 0 gcmTls gcmCtx forged 68 ⟨38, 52⟩ ∧
    ¬ Authentic emptyOpenssl gcmTls gcmCtx forged 68 ⟨38, 52⟩ := by
  refine ⟨streamOpenssl_lawful _ _ _ _, ⟨by decide +kernel, by decide +kernel⟩, ?_⟩
  rintro ⟨slot, heq⟩
  cases slot with
  | prev => exact absurd heq (by decide +kernel)
  | current => exact absurd heq (by decide +kernel)
  | next => exact absurd heq (by decide +kernel)

end ne_ip.gcm_auth
