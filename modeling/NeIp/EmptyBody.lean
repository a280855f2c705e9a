-- The frames of layer 2 with an empty plaintext: `crypto_layer2_decrypt` moves
-- the bytes behind an ethertype without asking whether there are two, and so it
-- stays inside every frame but these.
import NeIp.LengthSafety

open byte_buf access_log ne_ip.packet_crypto ne_ip.config

namespace ne_ip.empty_body

open crypto_layer2 (L2_FRAG_MAGIC l2_enc_start_offset l2_frag_enc_start_offset)
open tunnel (FRAG_TAG_SIZE)
open frame_access (within_byte size_sub_of_le decrypt_in_place_length)
open length_safety

variable {o : Openssl} {tls : Tls} {ctx : PacketCryptoCtx} {n : Nat}

/-! ## The copy behind the ethertype -/

/-- What AES makes of the encrypted part under the one key that layer 2 tries, and whether it
accepts it. -/
def l2_plaintext (o : Openssl) (tls : Tls) (ctx : PacketCryptoCtx) (packet : Buf) (n : Nat) :
    Bool × Buf :=
  let l2_enc_start := l2_enc_start_offset tls.nonce_size
  let enc_len := n - l2_enc_start - tag_overhead tls
  packet_crypto.aes_decrypt o tls (dec_side tls ctx.key_current) ctx.key_current
    (read packet 14 tls.nonce_size) (read packet (l2_enc_start + enc_len) (tag_overhead tls))
    crypto_layer2.verify_ipv4_after_decrypt packet l2_enc_start enc_len

/-- A frame of layer 2 that is not a fragment and that AES accepts. -/
def l2_opens (o : Openssl) (fake : Nat) (tls : Tls) (ctx : PacketCryptoCtx) (packet : Buf)
    (n : Nat) : Bool :=
  ctx.initialized && decide (l2_enc_start_offset tls.nonce_size + tag_overhead tls ≤ n) &&
    crypto_layer2.l2_has_fake_marker fake packet &&
    !decide (ETH_HEADER_SIZE + tls.nonce_size + 1 ≤ n ∧
      packet (ETH_HEADER_SIZE + tls.nonce_size) = L2_FRAG_MAGIC) &&
    (l2_plaintext o tls ctx packet n).1

/-- Such a frame with less than two encrypted bytes, when the two bytes from where these start
are `08 00` after AES. -/
structure EmptyPlain (o : Openssl) (fake : Nat) (tls : Tls) (ctx : PacketCryptoCtx) (packet : Buf)
    (n : Nat) : Prop where
  opens : l2_opens o fake tls ctx packet n = true
  short : n < l2_enc_start_offset tls.nonce_size + tag_overhead tls + 2
  high : (l2_plaintext o tls ctx packet n).2 (l2_enc_start_offset tls.nonce_size) = 0x08
  low : (l2_plaintext o tls ctx packet n).2 (l2_enc_start_offset tls.nonce_size + 1) = 0x00

/-- The frames that layer 2 hands to AES. -/
structure ReachesAes (fake : Nat) (tls : Tls) (ctx : PacketCryptoCtx) (packet : Buf) (n : Nat) :
    Prop where
  ready : ctx.initialized = true
  room : l2_enc_start_offset tls.nonce_size + tag_overhead tls ≤ n
  marker : crypto_layer2.l2_has_fake_marker fake packet = true
  whole : ¬ (ETH_HEADER_SIZE + tls.nonce_size + 1 ≤ n ∧
    packet (ETH_HEADER_SIZE + tls.nonce_size) = L2_FRAG_MAGIC)

theorem l2_opens_iff {fake : Nat} {packet : Buf} :
    l2_opens o fake tls ctx packet n = true ↔
      ReachesAes fake tls ctx packet n ∧ (l2_plaintext o tls ctx packet n).1 = true := by
  unfold l2_opens
  simp only [Bool.and_eq_true, decide_eq_true_eq, Bool.not_eq_true', decide_eq_false_iff_not]
  constructor
  · rintro ⟨⟨⟨⟨hready, hroom⟩, hmark⟩, hwhole⟩, hok⟩
    exact ⟨⟨hready, hroom, hmark, hwhole⟩, hok⟩
  · rintro ⟨⟨hready, hroom, hmark, hwhole⟩, hok⟩
    exact ⟨⟨⟨⟨hready, hroom⟩, hmark⟩, hwhole⟩, hok⟩

theorem tag_overhead_gcm (hm : tls.crypto_mode = .gcm) : tag_overhead tls = 16 := by
  unfold tag_overhead
  rw [if_pos hm]
  rfl

/-- In CTR mode AES accepts no plaintext without an IPv4 header. -/
theorem ctr_plaintext_length (hm : tls.crypto_mode = .ctr) {packet : Buf}
    (h : (l2_plaintext o tls ctx packet n).1 = true) :
    20 ≤ n - l2_enc_start_offset tls.nonce_size - tag_overhead tls := by
  unfold l2_plaintext packet_crypto.aes_decrypt at h
  simp only [hm] at h
  split at h
  · simp at h
  · unfold crypto_layer2.verify_ipv4_after_decrypt at h
    simp only [length_read] at h
    split at h
    · simp at h
    · omega

theorem crypto_read_counter_within {packet : Buf} {nonce_size : Nat} (h : 14 + nonce_size ≤ n) :
    Within n (frame_access.crypto_read_counter packet nonce_size) := by
  unfold frame_access.crypto_read_counter
  simp only [within_bind, within_load, within_copy_from, within_pure, and_true]
  omega

theorem starts_with_ethertype_within {packet : Buf} {off : Nat} (h : off + 2 ≤ n) :
    Within n (frame_access.starts_with_ethertype packet off) := by
  unfold frame_access.starts_with_ethertype
  rw [within_bind, within_byte]
  refine ⟨by omega, ?_⟩
  split
  · rw [within_bind, within_byte]
    exact ⟨by omega, within_pure _⟩
  · exact within_pure false

/-- The first copy needs two bytes to leave out. -/
theorem l2_restore_safe_iff {packet : Buf} {l2_enc_start enc_len : Nat}
    (hs : l2_enc_start + 2 ≤ n) (he : l2_enc_start + enc_len ≤ n) (h14 : 14 ≤ l2_enc_start) :
    Safe n (frame_access.l2_restore packet l2_enc_start enc_len) (·.1) ↔
      ¬ (enc_len < 2 ∧ packet l2_enc_start = 0x08 ∧ packet (l2_enc_start + 1) = 0x00) := by
  have hE : ETH_HEADER_SIZE = 14 := rfl
  unfold frame_access.l2_restore
  dsimp only
  rw [safe_bind_iff, frame_access.starts_with_ethertype_val]
  by_cases heth : packet l2_enc_start = 0x08 ∧ packet (l2_enc_start + 1) = 0x00
  · rw [decide_eq_true heth]
    dsimp only
    constructor
    · rintro ⟨-, hsafe⟩ ⟨hlt, -⟩
      have := hsafe.returned _ rfl
      omega
    · intro h
      have h2 : 2 ≤ enc_len := Nat.not_lt.mp fun hlt => h ⟨hlt, heth⟩
      rw [size_sub_of_le h2]
      refine ⟨starts_with_ethertype_within hs,
        Safe.bind (within_copy_from.mpr ⟨by omega, by omega⟩) (Safe.ret ?_)⟩
      intro r hr
      have := Option.some.inj hr
      omega
  · rw [decide_eq_false heth]
    refine iff_of_true ⟨starts_with_ethertype_within hs,
      Safe.bind (within_copy_from.mpr ⟨by omega, by omega⟩) (Safe.ret ?_)⟩ fun h => heth h.2
    intro r hr
    have := Option.some.inj hr
    omega

theorem l2_is_fragment_within (packet : Buf) (nonce_size : Nat) :
    Within n (frame_access.l2_is_fragment packet n nonce_size) := by
  have hE : ETH_HEADER_SIZE = 14 := rfl
  unfold frame_access.l2_is_fragment
  split
  · rw [within_bind, within_byte]
    exact ⟨by omega, within_pure _⟩
  · exact within_pure false

/-- A frame that does not get to AES. -/
theorem crypto_layer2_decrypt_early_safe (hn : 14 ≤ n) {fake : Nat} {packet : Buf}
    (h : ¬ ReachesAes fake tls ctx packet n) :
    Safe n (frame_access.crypto_layer2_decrypt o fake tls ctx packet n) (·.1) := by
  have hs : l2_enc_start_offset tls.nonce_size = 14 + tls.nonce_size := rfl
  unfold frame_access.crypto_layer2_decrypt
  dsimp only
  split
  · exact Safe.ret (by simp)
  rename_i hlen
  simp only [not_or, Nat.not_lt] at hlen
  refine Safe.bind (l2_has_fake_marker_within (by omega)) ?_
  rw [frame_access.l2_has_fake_marker_val]
  cases hmark : crypto_layer2.l2_has_fake_marker fake packet with
  | false => exact Safe.unchanged hn packet
  | true =>
    refine Safe.bind (l2_is_fragment_within packet tls.nonce_size) ?_
    rw [frame_access.l2_is_fragment_val]
    by_cases hfrag : ETH_HEADER_SIZE + tls.nonce_size + 1 ≤ n ∧
        packet (ETH_HEADER_SIZE + tls.nonce_size) = L2_FRAG_MAGIC
    · rw [decide_eq_true hfrag]
      exact Safe.unchanged hn packet
    rw [decide_eq_false hfrag]
    refine Safe.bind (crypto_read_counter_within (by omega)) ?_
    have htag : n < l2_enc_start_offset tls.nonce_size + tag_overhead tls := by
      by_contra hroom
      exact h ⟨by simpa using hlen.1, Nat.not_lt.mp hroom, hmark, hfrag⟩
    rw [if_pos htag]
    exact Safe.ret (by simp)

/-- Behind AES only the copy is left. -/
theorem crypto_layer2_decrypt_aes_safe_iff {fake : Nat} {packet : Buf}
    (h : ReachesAes fake tls ctx packet n) :
    Safe n (frame_access.crypto_layer2_decrypt o fake tls ctx packet n) (·.1) ↔
      ((l2_plaintext o tls ctx packet n).1 = true →
        Safe n (frame_access.l2_restore (l2_plaintext o tls ctx packet n).2
          (l2_enc_start_offset tls.nonce_size)
          (n - l2_enc_start_offset tls.nonce_size - tag_overhead tls)) (·.1)) := by
  have hs : l2_enc_start_offset tls.nonce_size = 14 + tls.nonce_size := rfl
  obtain ⟨hready, hroom, hmark, hwhole⟩ := h
  have hmw : Within n (frame_access.l2_has_fake_marker fake packet) :=
    l2_has_fake_marker_within (by omega)
  have hfw := @l2_is_fragment_within n packet tls.nonce_size
  have hcw : Within n (frame_access.crypto_read_counter packet tls.nonce_size) :=
    crypto_read_counter_within (by omega)
  have hlen : ¬ ((!ctx.initialized) = true ∨ n < l2_enc_start_offset tls.nonce_size) := by
    simp [hready]
    omega
  unfold frame_access.crypto_layer2_decrypt
  dsimp only
  rw [if_neg hlen, safe_bind_iff, frame_access.l2_has_fake_marker_val, hmark]
  dsimp only
  rw [safe_bind_iff, frame_access.l2_is_fragment_val, decide_eq_false hwhole]
  dsimp only
  rw [safe_bind_iff, frame_access.crypto_read_counter_val, if_neg (Nat.not_lt.mpr hroom),
    size_sub_of_le (show l2_enc_start_offset tls.nonce_size ≤ n by omega),
    size_sub_of_le (by omega), safe_bind_iff, safe_bind_iff,
    frame_access.aes_decrypt_val o tls _ _ _ _ frame_access.verify_ipv4_after_decrypt_val]
  have hw : Within n (copy_from (l2_enc_start_offset tls.nonce_size +
      (n - l2_enc_start_offset tls.nonce_size - tag_overhead tls)) (tag_overhead tls)) :=
    within_copy_from.mpr ⟨by omega, by omega⟩
  have haw := @aes_decrypt_within o tls n (dec_side tls ctx.key_current) ctx.key_current
    (read packet 14 tls.nonce_size) (read packet (l2_enc_start_offset tls.nonce_size +
      (n - l2_enc_start_offset tls.nonce_size - tag_overhead tls)) (tag_overhead tls)) _
    verify_ipv4_after_decrypt_inside packet (l2_enc_start_offset tls.nonce_size)
    (n - l2_enc_start_offset tls.nonce_size - tag_overhead tls) (by omega) (by omega)
  -- the AES step is `l2_plaintext`
  unfold l2_plaintext
  dsimp only
  unfold packet_crypto_get_key
  generalize packet_crypto.aes_decrypt o tls (dec_side tls ctx.key_current) ctx.key_current
    (read packet 14 tls.nonce_size) (read packet (l2_enc_start_offset tls.nonce_size +
      (n - l2_enc_start_offset tls.nonce_size - tag_overhead tls)) (tag_overhead tls))
    crypto_layer2.verify_ipv4_after_decrypt packet (l2_enc_start_offset tls.nonce_size)
    (n - l2_enc_start_offset tls.nonce_size - tag_overhead tls) = r
  rcases r with ⟨_ | _, packet'⟩
  · exact iff_of_true ⟨hmw, hfw, hcw, hw, haw, Safe.ret (by simp)⟩ fun hok => absurd hok (by simp)
  · exact ⟨fun hsafe _ => hsafe.2.2.2.2.2, fun hsafe => ⟨hmw, hfw, hcw, hw, haw, hsafe rfl⟩⟩

/-- Layer 2 is safe up to the frames with an empty plaintext. -/
theorem crypto_layer2_decrypt_safe_iff (hn : 14 ≤ n) {fake : Nat} {packet : Buf} :
    Safe n (frame_access.crypto_layer2_decrypt o fake tls ctx packet n) (·.1) ↔
      ¬ EmptyPlain o fake tls ctx packet n := by
  have hs : l2_enc_start_offset tls.nonce_size = 14 + tls.nonce_size := rfl
  by_cases haes : ReachesAes fake tls ctx packet n
  · have hlen := haes.room
    rw [crypto_layer2_decrypt_aes_safe_iff haes]
    cases hok : (l2_plaintext o tls ctx packet n).1 with
    | false =>
      refine iff_of_true (fun h => absurd h Bool.false_ne_true) fun he => ?_
      rw [(l2_opens_iff.mp he.opens).2] at hok
      exact absurd hok.symm Bool.false_ne_true
    | true =>
      have hroom : l2_enc_start_offset tls.nonce_size + 2 ≤ n := by
        cases hm : tls.crypto_mode with
        | ctr =>
          have := ctr_plaintext_length hm hok
          omega
        | gcm =>
          have := tag_overhead_gcm hm
          omega
      refine (forall_prop_of_true rfl).trans ?_
      rw [l2_restore_safe_iff hroom (by omega) (by omega)]
      refine not_congr ⟨fun ⟨hshort, hhigh, hlow⟩ => ?_, fun he => ⟨?_, he.high, he.low⟩⟩
      · exact ⟨l2_opens_iff.mpr ⟨haes, hok⟩, by omega, hhigh, hlow⟩
      · have := he.short
        omega
  · exact iff_of_true (crypto_layer2_decrypt_early_safe hn haes) fun he =>
      haes (l2_opens_iff.mp he.opens).1

theorem crypto_layer2_decrypt_fragment_safe (o : Openssl) (fake : Nat) (tls : Tls)
    (ctx : PacketCryptoCtx) (packet : Buf) :
    Safe n (frame_access.crypto_layer2_decrypt_fragment o fake tls ctx packet n) fragment_len := by
  have hs : l2_frag_enc_start_offset tls.nonce_size = 14 + tls.nonce_size + 1 + 4 := rfl
  have hE : ETH_HEADER_SIZE = 14 := rfl
  have hF : FRAG_TAG_SIZE = 4 := rfl
  have hnone : ∀ pkt : Buf, Safe n (pure (none, pkt)) fragment_len := fun pkt =>
    Safe.ret (by simp [fragment_len])
  unfold frame_access.crypto_layer2_decrypt_fragment
  dsimp only
  split
  · exact hnone packet
  rename_i hlen
  simp only [not_or, Nat.not_lt] at hlen
  refine Safe.bind (l2_has_fake_marker_within (by omega)) ?_
  split
  · exact hnone packet
  refine Safe.bind (within_byte.mpr (by omega)) ?_
  split
  · exact hnone packet
  rw [size_sub_of_le hlen.2]
  refine Safe.bind (read_frag_tag_within (by omega)) (Safe.bind
    (crypto_read_counter_within (by omega)) (Safe.bind
    (decrypt_in_place_within unverified_inside (by omega) (by omega)) ?_))
  rw [frame_access.decrypt_unverified_val]
  split
  · exact hnone _
  · rename_i enc_len packet' hd
    have hl := decrypt_in_place_length hd
    refine Safe.bind (within_copy_from.mpr ⟨by omega, by omega⟩) (Safe.ret ?_)
    intro r hr
    have := Option.some.inj hr
    dsimp only at this
    omega

/-! ## Frames without a plaintext -/

/-- The key that layer 2 opens a frame with. -/
def l2_key (tls : Tls) (ctx : PacketCryptoCtx) : Bytes := dec_key tls ctx.key_current

/-- A GCM packet of layer 2 with at most one encrypted byte whose plaintext, or else the tag in
its place, starts like the ethertype of IPv4. -/
structure EmptyBody (o : Openssl) (fake : Nat) (tls : Tls) (ctx : PacketCryptoCtx) (packet : Buf)
    (n : Nat) : Prop where
  ready : ctx.initialized = true
  mode : tls.crypto_mode = .gcm
  marker : crypto_layer2.l2_has_fake_marker fake packet = true
  whole : packet (14 + tls.nonce_size) ≠ L2_FRAG_MAGIC
  body : (n = 14 + tls.nonce_size + 16 ∧ packet (14 + tls.nonce_size) = 0x08 ∧
      packet (14 + tls.nonce_size + 1) = 0x00) ∨
    (n = 14 + tls.nonce_size + 1 + 16 ∧ tls.evp_ok = true ∧
      o.gcm_tag (l2_key tls ctx) (read packet 14 tls.nonce_size) [packet (14 + tls.nonce_size)] =
        read packet (14 + tls.nonce_size + 1) 16 ∧
      o.gcm (l2_key tls ctx) (read packet 14 tls.nonce_size) [packet (14 + tls.nonce_size)] =
        [0x08] ∧ packet (14 + tls.nonce_size + 1) = 0x00)

/-- With no encrypted byte GCM accepts the frame as it is. -/
theorem l2_plaintext_empty (hm : tls.crypto_mode = .gcm) (packet : Buf) :
    l2_plaintext o tls ctx packet (14 + tls.nonce_size + 16) = (true, packet) := by
  have hs : l2_enc_start_offset tls.nonce_size = 14 + tls.nonce_size := rfl
  have ht := tag_overhead_gcm hm
  unfold l2_plaintext packet_crypto.aes_decrypt crypto_aes_gcm_decrypt
  simp only [hm]
  rw [if_pos (by omega)]

/-- With one it checks the tag, when OpenSSL gives this thread a context. -/
theorem l2_plaintext_byte (hm : tls.crypto_mode = .gcm) (packet : Buf) :
    l2_plaintext o tls ctx packet (14 + tls.nonce_size + 1 + 16) =
      if tls.evp_ok then
        (o.gcm_tag (l2_key tls ctx) (read packet 14 tls.nonce_size)
            [packet (14 + tls.nonce_size)] == read packet (14 + tls.nonce_size + 1) 16,
          write packet (14 + tls.nonce_size)
            (o.gcm (l2_key tls ctx) (read packet 14 tls.nonce_size)
              [packet (14 + tls.nonce_size)]))
      else (false, packet) := by
  have hs : l2_enc_start_offset tls.nonce_size = 14 + tls.nonce_size := rfl
  have ht := tag_overhead_gcm hm
  have hlen : 14 + tls.nonce_size + 1 + 16 - (14 + tls.nonce_size) - 16 = 1 := by omega
  unfold l2_plaintext packet_crypto.aes_decrypt crypto_aes_gcm_decrypt
  unfold l2_key dec_key
  rw [run_key_gcm hm]
  simp only [hm, hs, ht, hlen]
  cases tls.evp_ok with
  | true => rfl
  | false => rfl

/-- The same frames, told by their bytes. -/
theorem emptyPlain_iff (ho : o.Lawful) {fake : Nat} {packet : Buf} :
    EmptyPlain o fake tls ctx packet n ↔ EmptyBody o fake tls ctx packet n := by
  have hs : l2_enc_start_offset tls.nonce_size = 14 + tls.nonce_size := rfl
  have hE : ETH_HEADER_SIZE = 14 := rfl
  constructor
  · rintro ⟨hopens, hshort, hhigh, hlow⟩
    obtain ⟨⟨hi, htag, hmark, hfrag⟩, hok⟩ := l2_opens_iff.mp hopens
    have hm : tls.crypto_mode = .gcm := by
      cases hm : tls.crypto_mode with
      | gcm => rfl
      | ctr =>
        have := ctr_plaintext_length hm hok
        omega
    have ht := tag_overhead_gcm hm
    refine ⟨hi, hm, hmark, fun h => hfrag ⟨by omega, h⟩, ?_⟩
    rw [hs] at hhigh hlow
    rcases (show n = 14 + tls.nonce_size + 16 ∨ n = 14 + tls.nonce_size + 1 + 16 by omega) with
      rfl | rfl
    · rw [l2_plaintext_empty hm] at hhigh hlow
      exact Or.inl ⟨rfl, hhigh, hlow⟩
    · rw [l2_plaintext_byte hm] at hok hhigh hlow
      cases he : tls.evp_ok with
      | false => simp [he] at hok
      | true =>
        simp only [he, if_true] at hok hhigh hlow
        -- GCM gives as many bytes as it gets
        obtain ⟨x, hx⟩ := List.length_eq_one_iff.mp (ho.length_gcm (l2_key tls ctx)
          (read packet 14 tls.nonce_size) [packet (14 + tls.nonce_size)])
        rw [hx, write_head] at hhigh
        rw [hx, write_out _ _ _ _ (by simp)] at hlow
        exact Or.inr ⟨rfl, rfl, by simpa using hok, by rw [hx, hhigh], hlow⟩
  · rintro ⟨hi, hm, hmark, hwhole, hbody⟩
    have ht := tag_overhead_gcm hm
    have hopens : ∀ packet', l2_plaintext o tls ctx packet n = (true, packet') →
        l2_enc_start_offset tls.nonce_size + tag_overhead tls ≤ n →
        l2_opens o fake tls ctx packet n = true := fun packet' hp hle =>
      l2_opens_iff.mpr ⟨⟨hi, hle, hmark, fun h => hwhole h.2⟩, by rw [hp]⟩
    rcases hbody with ⟨rfl, hhigh, hlow⟩ | ⟨rfl, he, htag, hx, hlow⟩
    · have hp := @l2_plaintext_empty o tls ctx hm packet
      refine ⟨hopens _ hp (by omega), by omega, ?_, ?_⟩
      · rw [hp]
        exact hhigh
      · rw [hp]
        exact hlow
    · have hp := @l2_plaintext_byte o tls ctx hm packet
      rw [he, if_pos rfl, htag, hx, beq_self_eq_true] at hp
      refine ⟨hopens _ hp (by omega), by omega, ?_, ?_⟩
      · rw [hp]
        exact write_head _ _ _ _
      · rw [hp]
        exact (write_out _ _ _ _ (by simp [hs])).trans hlow

end ne_ip.empty_body
