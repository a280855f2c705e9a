-- The receive path as a whole: the tries of the dispatch, its loop over the
-- policies of layer 2, and the frames on which every function stays inside.
import NeIp.EmptyBody
import NeIp.Sample

open byte_buf access_log ne_ip.packet_crypto ne_ip.config ne_ip.crypto_dispatch

namespace ne_ip.receive_safety

open crypto_layer2 (l2_enc_start_offset)
open frame_access (within_byte within_word)
open length_safety empty_body

/-- The nonce sizes a policy can have. -/
def NONCE_SIZES : List Nat := [4, 8, 12, 16]

variable {o : Openssl} {tls : Tls} {ctx : PacketCryptoCtx} {n : Nat}

/-! ## The tries of the dispatch -/

/-- The length that a dispatch leaves in `*pkt_len`. -/
def dispatch_len (r : DispatchResult) : Option Nat := some r.pkt_len

theorem Safe.kept {r : DispatchResult} (hn : 14 ≤ n) (h : r.pkt_len = n) :
    Safe n (pure r) dispatch_len :=
  Safe.ret fun m hm => by
    have := Option.some.inj hm
    omega

variable {decrypt : dispatch_access.Decrypt}

theorem try_policy_safe (hn : 14 ≤ n) {cp : CryptoPolicy} {tls : Tls} {ctx : PacketCryptoCtx}
    {pkt : Buf} (hd : Safe n (decrypt (crypto_apply_from_policy cp tls) ctx pkt n) (·.1)) :
    Safe n (dispatch_access.try_policy decrypt cp ctx tls pkt n) dispatch_len := by
  unfold dispatch_access.try_policy
  refine Safe.bind hd.within ?_
  rcases hv : (decrypt (crypto_apply_from_policy cp tls) ctx pkt n).val with ⟨_ | new_len, pkt'⟩
  · exact Safe.kept hn rfl
  · refine Safe.ret fun m hm => ?_
    have hnew := hd.returned new_len (congrArg Prod.fst hv)
    split at hm
    · exact Option.some.inj hm ▸ hnew
    · have := Option.some.inj hm
      dsimp only at this
      omega

theorem try_policy_kept (decrypt : crypto_dispatch.Decrypt) (cp : CryptoPolicy)
    (ctx : PacketCryptoCtx) (tls : Tls) (pkt : Buf) (n : Nat) :
    (crypto_dispatch.try_policy decrypt cp ctx tls pkt n).ok = false →
      (crypto_dispatch.try_policy decrypt cp ctx tls pkt n).pkt_len = n := by
  unfold crypto_dispatch.try_policy
  dsimp only
  rcases decrypt (crypto_apply_from_policy cp tls) ctx pkt n with ⟨_ | new_len, pkt'⟩
  · exact fun _ => rfl
  · dsimp only
    by_cases hlt : new_len < n
    · simp [hlt]
    · simp [hlt]

/-- A failed try leaves the length. -/
theorem try_tables_kept (decrypt : crypto_dispatch.Decrypt) (t : PolicyTables)
    (action_layer : PolicyAction) (policy_id : UInt8) (accepts : CryptoPolicy → Bool) (tls : Tls)
    (pkt : Buf) (n : Nat)
    (h : (crypto_dispatch.try_tables decrypt t action_layer policy_id accepts tls pkt n).ok =
      false) :
    (crypto_dispatch.try_tables decrypt t action_layer policy_id accepts tls pkt n).pkt_len = n := by
  unfold crypto_dispatch.try_tables at h ⊢
  split at h
  · rfl
  split at h
  · rfl
  split at h
  · rename_i htry
    rw [if_pos htry]
    exact try_policy_kept _ _ _ _ _ _ h
  · rename_i htry
    rw [if_neg htry]

theorem try_tables_safe (hn : 14 ≤ n)
    (hd : ∀ tls ctx pkt, Safe n (decrypt tls ctx pkt n) (·.1)) (t : PolicyTables)
    (action_layer : PolicyAction) (policy_id : UInt8) (accepts : CryptoPolicy → Bool) (tls : Tls)
    (pkt : Buf) :
    Safe n (dispatch_access.try_tables decrypt t action_layer policy_id accepts tls pkt n)
      dispatch_len := by
  unfold dispatch_access.try_tables
  split
  · exact Safe.kept hn rfl
  split
  · exact Safe.kept hn rfl
  split
  · exact try_policy_safe hn (hd _ _ _)
  · exact Safe.kept hn rfl

/-- Two tries with a function that is safe for any key are safe, whatever the first leaves of
the packet. -/
theorem try_current_then_prev_safe (hn : 14 ≤ n)
    (hd : ∀ tls ctx pkt, Safe n (decrypt tls ctx pkt n) (·.1)) (dctx : CryptoDispatchCtx)
    (action_layer : PolicyAction) (policy_id : UInt8) (accepts : CryptoPolicy → Bool) (tls : Tls)
    (pkt : Buf) :
    Safe n (dispatch_access.try_current_then_prev decrypt dctx action_layer policy_id accepts tls
      pkt n) dispatch_len := by
  have h1 := try_tables_safe hn hd dctx.active action_layer policy_id accepts tls pkt
  unfold dispatch_access.try_current_then_prev
  refine Safe.bind h1.within ?_
  split
  · exact Safe.ret h1.returned
  rename_i hfail
  have hkept := try_tables_kept (dispatch_access.result decrypt) dctx.active action_layer policy_id
    accepts tls pkt n (by simpa [dispatch_access.try_tables_val] using hfail)
  rw [← dispatch_access.try_tables_val] at hkept
  split
  · rw [hkept]
    exact try_tables_safe hn hd dctx.prev action_layer policy_id accepts _ _
  · exact Safe.kept hn hkept

/-! ## The loop over the layer 2 policies -/

/-- A frame that does not get to AES comes back at its length or not at all. -/
theorem crypto_layer2_decrypt_early (o : Openssl) {fake : Nat} {packet : Buf}
    (h : ¬ ReachesAes fake tls ctx packet n) :
    (crypto_layer2.crypto_layer2_decrypt o fake tls ctx packet n).1 = none ∨
      (crypto_layer2.crypto_layer2_decrypt o fake tls ctx packet n).1 = some n := by
  unfold crypto_layer2.crypto_layer2_decrypt
  dsimp only
  split
  · exact Or.inl rfl
  rename_i hlen
  split
  · exact Or.inr rfl
  rename_i hmark
  split
  · exact Or.inr rfl
  rename_i hfrag
  split
  · exact Or.inl rfl
  rename_i hroom
  refine absurd ⟨?_, Nat.not_lt.mp hroom, by simpa using hmark, hfrag⟩ h
  simpa using (not_or.mp hlen).1

/-- Behind AES it comes back shorter, or not at all when AES refuses it. -/
theorem crypto_layer2_decrypt_at_aes (hns : 0 < tls.nonce_size) {fake : Nat} {packet : Buf}
    (h : ReachesAes fake tls ctx packet n) :
    ((l2_plaintext o tls ctx packet n).1 = true →
      ∃ m, (crypto_layer2.crypto_layer2_decrypt o fake tls ctx packet n).1 = some m ∧ m < n) ∧
    ((l2_plaintext o tls ctx packet n).1 = false →
      (crypto_layer2.crypto_layer2_decrypt o fake tls ctx packet n).1 = none) := by
  have hs : l2_enc_start_offset tls.nonce_size = 14 + tls.nonce_size := rfl
  have hE : ETH_HEADER_SIZE = 14 := rfl
  obtain ⟨hready, hroom, hmark, hwhole⟩ := h
  have hlen : ¬ ((!ctx.initialized) = true ∨ n < l2_enc_start_offset tls.nonce_size) := by
    simp [hready]
    omega
  unfold crypto_layer2.crypto_layer2_decrypt
  dsimp only
  rw [if_neg hlen, if_neg (by simp [hmark]), if_neg hwhole, if_neg (Nat.not_lt.mpr hroom)]
  generalize hp : aes_decrypt o tls _ _ _ _ _ packet _ _ = r
  have hplain : l2_plaintext o tls ctx packet n = r := hp
  rw [hplain]
  rcases r with ⟨_ | _, packet'⟩
  · exact ⟨fun hok => absurd hok Bool.false_ne_true, fun _ => rfl⟩
  · refine ⟨fun _ => ?_, fun hok => absurd hok.symm Bool.false_ne_true⟩
    dsimp only
    split
    · exact ⟨_, rfl, by omega⟩
    · exact ⟨_, rfl, by omega⟩

/-- A frame that opens comes back shorter, any other at its length or not at all. -/
theorem crypto_layer2_decrypt_returned (hns : 0 < tls.nonce_size) (fake : Nat) (packet : Buf) :
    (l2_opens o fake tls ctx packet n = true ∧
      ∃ m, (crypto_layer2.crypto_layer2_decrypt o fake tls ctx packet n).1 = some m ∧ m < n) ∨
    (l2_opens o fake tls ctx packet n = false ∧
      ((crypto_layer2.crypto_layer2_decrypt o fake tls ctx packet n).1 = none ∨
        (crypto_layer2.crypto_layer2_decrypt o fake tls ctx packet n).1 = some n)) := by
  by_cases haes : ReachesAes fake tls ctx packet n
  · obtain ⟨hopened, hrefused⟩ := crypto_layer2_decrypt_at_aes (o := o) hns haes
    cases hok : (l2_plaintext o tls ctx packet n).1 with
    | true => exact Or.inl ⟨l2_opens_iff.mpr ⟨haes, hok⟩, hopened hok⟩
    | false =>
      refine Or.inr ⟨Bool.eq_false_iff.mpr fun ho => ?_, Or.inl (hrefused hok)⟩
      rw [(l2_opens_iff.mp ho).2] at hok
      exact Bool.false_ne_true hok.symm
  · exact Or.inr ⟨Bool.eq_false_iff.mpr fun ho => haes (l2_opens_iff.mp ho).1,
      crypto_layer2_decrypt_early o haes⟩

/-- A try of layer 2 succeeds on the frames that open, and leaves the settings of its policy. -/
theorem try_policy_layer2 (o : Openssl) (fake : Nat) {cp : CryptoPolicy}
    (hns : 0 < cp.nonce_size) (ctx : PacketCryptoCtx) (tls : Tls) (pkt : Buf) (n : Nat) :
    (crypto_dispatch.try_policy (crypto_layer2.crypto_layer2_decrypt o fake) cp ctx tls pkt n).ok =
        l2_opens o fake (crypto_apply_from_policy cp tls) ctx pkt n ∧
      (crypto_dispatch.try_policy (crypto_layer2.crypto_layer2_decrypt o fake) cp ctx tls pkt
        n).tls = crypto_apply_from_policy cp tls := by
  have hcases := @crypto_layer2_decrypt_returned o (crypto_apply_from_policy cp tls) ctx n hns fake
    pkt
  unfold crypto_dispatch.try_policy
  dsimp only
  rcases hcases with ⟨ho, m, hm, hlt⟩ | ⟨ho, hm⟩
  · rcases hr : crypto_layer2.crypto_layer2_decrypt o fake (crypto_apply_from_policy cp tls) ctx pkt
      n with ⟨ret, pkt'⟩
    rw [hr] at hm
    dsimp only at hm
    subst hm
    dsimp only
    rw [if_pos hlt, ho]
    exact ⟨rfl, rfl⟩
  · rcases hr : crypto_layer2.crypto_layer2_decrypt o fake (crypto_apply_from_policy cp tls) ctx pkt
      n with ⟨ret, pkt'⟩
    rw [hr] at hm
    dsimp only at hm
    rw [ho]
    rcases hm with hm | hm
    · subst hm
      exact ⟨rfl, rfl⟩
    · subst hm
      dsimp only
      rw [if_neg (Nat.lt_irrefl n)]
      exact ⟨rfl, rfl⟩

/-- So a try of layer 2 is as safe as the decryption it makes. -/
theorem try_policy_layer2_safe_iff (hn : 14 ≤ n) (o : Openssl) (fake : Nat) {cp : CryptoPolicy}
    (hns : 0 < cp.nonce_size) (ctx : PacketCryptoCtx) (tls : Tls) (pkt : Buf) :
    Safe n (dispatch_access.try_policy (frame_access.crypto_layer2_decrypt o fake) cp ctx tls pkt n)
        dispatch_len ↔ ¬ EmptyPlain o fake (crypto_apply_from_policy cp tls) ctx pkt n := by
  rw [← crypto_layer2_decrypt_safe_iff hn]
  constructor
  · intro h
    refine ⟨?_, fun r hr => ?_⟩
    · have hw := h.within
      unfold dispatch_access.try_policy at hw
      exact (within_bind.mp hw).1
    rw [frame_access.crypto_layer2_decrypt_val] at hr
    rcases @crypto_layer2_decrypt_returned o (crypto_apply_from_policy cp tls) ctx n hns fake pkt
      with ⟨-, m, hm, hlt⟩ | ⟨-, hm | hm⟩
    · obtain rfl := Option.some.inj (hm.symm.trans hr)
      refine h.returned m ?_
      rw [dispatch_access.try_policy_val, dispatch_access.result_crypto_layer2_decrypt]
      unfold crypto_dispatch.try_policy dispatch_len
      dsimp only
      rcases hp : crypto_layer2.crypto_layer2_decrypt o fake (crypto_apply_from_policy cp tls) ctx
        pkt n with ⟨ret, pkt'⟩
      rw [hp] at hm
      dsimp only at hm
      subst hm
      dsimp only
      rw [if_pos hlt]
    · rw [hm] at hr
      simp at hr
    · obtain rfl := Option.some.inj (hm.symm.trans hr)
      exact ⟨hn, le_refl n⟩
  · exact fun h => try_policy_safe hn h

/-- The settings of an earlier layer 2 policy do not outlast the next. -/
theorem crypto_apply_from_policy_again {cp : CryptoPolicy} (h : cp.action = .encrypt_l2)
    (cp' : CryptoPolicy) (tls : Tls) :
    crypto_apply_from_policy cp' (crypto_apply_from_policy cp tls) =
      crypto_apply_from_policy cp' tls := by
  unfold crypto_apply_from_policy
  simp [h]

/-- The policies that the loop tries, with their indices. -/
def l2_tried (t : PolicyTables) (l : List (CryptoPolicy × Nat)) : List (CryptoPolicy × Nat) :=
  l.filter fun c => c.1.action == .encrypt_l2 && t.ready c.2

/-- The policy whose decryption the loop takes: the first that opens the frame. -/
def l2_taken (o : Openssl) (fake : Nat) (t : PolicyTables) (l : List (CryptoPolicy × Nat))
    (tls : Tls) (pkt : Buf) (n : Nat) : Option (CryptoPolicy × Nat) :=
  (l2_tried t l).find? fun c =>
    l2_opens o fake (crypto_apply_from_policy c.1 tls) (t.ctx c.2) pkt n

theorem try_all_l2_safe_iff (hn : 14 ≤ n) (o : Openssl) (fake : Nat) (t : PolicyTables)
    (scratch_sz : Nat) (pkt : Buf) {l : List (CryptoPolicy × Nat)}
    (hns : ∀ c ∈ l, 0 < c.1.nonce_size) (tls : Tls) :
    Safe n (dispatch_access.try_all_l2 o fake t scratch_sz pkt n l tls) dispatch_len ↔
      (n ≤ scratch_sz → ∀ c, l2_taken o fake t l tls pkt n = some c →
        ¬ EmptyPlain o fake (crypto_apply_from_policy c.1 tls) (t.ctx c.2) pkt n) := by
  induction l generalizing tls with
  | nil => exact iff_of_true (Safe.kept hn rfl) fun _ c hc => by simp [l2_taken, l2_tried] at hc
  | cons c rest ih =>
    obtain ⟨cp, pi⟩ := c
    have hrest := ih (fun c hc => hns c (List.mem_cons_of_mem _ hc))
    have hsize : 0 < cp.nonce_size := hns (cp, pi) (by simp)
    unfold dispatch_access.try_all_l2
    by_cases hskip : cp.action ≠ .encrypt_l2 ∨ (!t.ready pi) = true
    · have htaken : l2_taken o fake t ((cp, pi) :: rest) tls pkt n =
          l2_taken o fake t rest tls pkt n := by
        unfold l2_taken l2_tried
        rw [List.filter_cons_of_neg]
        rcases hskip with h | h
        · simp [h]
        · simp_all
      rw [if_pos hskip, htaken]
      exact hrest tls
    rw [if_neg hskip]
    obtain ⟨hact, hready⟩ := not_or.mp hskip
    rw [Decidable.not_not] at hact
    by_cases hsz : scratch_sz < n
    · rw [if_pos hsz]
      exact iff_of_true (Safe.kept hn rfl) fun h => absurd h (by omega)
    rw [if_neg hsz, safe_bind_iff, safe_bind_iff, dispatch_access.try_policy_val,
      dispatch_access.result_crypto_layer2_decrypt]
    obtain ⟨hok, htls⟩ := try_policy_layer2 o fake hsize (t.ctx pi) tls pkt n
    have hiff := try_policy_layer2_safe_iff hn o fake hsize (t.ctx pi) tls pkt
    rw [hok, htls]
    have hcopy : Within n (copy_from 0 n) := within_copy_from.mpr ⟨le_refl n, by omega⟩
    have hin : (cp.action == .encrypt_l2 && t.ready pi) = true := by
      rw [hact]
      simpa using hready
    cases hopen : l2_opens o fake (crypto_apply_from_policy cp tls) (t.ctx pi) pkt n with
    | true =>
      have htaken : l2_taken o fake t ((cp, pi) :: rest) tls pkt n = some (cp, pi) := by
        unfold l2_taken l2_tried
        rw [List.filter_cons, if_pos hin, List.find?_cons]
        dsimp only
        rw [hopen]
      rw [htaken, if_pos rfl]
      constructor
      · rintro ⟨-, hw, hr⟩ - c hc
        obtain rfl := Option.some.inj hc
        refine hiff.mp ⟨hw, ?_⟩
        rw [dispatch_access.try_policy_val, dispatch_access.result_crypto_layer2_decrypt]
        exact hr.returned
      · intro h
        have hsafe := hiff.mpr (h (by omega) _ rfl)
        refine ⟨hcopy, hsafe.within, Safe.ret ?_⟩
        have hr := hsafe.returned
        rw [dispatch_access.try_policy_val, dispatch_access.result_crypto_layer2_decrypt] at hr
        exact hr
    | false =>
      have htaken : l2_taken o fake t ((cp, pi) :: rest) tls pkt n =
          l2_taken o fake t rest (crypto_apply_from_policy cp tls) pkt n := by
        unfold l2_taken l2_tried
        rw [List.filter_cons, if_pos hin, List.find?_cons]
        dsimp only
        rw [hopen]
        simp only [crypto_apply_from_policy_again hact]
      have hsafe := hiff.mpr fun he => by simp [he.opens] at hopen
      rw [if_neg (by simp), safe_bind_iff, htaken, hrest]
      simp only [crypto_apply_from_policy_again hact]
      exact ⟨fun h => h.2.2.2, fun h => ⟨hcopy, hsafe.within, within_copy.mpr (le_refl n), h⟩⟩

/-! ## The dispatch -/

/-- A frame with one or two VLAN tags before an IPv4 packet of no byte. -/
def EndsBehindTags (pkt : Buf) (n : Nat) : Prop :=
  be16 pkt 12 = 0x8100 ∧ ((n = 18 ∧ be16 pkt 16 = 0x0800) ∨
    (n = 22 ∧ be16 pkt 16 = 0x8100 ∧ be16 pkt 20 = 0x0800))

theorem offset_at_end_iff {pkt : Buf} (hip : be16 pkt 12 = 0x0800 → 34 ≤ n) :
    crypto_layer4.crypto_eth_ipv4_offset pkt n = some n ↔ EndsBehindTags pkt n := by
  constructor
  · intro h
    rcases crypto_layer4.crypto_eth_ipv4_offset_cases h with
      ⟨rfl, -, h12⟩ | ⟨rfl, -, h12, h16⟩ | ⟨rfl, -, h12, h16, h20⟩
    · have := hip h12
      omega
    · exact ⟨h12, Or.inl ⟨rfl, h16⟩⟩
    · exact ⟨h12, Or.inr ⟨rfl, h16, h20⟩⟩
  · rintro ⟨h12, ⟨rfl, h16⟩ | ⟨rfl, h16, h20⟩⟩
    · simp [crypto_layer4.crypto_eth_ipv4_offset, h12, h16]
    · simp [crypto_layer4.crypto_eth_ipv4_offset, h12, h16, h20]

theorem crypto_l3_extract_policy_id_within (magic : UInt8) (tls : Tls) (cfg : AppConfig)
    (pkt : Buf) : Within n (dispatch_access.crypto_l3_extract_policy_id magic tls cfg pkt n) := by
  unfold dispatch_access.crypto_l3_extract_policy_id
  split
  · exact within_pure none
  rw [within_bind, within_word]
  refine ⟨by omega, ?_⟩
  split
  · exact within_pure none
  rw [within_bind, within_byte]
  refine ⟨by omega, ?_⟩
  dsimp only
  split
  · exact within_pure none
  rw [within_bind, within_byte]
  refine ⟨by omega, ?_⟩
  generalize (if tls.fake_protocol = 0 then (99 : UInt8) else tls.fake_protocol) = marker
  split
  · exact within_pure none
  split
  · exact within_pure none
  · rw [within_bind]
    exact ⟨within_findM? fun cp _ => tunnel_of_policy_within _ _ pkt _ cp, within_pure _⟩

theorem crypto_l4_extract_policy_id_ipv4_within (cfg : AppConfig) (pkt : Buf) :
    Within n (dispatch_access.crypto_l4_extract_policy_id_ipv4 cfg pkt n) := by
  unfold dispatch_access.crypto_l4_extract_policy_id_ipv4
  rw [within_bind]
  refine ⟨crypto_eth_ipv4_offset_within pkt, ?_⟩
  split
  · exact within_pure none
  split
  · exact within_pure none
  rw [within_bind, within_byte]
  refine ⟨by omega, ?_⟩
  dsimp only
  split
  · exact within_pure none
  split
  · exact within_pure none
  rw [within_bind, within_byte]
  refine ⟨by omega, ?_⟩
  split
  · exact within_pure none
  split
  · exact within_pure none
  · rw [within_bind]
    exact ⟨within_findM? fun cp _ => tunnel_of_policy_within _ _ pkt _ cp, within_pure _⟩

/-- The L4 branch reads the first byte of the IPv4 header, which the frame need not have. -/
theorem decrypt_l4_safe_iff (hn : 14 ≤ n) (o : Openssl) (cfg : AppConfig)
    (dctx : CryptoDispatchCtx) (tls : Tls) {pkt : Buf} (hip : be16 pkt 12 = 0x0800 → 34 ≤ n) :
    Safe n (dispatch_access.decrypt_l4 o cfg dctx tls pkt n) dispatch_len ↔
      ¬ EndsBehindTags pkt n := by
  have hoffset := crypto_eth_ipv4_offset_within (n := n) pkt
  unfold dispatch_access.decrypt_l4
  rw [← offset_at_end_iff hip, safe_bind_iff, frame_access.crypto_eth_ipv4_offset_val]
  cases hoff : crypto_layer4.crypto_eth_ipv4_offset pkt n with
  | none => exact iff_of_true ⟨hoffset, Safe.kept hn rfl⟩ (by simp)
  | some l3_off =>
    dsimp only
    rw [safe_bind_iff, within_byte]
    obtain ⟨-, hle⟩ := crypto_eth_ipv4_offset_le hoff
    constructor
    · rintro ⟨-, hlt, -⟩ h
      have := Option.some.inj h
      omega
    intro hne
    have hlt : l3_off < n := lt_of_le_of_ne hle fun h => hne (congrArg some h)
    refine ⟨hoffset, hlt, ?_⟩
    split
    · exact Safe.kept hn rfl
    split
    · exact Safe.kept hn rfl
    refine Safe.bind (within_byte.mpr (by omega)) ?_
    split
    · exact Safe.kept hn rfl
    split
    · exact Safe.kept hn rfl
    refine Safe.bind (crypto_l4_extract_policy_id_ipv4_within cfg pkt) ?_
    split
    · exact Safe.kept hn rfl
    · exact try_current_then_prev_safe hn (crypto_layer4_decrypt_safe hn o) dctx _ _ _ tls pkt

/-! ## The receive path -/

/-- A thread that receives: the settings and the key that its decrypt functions are called
with, and the arguments of its dispatch. `magic` is `CRYPTO_L3_TUNNEL_MAGIC` and `fake` is
`g_fake_ethertype_ipv4`. -/
structure Receiver where
  magic : UInt8
  fake : Nat
  tls : Tls
  ctx : PacketCryptoCtx
  crypto_enabled : Bool
  cfg : AppConfig
  dctx : CryptoDispatchCtx
  action_layer : PolicyAction
  scratch_sz : Nat
  nonce_sizes : ∀ cp ∈ cfg.policies, cp.nonce_size ∈ NONCE_SIZES

/-- Every function of the receive path stays inside a frame. -/
structure ReceiveSafe (o : Openssl) (r : Receiver) (f : Received) : Prop where
  layer2 : Safe f.len (frame_access.crypto_layer2_decrypt o r.fake r.tls r.ctx f.pkt f.len) (·.1)
  layer3 : Safe f.len (frame_access.crypto_layer3_decrypt o r.tls r.ctx f.pkt f.len) (·.1)
  layer4 : Safe f.len (frame_access.crypto_layer4_decrypt o r.tls r.ctx f.pkt f.len) (·.1)
  layer2_fragment : Safe f.len
    (frame_access.crypto_layer2_decrypt_fragment o r.fake r.tls r.ctx f.pkt f.len) fragment_len
  layer3_fragment : Safe f.len
    (frame_access.crypto_layer3_decrypt_fragment o r.tls r.ctx f.pkt f.len) fragment_len
  layer4_fragment : Safe f.len
    (frame_access.crypto_layer4_decrypt_fragment o r.tls r.ctx f.pkt f.len) fragment_len
  is_fragment : Within f.len (dispatch_access.frag_is_fragment r.tls r.cfg f.pkt f.len)
  is_fragment_l2 : Within f.len (dispatch_access.frag_is_fragment_l2 r.fake r.cfg f.pkt f.len)
  is_fragment_l4 : Within f.len (dispatch_access.frag_is_fragment_l4 r.tls r.cfg f.pkt f.len)
  dispatch : Safe f.len
    (dispatch_access.crypto_decrypt_packet_auto_by_action o r.magic r.fake r.crypto_enabled r.cfg
      r.dctx r.action_layer r.tls f.pkt f.len r.scratch_sz) dispatch_len

/-- The frames with which it does: none that layer 2 opens has an empty body, whether it is
called by itself, with the default key or with the first policy that opens the frame, and none
for the L4 branch ends behind its VLAN tags. -/
structure LengthsFit (o : Openssl) (r : Receiver) (f : Received) : Prop where
  layer2 : ¬ EmptyBody o r.fake r.tls r.ctx f.pkt f.len
  default_key : r.crypto_enabled = true → r.cfg.policies = [] → r.cfg.encrypt_layer = 2 →
    ¬ EmptyBody o r.fake (crypto_apply_default_from_cfg r.cfg r.tls) r.dctx.base_ctx f.pkt f.len
  policy_key : r.crypto_enabled = true → r.cfg.policies ≠ [] → r.action_layer = .encrypt_l2 →
    f.len ≤ r.scratch_sz → ∀ c,
      l2_taken o r.fake r.dctx.active r.cfg.policies.zipIdx r.tls f.pkt f.len = some c →
      ¬ EmptyBody o r.fake (crypto_apply_from_policy c.1 r.tls) (r.dctx.active.ctx c.2) f.pkt f.len
  ip_header : r.crypto_enabled = true → r.cfg.policies ≠ [] → r.action_layer = .encrypt_l4 →
    ¬ EndsBehindTags f.pkt f.len

/-- `packet_decrypt` is as safe as the layer that it calls. -/
theorem packet_decrypt_safe_iff (hn : 14 ≤ n) (o : Openssl) (fake encrypt_layer : Nat) (tls : Tls)
    (ctx : PacketCryptoCtx) (pkt : Buf) :
    Safe n (dispatch_access.packet_decrypt o fake encrypt_layer tls ctx pkt n) (·.1) ↔
      (encrypt_layer = 2 → ¬ EmptyPlain o fake tls ctx pkt n) := by
  unfold dispatch_access.packet_decrypt
  split
  · rename_i h2
    rw [crypto_layer2_decrypt_safe_iff hn]
    exact ⟨fun h _ => h, fun h => h h2⟩
  rename_i h2
  refine iff_of_true ?_ fun h => absurd h h2
  split
  · exact crypto_layer3_decrypt_safe hn o tls ctx pkt
  split
  · exact crypto_layer4_decrypt_safe hn o tls ctx pkt
  · exact Safe.ret (by simp)

/-- The dispatch copies the length of a decryption, and a failure leaves it. -/
theorem default_dispatch_safe_iff (hn : 14 ≤ n) {m : Logged (Option Nat × Buf)} {tls : Tls} :
    Safe n (do
      match ← m with
      | (none, pkt) => pure { ok := false, pkt, pkt_len := n, tls }
      | (some new_len, pkt) => pure { ok := true, pkt, pkt_len := new_len, tls }) dispatch_len ↔
      Safe n m (·.1) := by
  rw [safe_bind_iff]
  rcases hv : m.val with ⟨_ | new_len, pkt'⟩
  · constructor
    · exact fun h => ⟨h.1, fun r hr => by simp [hv] at hr⟩
    · exact fun h => ⟨h.within, Safe.kept hn rfl⟩
  · constructor
    · refine fun h => ⟨h.1, fun r hr => ?_⟩
      rw [hv] at hr
      exact h.2.returned r hr
    · refine fun h => ⟨h.within, Safe.ret fun r hr => h.returned r ?_⟩
      rw [hv]
      exact hr

/-- The dispatch stays inside a frame when what it calls does, and the L4 branch on the frames
that go on behind their tags. -/
theorem dispatch_safe_iff {o : Openssl} (ho : o.Lawful) (r : Receiver) (f : Received) :
    Safe f.len (dispatch_access.crypto_decrypt_packet_auto_by_action o r.magic r.fake
      r.crypto_enabled r.cfg r.dctx r.action_layer r.tls f.pkt f.len r.scratch_sz) dispatch_len ↔
      (r.crypto_enabled = true → r.cfg.policies = [] → r.cfg.encrypt_layer = 2 →
        ¬ EmptyBody o r.fake (crypto_apply_default_from_cfg r.cfg r.tls) r.dctx.base_ctx f.pkt
          f.len) ∧
      (r.crypto_enabled = true → r.cfg.policies ≠ [] → r.action_layer = .encrypt_l2 →
        f.len ≤ r.scratch_sz → ∀ c,
          l2_taken o r.fake r.dctx.active r.cfg.policies.zipIdx r.tls f.pkt f.len = some c →
          ¬ EmptyBody o r.fake (crypto_apply_from_policy c.1 r.tls) (r.dctx.active.ctx c.2) f.pkt
            f.len) ∧
      (r.crypto_enabled = true → r.cfg.policies ≠ [] → r.action_layer = .encrypt_l4 →
        ¬ EndsBehindTags f.pkt f.len) := by
  have hn := f.min_len
  unfold dispatch_access.crypto_decrypt_packet_auto_by_action
  cases hen : r.crypto_enabled with
  | false => exact iff_of_true (Safe.kept hn rfl) (by simp)
  | true =>
    simp only [Bool.not_true, Bool.false_eq_true, if_false, forall_const]
    by_cases hpol : r.cfg.policies = []
    · rw [if_pos hpol]
      simp only [hpol, ne_eq, not_true_eq_false, false_imp_iff, and_true, forall_const,
        ← emptyPlain_iff ho]
      exact (default_dispatch_safe_iff hn).trans (packet_decrypt_safe_iff hn o r.fake _ _ _ f.pkt)
    rw [if_neg hpol]
    simp only [hpol, ne_eq, not_false_eq_true, false_imp_iff, true_and, forall_const]
    have hsizes : ∀ c ∈ r.cfg.policies.zipIdx, 0 < c.1.nonce_size := by
      intro c hc
      have hmem := r.nonce_sizes c.1 (List.fst_mem_of_mem_zipIdx hc)
      unfold NONCE_SIZES at hmem
      simp only [List.mem_cons, List.not_mem_nil, or_false] at hmem
      omega
    cases r.action_layer with
    | bypass => exact iff_of_true (Safe.kept hn rfl) (by simp)
    | encrypt_l2 =>
      simp only [reduceCtorEq, false_imp_iff, and_true, forall_const, ← emptyPlain_iff ho]
      exact try_all_l2_safe_iff hn o r.fake r.dctx.active r.scratch_sz f.pkt hsizes r.tls
    | encrypt_l3 =>
      refine iff_of_true (Safe.bind (crypto_l3_extract_policy_id_within _ _ _ _) ?_) (by simp)
      split
      · exact Safe.kept hn rfl
      · exact try_current_then_prev_safe hn (crypto_layer3_decrypt_safe hn o) _ _ _ _ _ _
    | encrypt_l4 =>
      simp only [reduceCtorEq, false_imp_iff, true_and, forall_const]
      exact decrypt_l4_safe_iff hn o r.cfg r.dctx r.tls f.ipv4_len

/-- On a frame of any length, with any policies, keys and modes, the receive path reads no byte
outside the frame, hands no longer length to a copy and returns a length from 14 to that of the
frame, unless layer 2 opens an empty body or a frame for the L4 branch ends behind its tags. -/
theorem the_receive_path_stays_inside_the_frame_iff {o : Openssl} (ho : o.Lawful) (r : Receiver)
    (f : Received) : ReceiveSafe o r f ↔ LengthsFit o r f := by
  have hn := f.min_len
  have hlayer2 := (@crypto_layer2_decrypt_safe_iff o r.tls r.ctx f.len hn r.fake f.pkt).trans
    (not_congr (emptyPlain_iff ho))
  constructor
  · intro h
    obtain ⟨hdefault, hpolicy, hheader⟩ := (dispatch_safe_iff ho r f).mp h.dispatch
    exact ⟨hlayer2.mp h.layer2, hdefault, hpolicy, hheader⟩
  · intro h
    refine ⟨hlayer2.mpr h.layer2, crypto_layer3_decrypt_safe hn o r.tls r.ctx f.pkt,
      crypto_layer4_decrypt_safe hn o r.tls r.ctx f.pkt,
      crypto_layer2_decrypt_fragment_safe o r.fake r.tls r.ctx f.pkt,
      crypto_layer3_decrypt_fragment_safe o r.tls r.ctx f.pkt,
      crypto_layer4_decrypt_fragment_safe o r.tls r.ctx f.pkt,
      frag_is_fragment_within r.tls r.cfg f.pkt, frag_is_fragment_l2_within r.fake r.cfg f.pkt,
      frag_is_fragment_l4_within r.tls r.cfg f.pkt, ?_⟩
    exact (dispatch_safe_iff ho r f).mpr ⟨h.default_key, h.policy_key, h.ip_header⟩

open sample db_runtime forwarder

/-- 42 bytes that layer 2 takes for a GCM packet: a nonce and a tag, and nothing encrypted. -/
def tagOnly : Received where
  pkt := ofBytes [0x02, 0x00, 0x00, 0x00, 0x00, 0x02, 0x02, 0x00, 0x00, 0x00, 0x00, 0x01, 0x88, 0xb5,
    0, 0, 0, 0, 0, 0, 0, 0, 0, 0, 0, 0,
    0x08, 0x00, 0, 0, 0, 0, 0, 0, 0, 0, 0, 0, 0, 0, 0, 0]
  len := 42
  min_len := by decide
  ipv4_len := by decide

/-- 18 bytes with a VLAN tag and nothing behind it. -/
def bareVlan : Received where
  pkt := ofBytes [0x02, 0x00, 0x00, 0x00, 0x00, 0x02, 0x02, 0x00, 0x00, 0x00, 0x00, 0x01,
    0x81, 0x00, 0x00, 0x01, 0x08, 0x00]
  len := 18
  min_len := by decide
  ipv4_len := by decide

/-- A TCP segment in the clear. -/
def plainPing : Received where
  pkt := ofBytes tcpPing
  len := 58
  min_len := by decide
  ipv4_len := by decide

/-- A thread of a GCM configuration with one policy. -/
def sampleReceiver (action : PolicyAction) : Receiver where
  magic := 0x5a
  fake := 0x88b5
  tls := { crypto_mode := .gcm }
  ctx := init_ctx sampleOpenssl 128 masterKey.toList
  crypto_enabled := true
  cfg := sampleCfg [samplePolicy 7 action] (by decide : 1 ≤ MAX_CRYPTO_POLICIES)
  dctx := dispatch_ctx
    (sampleRuntime [samplePolicy 7 action] (by decide : 1 ≤ MAX_CRYPTO_POLICIES)) 0
  action_layer := action
  scratch_sz := 4096
  nonce_sizes := by
    intro cp hcp
    rw [List.mem_singleton.mp hcp]
    exact (by decide : 12 ∈ NONCE_SIZES)

theorem the_receive_path_stays_inside_a_plain_segment :
    ReceiveSafe sampleOpenssl (sampleReceiver .encrypt_l4) plainPing := by
  refine (the_receive_path_stays_inside_the_frame_iff sampleOpenssl_lawful _ _).mpr
    ⟨?_, fun _ hnil => ?_, fun _ _ hl2 => ?_, fun _ _ _ hend => ?_⟩
  · rintro ⟨-, -, hmark, -⟩
    revert hmark
    decide +kernel
  · cases hnil
  · cases hl2
  · exact absurd hend.1 (by decide +kernel)

/-- No key is needed for either of the two frames. -/
theorem the_receive_path_leaves_two_frames :
    ¬ ReceiveSafe sampleOpenssl (sampleReceiver .encrypt_l2) tagOnly ∧
      ¬ ReceiveSafe sampleOpenssl (sampleReceiver .encrypt_l4) bareVlan := by
  constructor
  · intro h
    refine (crypto_layer2_decrypt_safe_iff tagOnly.min_len).mp h.layer2
      ((emptyPlain_iff sampleOpenssl_lawful).mpr ⟨rfl, rfl, ?_, ?_, Or.inl ⟨rfl, rfl, rfl⟩⟩)
    · decide +kernel
    · decide +kernel
  · intro h
    obtain ⟨-, -, hheader⟩ := (dispatch_safe_iff sampleOpenssl_lawful _ _).mp h.dispatch
    refine hheader rfl (by decide) rfl ?_
    exact ⟨by decide +kernel, Or.inl ⟨rfl, by decide +kernel⟩⟩

end ne_ip.receive_safety
