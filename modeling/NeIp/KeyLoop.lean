-- The loop over the keys, which the decrypt functions run on a ciphertext in place:
-- what each turn finds, which turn accepts, and what is left when none does.
import NeIp.CryptoLayer2
import NeIp.CryptoLayer3
import NeIp.CryptoLayer4

open byte_buf ne_ip.packet_crypto ne_ip.tunnel

namespace ne_ip.key_loop

/-! ## The turns -/

section

variable (o : Openssl) (tls : Tls) (ctx : PacketCryptoCtx) (nonce : Bytes)

/-- The key of a slot, as long as AES wants it. -/
def key_of (slot : KeySlot) : Bytes :=
  (packet_crypto_get_key ctx slot).take (get_key_size tls.aes_bits)

/-- What AES puts over `data` under a key. -/
def pass (key data : Bytes) : Bytes := aesOf o tls.crypto_mode key nonce data

/-- The turns of the loop, each with the key that AES runs under and the bytes it finds where the
ciphertext stood. A ciphertext that does not fit into the backup is not put back. -/
def turns : GcmSide → List KeySlot → Bytes → List (Bytes × Bytes)
  | _, [], _ => []
  | s, slot :: slots, data =>
    let key := run_key tls s (packet_crypto_get_key ctx slot)
    (key, data) ::
      turns (next_side tls s (packet_crypto_get_key ctx slot)) slots
        (if data.length ≤ BACKUP_SIZE then data else pass o tls nonce key data)

/-- What stands there when every turn has failed. -/
def left_over (s : GcmSide) (slots : List KeySlot) (data : Bytes) : Bytes :=
  ((turns o tls ctx nonce s slots data).getLast?.map fun t => pass o tls nonce t.1 t.2).getD data

/-- The check of one turn: the tag in GCM mode, unless there is nothing to decrypt, and in CTR
mode what the function asks of the plaintext. -/
def accepts (tag : Bytes) (verify : Bytes → Bool) (t : Bytes × Bytes) : Bool :=
  match tls.crypto_mode with
  | .gcm => t.2.isEmpty || o.gcm_tag t.1 nonce t.2 == tag
  | .ctr => verify (pass o tls nonce t.1 t.2)

/-- No turn finds its key in the cache and another one in the context. -/
def KeysInPlace : GcmSide → List KeySlot → Prop
  | _, [] => True
  | s, slot :: slots =>
    KeyInPlace tls s (packet_crypto_get_key ctx slot) ∧
      KeysInPlace (next_side tls s (packet_crypto_get_key ctx slot)) slots

end

section

variable {o : Openssl} {tls : Tls} {ctx : PacketCryptoCtx} {nonce tag : Bytes}
  {verify : Bytes → Bool} {s : GcmSide}

theorem length_pass (ho : o.Lawful) (key data : Bytes) :
    (pass o tls nonce key data).length = data.length :=
  length_aesOf ho _ _ _ _

theorem pass_nil (ho : o.Lawful) (key : Bytes) : pass o tls nonce key [] = [] :=
  List.length_eq_zero_iff.mp (length_pass ho key [])

/-- Every turn writes its keystream over the bytes, also the one that fails. -/
theorem aes_decrypt_eq (ho : o.Lawful) (he : tls.evp_ok = true) (s : GcmSide) (key : Bytes)
    (pkt : Buf) (off len : Nat) :
    aes_decrypt o tls s key nonce tag verify pkt off len =
      (accepts o tls nonce tag verify (run_key tls s key, read pkt off len),
        write pkt off (pass o tls nonce (run_key tls s key) (read pkt off len))) := by
  by_cases hl : len = 0
  · subst hl
    rw [read_zero, pass_nil ho, write_nil]
    unfold aes_decrypt accepts
    cases tls.crypto_mode with
    | gcm => rfl
    | ctr =>
      dsimp only
      rw [pass_nil ho]
      rfl
  · have hne : (read pkt off len).isEmpty = false := by
      rw [List.isEmpty_eq_false_iff, ← List.length_pos_iff, length_read]
      omega
    have hlen : (read pkt off len).length =
        (pass o tls nonce (run_key tls s key) (read pkt off len)).length := (length_pass ho _ _).symm
    unfold aes_decrypt accepts
    cases hm : tls.crypto_mode with
    | gcm =>
      dsimp only
      unfold crypto_aes_gcm_decrypt pass aesOf
      rw [hne, if_neg hl, he, hm, run_key_gcm hm]
      rfl
    | ctr =>
      rw [length_read] at hlen
      have hw : crypto_aes_ctr_with_key o tls key (crypto_nonce_to_iv nonce) pkt off len =
          some (write pkt off (pass o tls nonce (run_key tls s key) (read pkt off len))) := by
        unfold crypto_aes_ctr_with_key pass aesOf
        rw [if_neg hl, he, hm, run_key_ctr hm]
        rfl
      dsimp only
      rw [hw]
      dsimp only
      rw [read_write_self _ _ _ _ hlen]

/-- What the next turn finds when `x` stands in the ciphertext's place. -/
theorem write_work (pkt : Buf) (off : Nat) {k : Nat} {data x : Bytes} (hx : x.length = data.length)
    (hk : k = 0 → x = data) :
    (if 0 < k ∧ data.length ≤ BACKUP_SIZE then write (write pkt off x) off data
      else write pkt off x) = write pkt off (if data.length ≤ BACKUP_SIZE then data else x) := by
  by_cases hk0 : k = 0
  · rw [if_neg (by omega), hk hk0, ite_self]
  · by_cases hb : data.length ≤ BACKUP_SIZE
    · rw [if_pos ⟨by omega, hb⟩, if_pos hb, write_write _ _ _ _ hx.le]
    · rw [if_neg (fun h => hb h.2), if_neg hb]

theorem getLast_turns_cons (s : GcmSide) (slot : KeySlot) (slots : List KeySlot) (data x : Bytes) :
    (((turns o tls ctx nonce s (slot :: slots) data).getLast?.map fun t =>
        pass o tls nonce t.1 t.2).getD x) =
      (((turns o tls ctx nonce (next_side tls s (packet_crypto_get_key ctx slot)) slots
        (if data.length ≤ BACKUP_SIZE then data
          else pass o tls nonce (run_key tls s (packet_crypto_get_key ctx slot)) data)).getLast?.map
          fun t => pass o tls nonce t.1 t.2).getD
            (pass o tls nonce (run_key tls s (packet_crypto_get_key ctx slot)) data)) := by
  rw [turns, List.getLast?_cons]
  cases (turns o tls ctx nonce _ slots _).getLast? <;> rfl

/-- The loop from its `k`th turn on, over a packet with `x` in the ciphertext's place. -/
theorem try_keys_from (ho : o.Lawful) (he : tls.evp_ok = true) {pkt : Buf} {off : Nat}
    {data : Bytes} (s : GcmSide) (slots : List KeySlot) {k : Nat} {x : Bytes}
    (hx : x.length = data.length) (hk : k = 0 → x = data) :
    try_keys o tls ctx nonce tag verify off data.length data k s slots (write pkt off x) =
      ((turns o tls ctx nonce s slots (if data.length ≤ BACKUP_SIZE then data else x)).find?
          (accepts o tls nonce tag verify)).elim
        (false, write pkt off (((turns o tls ctx nonce s slots
          (if data.length ≤ BACKUP_SIZE then data else x)).getLast?.map
            fun t => pass o tls nonce t.1 t.2).getD x))
        fun t => (true, write pkt off (pass o tls nonce t.1 t.2)) := by
  induction slots generalizing k s x with
  | nil => rfl
  | cons slot slots ih =>
    have hy : (if data.length ≤ BACKUP_SIZE then data else x).length = data.length := by
      split
      · rfl
      · exact hx
    rw [try_keys, write_work pkt off hx hk, getLast_turns_cons, turns, List.find?_cons]
    -- the backup, if there is one, is put back again and again
    have hnext : ∀ key, (if (if data.length ≤ BACKUP_SIZE then data else x).length ≤ BACKUP_SIZE then
          (if data.length ≤ BACKUP_SIZE then data else x)
        else pass o tls nonce key (if data.length ≤ BACKUP_SIZE then data else x)) =
        if data.length ≤ BACKUP_SIZE then data
        else pass o tls nonce key (if data.length ≤ BACKUP_SIZE then data else x) := by
      intro key
      rw [hy]
      split <;> rfl
    rw [hnext]
    generalize (if data.length ≤ BACKUP_SIZE then data else x) = y at hy ⊢
    rw [aes_decrypt_eq ho he, read_write_self _ _ _ _ hy.symm,
      write_write _ _ _ _ (length_pass ho _ y).ge]
    cases accepts o tls nonce tag verify (run_key tls s (packet_crypto_get_key ctx slot), y) with
    | true => rfl
    | false => exact ih _ ((length_pass ho _ y).trans hy) (by omega)

/-- The whole loop, over the packet as it came: the first turn that accepts leaves its plaintext,
and a loop that fails what its last turn made. -/
theorem try_keys_eq (ho : o.Lawful) (he : tls.evp_ok = true) (pkt : Buf) (off len : Nat)
    (s : GcmSide) (slots : List KeySlot) :
    try_keys o tls ctx nonce tag verify off len (read pkt off len) 0 s slots pkt =
      ((turns o tls ctx nonce s slots (read pkt off len)).find?
          (accepts o tls nonce tag verify)).elim
        (false, write pkt off (left_over o tls ctx nonce s slots (read pkt off len)))
        fun t => (true, write pkt off (pass o tls nonce t.1 t.2)) := by
  have hfrom : try_keys o tls ctx nonce tag verify off (read pkt off len).length (read pkt off len)
      0 s slots (write pkt off (read pkt off len)) = _ :=
    try_keys_from ho he s slots rfl fun _ => rfl
  rw [length_read, write_read, ite_self] at hfrom
  exact hfrom

theorem try_keys_accepts_iff (ho : o.Lawful) (he : tls.evp_ok = true) (pkt : Buf) (off len : Nat)
    (s : GcmSide) (slots : List KeySlot) :
    (try_keys o tls ctx nonce tag verify off len (read pkt off len) 0 s slots pkt).1 = true ↔
      ∃ t ∈ turns o tls ctx nonce s slots (read pkt off len),
        accepts o tls nonce tag verify t = true := by
  rw [try_keys_eq ho he, ← List.find?_isSome]
  cases (turns o tls ctx nonce s slots (read pkt off len)).find? _ with
  | none => simp
  | some t => simp

theorem try_keys_failed (ho : o.Lawful) (he : tls.evp_ok = true) {pkt : Buf} {off len : Nat}
    {slots : List KeySlot}
    (h : (try_keys o tls ctx nonce tag verify off len (read pkt off len) 0 s slots pkt).1 = false) :
    (try_keys o tls ctx nonce tag verify off len (read pkt off len) 0 s slots pkt).2 =
      write pkt off (left_over o tls ctx nonce s slots (read pkt off len)) := by
  rw [try_keys_eq ho he] at h ⊢
  generalize (turns o tls ctx nonce s slots (read pkt off len)).find? _ = found at h ⊢
  cases found with
  | none => rfl
  | some t => simp at h

/-- Turns under one key go on with one context. -/
theorem turns_gcm (hm : tls.crypto_mode = .gcm) {key run : Bytes}
    (hk : ∀ slot, key_of tls ctx slot = key) (hr : (s.set_up key tls.nonce_size).evp_key = run)
    (data : Bytes) :
    turns o tls ctx nonce s key_order data =
      let next := fun x => if x.length ≤ BACKUP_SIZE then x else o.gcm run nonce x
      [(run, data), (run, next data), (run, next (next data))] := by
  have hrun : ∀ s' slot, run_key tls s' (packet_crypto_get_key ctx slot) =
      (s'.set_up key tls.nonce_size).evp_key := fun s' slot => by
    rw [run_key_gcm hm, ← hk slot]
    rfl
  have hside : ∀ s' slot, next_side tls s' (packet_crypto_get_key ctx slot) =
      s'.set_up key tls.nonce_size := fun s' slot => by
    unfold next_side
    rw [hm]
    exact congrArg (fun k => s'.set_up k tls.nonce_size) (hk slot)
  have hpass : pass o tls nonce run = o.gcm run nonce := by
    funext x
    unfold pass aesOf
    rw [hm]
  simp only [key_order, turns, hrun, hside, GcmSide.set_up_set_up, hr, hpass]

/-- A loop over slots that hold one key finds it in place when its first turn does. -/
theorem keysInPlace_of_inPlace {key : Bytes} (hk : ∀ slot, key_of tls ctx slot = key)
    (h : s.InPlace key tls.nonce_size) (slots : List KeySlot) : KeysInPlace tls ctx s slots := by
  induction slots generalizing s with
  | nil => trivial
  | cons slot slots ih =>
    have hslot : (packet_crypto_get_key ctx slot).take (get_key_size tls.aes_bits) = key := hk slot
    refine ⟨fun _ => hslot ▸ h, ih ?_⟩
    unfold next_side
    cases tls.crypto_mode with
    | ctr => exact h
    | gcm =>
      dsimp only
      rw [hslot]
      exact fun _ => h.set_up

/-- The loop over three slots that hold one key, in GCM mode. A packet that is refused is left with
the keystream over it; without a backup the second turn sees it like that. -/
theorem try_keys_gcm (ho : o.Lawful) (hm : tls.crypto_mode = .gcm) (he : tls.evp_ok = true)
    {key run : Bytes} (hk : ∀ slot, key_of tls ctx slot = key)
    (hr : (s.set_up key tls.nonce_size).evp_key = run) (off : Nat) {len : Nat} (hl : 0 < len)
    (pkt : Buf) :
    try_keys o tls ctx nonce tag verify off len (read pkt off len) 0 s key_order pkt =
      if o.gcm_tag run nonce (read pkt off len) = tag then
        (true, write pkt off (o.gcm run nonce (read pkt off len)))
      else if BACKUP_SIZE < len ∧
          o.gcm_tag run nonce (o.gcm run nonce (read pkt off len)) = tag then (true, pkt)
      else (false, write pkt off (o.gcm run nonce (read pkt off len))) := by
  have hx := length_read pkt off len
  have hback := write_read pkt off len
  rw [try_keys_eq ho he]
  generalize read pkt off len = x at hx hback ⊢
  have hpass : ∀ y, pass o tls nonce run y = o.gcm run nonce y := by
    intro y
    unfold pass aesOf
    rw [hm]
  have hsecond : (o.gcm run nonce x).length = len := (ho.length_gcm _ _ _).trans hx
  have hacc : ∀ y, y.length = len →
      accepts o tls nonce tag verify (run, y) = (o.gcm_tag run nonce y == tag) := by
    intro y hy
    have hne : y.isEmpty = false := by
      rw [List.isEmpty_eq_false_iff, ← List.length_pos_iff]
      omega
    unfold accepts
    rw [hm]
    dsimp only
    rw [hne, Bool.false_or]
  unfold left_over
  rw [turns_gcm hm hk hr]
  by_cases h1 : o.gcm_tag run nonce x = tag
  · rw [if_pos h1, List.find?_cons, hacc _ hx, beq_iff_eq.mpr h1]
    exact congrArg (fun y => (true, write pkt off y)) (hpass _)
  have h1' : (o.gcm_tag run nonce x == tag) = false := beq_eq_false_iff_ne.mpr h1
  rw [if_neg h1]
  by_cases hb : len ≤ BACKUP_SIZE
  · rw [if_neg (by omega)]
    simp only [hx, hb, if_true, List.find?_cons, List.find?_nil, hacc _ hx, h1']
    exact congrArg (fun y => (false, write pkt off y)) (hpass _)
  · simp only [hx, hsecond, hb, if_false, ho.gcm_gcm, List.find?_cons, List.find?_nil, hacc _ hx,
      hacc _ hsecond, h1']
    by_cases h2 : o.gcm_tag run nonce (o.gcm run nonce x) = tag
    · rw [if_pos ⟨by omega, h2⟩, beq_iff_eq.mpr h2]
      refine congrArg (fun b => (true, b)) ?_
      dsimp only
      rw [hpass, ho.gcm_gcm, hback]
    · rw [if_neg (fun h => h2 h.2), beq_eq_false_iff_ne.mpr h2]
      exact congrArg (fun y => (false, write pkt off y)) (hpass _)

theorem length_getD_turns (ho : o.Lawful) (s : GcmSide) (slots : List KeySlot) {data x : Bytes}
    (hx : x.length = data.length) :
    (((turns o tls ctx nonce s slots data).getLast?.map fun t =>
      pass o tls nonce t.1 t.2).getD x).length = data.length := by
  induction slots generalizing s data x with
  | nil => exact hx
  | cons slot slots ih =>
    have hp : (pass o tls nonce (run_key tls s (packet_crypto_get_key ctx slot)) data).length =
        data.length := length_pass ho _ data
    rw [getLast_turns_cons]
    split
    · exact ih _ hp
    · rw [ih _ rfl, hp]

theorem length_left_over (ho : o.Lawful) (s : GcmSide) (slots : List KeySlot) (data : Bytes) :
    (left_over o tls ctx nonce s slots data).length = data.length :=
  length_getD_turns ho s slots rfl

/-- Without a context of OpenSSL no turn does anything, and only an empty ciphertext passes. -/
theorem aes_decrypt_without_evp (he : tls.evp_ok = false) (s : GcmSide) (key : Bytes) (pkt : Buf)
    (off len : Nat) :
    (aes_decrypt o tls s key nonce tag verify pkt off len).2 = pkt ∧
    (0 < len → (aes_decrypt o tls s key nonce tag verify pkt off len).1 = false) := by
  unfold aes_decrypt crypto_aes_gcm_decrypt crypto_aes_ctr_with_key
  by_cases hl : len = 0
  · rw [if_pos hl, if_pos hl]
    refine ⟨?_, by omega⟩
    cases tls.crypto_mode <;> rfl
  · rw [if_neg hl, if_neg hl, he]
    refine ⟨?_, fun _ => ?_⟩
    · cases tls.crypto_mode <;> rfl
    · cases tls.crypto_mode <;> rfl

theorem try_keys_without_evp (he : tls.evp_ok = false) (slots : List KeySlot) (k : Nat)
    (s : GcmSide) (pkt : Buf) (off len : Nat) :
    (try_keys o tls ctx nonce tag verify off len (read pkt off len) k s slots pkt).2 = pkt ∧
    (0 < len →
      (try_keys o tls ctx nonce tag verify off len (read pkt off len) k s slots pkt).1 = false) := by
  induction slots generalizing k s with
  | nil => exact ⟨rfl, fun _ => rfl⟩
  | cons slot slots ih =>
    obtain ⟨hpkt, hok⟩ : (aes_decrypt o tls s (packet_crypto_get_key ctx slot) nonce tag verify pkt
        off len).2 = pkt ∧ (0 < len → (aes_decrypt o tls s (packet_crypto_get_key ctx slot) nonce tag
        verify pkt off len).1 = false) := aes_decrypt_without_evp he s _ pkt off len
    rw [try_keys, write_read, ite_self]
    generalize aes_decrypt o tls s (packet_crypto_get_key ctx slot) nonce tag verify pkt off len = r
      at hpkt hok ⊢
    obtain ⟨ok, pkt'⟩ := r
    obtain rfl : pkt' = pkt := hpkt
    cases ok with
    | true => exact ⟨rfl, hok⟩
    | false => exact ih (k + 1) _

end

/-! ## The steps around it -/

/-- A loop over some slots, on what stands from `enc_off` on: the tag is cut off the end, and a
packet too short for its tag is not touched. -/
def attempt (o : Openssl) (tls : Tls) (ctx : PacketCryptoCtx) (nonce : Bytes)
    (verify : Bytes → Bool) (slots : List KeySlot) (pkt : Buf) (enc_off total_after : Nat) :
    Bool × Buf :=
  if total_after < tag_overhead tls then (false, pkt)
  else
    let enc_len := total_after - tag_overhead tls
    try_keys o tls ctx nonce (read pkt (enc_off + enc_len) (tag_overhead tls)) verify enc_off
      enc_len (read pkt enc_off enc_len) 0 (dec_side tls ctx.key_current) slots pkt

section

variable {o : Openssl} {tls : Tls} {ctx : PacketCryptoCtx} {nonce : Bytes}
  {verify : Bytes → Bool}

theorem decrypt_in_place_eq (pkt : Buf) (enc_off total_after : Nat) :
    decrypt_in_place o tls ctx nonce verify pkt enc_off total_after =
      let r := attempt o tls ctx nonce verify key_order pkt enc_off total_after
      (if r.1 then some (total_after - tag_overhead tls) else none, r.2) := by
  unfold decrypt_in_place attempt
  split
  · rfl
  · dsimp only
    generalize try_keys o tls ctx nonce _ verify enc_off _ _ 0 _ key_order pkt = r
    obtain ⟨ok, pkt'⟩ := r
    cases ok <;> rfl

theorem write_eq_self_iff (b : Buf) (off : Nat) {bs : Bytes} {n : Nat} (h : bs.length = n) :
    write b off bs = b ↔ bs = read b off n := by
  constructor
  · intro hw
    rw [← hw, read_write_self _ _ _ _ h.symm]
  · intro hb
    rw [hb, write_read]

/-- A loop that fails leaves the packet alone exactly when it never starts or puts back what it
found. -/
theorem attempt_intact_iff (ho : o.Lawful) {slots : List KeySlot} {pkt : Buf}
    {enc_off total_after : Nat}
    (h : (attempt o tls ctx nonce verify slots pkt enc_off total_after).1 = false) :
    (attempt o tls ctx nonce verify slots pkt enc_off total_after).2 = pkt ↔
      total_after < tag_overhead tls ∨ tls.evp_ok = false ∨
      left_over o tls ctx nonce (dec_side tls ctx.key_current) slots
          (read pkt enc_off (total_after - tag_overhead tls)) =
        read pkt enc_off (total_after - tag_overhead tls) := by
  unfold attempt at h ⊢
  by_cases hs : total_after < tag_overhead tls
  · rw [if_pos hs]
    exact iff_of_true rfl (Or.inl hs)
  rw [if_neg hs] at h ⊢
  dsimp only at h ⊢
  cases he : tls.evp_ok with
  | false => exact iff_of_true (try_keys_without_evp he _ _ _ _ _ _).1 (Or.inr (Or.inl rfl))
  | true =>
    rw [try_keys_failed ho he h, write_eq_self_iff _ _ (length_left_over ho _ _ _),
      length_read]
    constructor
    · exact fun heq => Or.inr (Or.inr heq)
    · rintro (hlt | hfalse | heq)
      · exact absurd hlt hs
      · simp at hfalse
      · exact heq

end

/-! ## The functions -/

/-- The decrypt functions of the three layers. -/
inductive Opener where
  | layer2
  | layer3
  | layer4
  | layer2_fragment
  | layer3_fragment
  | layer4_fragment
  deriving DecidableEq

/-- Where a function finds its nonce and its ciphertext. -/
structure Start where
  nonce_off : Nat
  enc_off : Nat
  deriving DecidableEq

namespace Opener

/-- A call: the length it returns and the packet. -/
def decrypt (f : Opener) (o : Openssl) (fake : Nat) (tls : Tls) (ctx : PacketCryptoCtx)
    (packet : Buf) (pkt_len : Nat) : Option Nat × Buf :=
  match f with
  | .layer2 => crypto_layer2.crypto_layer2_decrypt o fake tls ctx packet pkt_len
  | .layer3 => crypto_layer3.crypto_layer3_decrypt o tls ctx packet pkt_len
  | .layer4 => crypto_layer4.crypto_layer4_decrypt o tls ctx packet pkt_len
  | .layer2_fragment =>
    let r := crypto_layer2.crypto_layer2_decrypt_fragment o fake tls ctx packet pkt_len
    (r.1.map (·.1), r.2)
  | .layer3_fragment =>
    let r := crypto_layer3.crypto_layer3_decrypt_fragment o tls ctx packet pkt_len
    (r.1.map (·.1), r.2)
  | .layer4_fragment =>
    let r := crypto_layer4.crypto_layer4_decrypt_fragment o tls ctx packet pkt_len
    (r.1.map (·.1), r.2)

section

open crypto_layer2 crypto_layer3 crypto_layer4

/-- The tunnel behind an IPv4 header of layer 3. -/
def start3 (tls : Tls) (ctx : PacketCryptoCtx) (packet : Buf) (pkt_len gap : Nat)
    (fragment : Bool) : Option Start :=
  if ctx.initialized && pkt_is_ipv4 packet pkt_len then
    (ipv4_hdr_len_at packet pkt_len ETH_HEADER_SIZE).bind fun ip_hdr_len =>
      let tunnel_off := ETH_HEADER_SIZE + ip_hdr_len
      let enc_off := tunnel_off + packet_crypto_get_tunnel_hdr_size tls + gap
      if enc_off ≤ pkt_len ∧ l3_is_frag_tunnel packet tunnel_off tls.nonce_size = fragment ∧
          packet IPV4_PROTO_OFF = tls.fake_protocol then some ⟨tunnel_off, enc_off⟩
      else none
  else none

/-- The type byte of a layer 4 fragment. -/
def l4_is_frag_tunnel (packet : Buf) (tunnel_off nonce_size : Nat) : Bool :=
  packet (tunnel_off + nonce_size + 1) == CRYPTO_L4_FRAG_MAGIC

/-- The tunnel behind the ports of layer 4. -/
def start4 (tls : Tls) (ctx : PacketCryptoCtx) (packet : Buf) (pkt_len gap : Nat)
    (is_tunnel : Buf → Nat → Nat → Bool) : Option Start :=
  if ctx.initialized then
    (crypto_eth_ipv4_offset packet pkt_len).bind fun l3_off =>
      let ip_hdr_len := ip_hdr_len_at packet l3_off
      let tunnel_off := l3_off + ip_hdr_len + L4_WIRE_PORT_LEN
      let enc_off := tunnel_off + packet_crypto_get_tunnel_hdr_size tls + gap
      if l3_off + 20 ≤ pkt_len ∧ (packet (l3_off + 9) = 6 ∨ packet (l3_off + 9) = 17) ∧
          20 ≤ ip_hdr_len ∧ enc_off ≤ pkt_len ∧ is_tunnel packet tunnel_off tls.nonce_size then
        some ⟨tunnel_off, enc_off⟩
      else none
  else none

/-- The packets that a function takes to be encrypted. -/
def start (f : Opener) (fake : Nat) (tls : Tls) (ctx : PacketCryptoCtx) (packet : Buf)
    (pkt_len : Nat) : Option Start :=
  match f with
  | .layer2 =>
    let enc_off := l2_enc_start_offset tls.nonce_size
    if ctx.initialized ∧ enc_off ≤ pkt_len ∧ l2_has_fake_marker fake packet ∧
        ¬ (ETH_HEADER_SIZE + tls.nonce_size + 1 ≤ pkt_len ∧
          packet (ETH_HEADER_SIZE + tls.nonce_size) = L2_FRAG_MAGIC) then some ⟨14, enc_off⟩
    else none
  | .layer2_fragment =>
    let enc_off := l2_frag_enc_start_offset tls.nonce_size
    if ctx.initialized ∧ enc_off ≤ pkt_len ∧ l2_has_fake_marker fake packet ∧
        packet (ETH_HEADER_SIZE + tls.nonce_size) = L2_FRAG_MAGIC then some ⟨14, enc_off⟩
    else none
  | .layer3 => start3 tls ctx packet pkt_len 0 false
  | .layer3_fragment => start3 tls ctx packet pkt_len FRAG_TAG_SIZE true
  | .layer4 => start4 tls ctx packet pkt_len 0 l4_is_tunnel_header
  | .layer4_fragment => start4 tls ctx packet pkt_len FRAG_TAG_SIZE l4_is_frag_tunnel

/-- The slots that it tries. -/
def slots : Opener → List KeySlot
  | .layer2 => [.current]
  | _ => key_order

/-- The packet that it hands to AES: `crypto_layer3_decrypt` has written the last byte of the
tunnel header over the fake protocol. -/
def marked (f : Opener) (packet : Buf) (s : Start) : Buf :=
  match f with
  | .layer3 => write packet IPV4_PROTO_OFF [packet (s.enc_off - 1)]
  | _ => packet

/-- What it asks of a CTR plaintext. -/
def verify (f : Opener) (packet : Buf) (s : Start) : Bytes → Bool :=
  match f with
  | .layer2 => verify_ipv4_after_decrypt
  | .layer3 => verify_decrypted_payload (packet (s.enc_off - 1))
  | _ => fun _ => true

end

/-- Its loop. -/
def tries (f : Opener) (o : Openssl) (tls : Tls) (ctx : PacketCryptoCtx) (packet : Buf)
    (pkt_len : Nat) (s : Start) : Bool × Buf :=
  attempt o tls ctx (read packet s.nonce_off tls.nonce_size) (f.verify packet s) f.slots
    (f.marked packet s) s.enc_off (pkt_len - s.enc_off)

end Opener

/-- A return code that is none when the loop fails, and the packet as the loop leaves it then. -/
structure Follows (r : Option Nat × Buf) (t : Bool × Buf) : Prop where
  none_iff : r.1 = none ↔ t.1 = false
  pkt : t.1 = false → r.2 = t.2

section

variable {o : Openssl} {fake : Nat} {tls : Tls} {ctx : PacketCryptoCtx} {packet : Buf}
  {pkt_len : Nat} {s : Start}

theorem open_tunnel_at_follows (l3_off ip_hdr_len tunnel_off enc_off : Nat) :
    Follows (open_tunnel_at o tls ctx packet pkt_len l3_off ip_hdr_len tunnel_off enc_off)
      (attempt o tls ctx (read packet tunnel_off tls.nonce_size) (fun _ => true) key_order packet
        enc_off (pkt_len - enc_off)) := by
  unfold open_tunnel_at
  dsimp only
  rw [decrypt_in_place_eq]
  dsimp only
  generalize attempt o tls ctx _ _ key_order packet enc_off _ = t
  obtain ⟨ok, pkt'⟩ := t
  cases ok with
  | true => exact ⟨by simp, nofun⟩
  | false => exact ⟨by simp, fun _ => rfl⟩

/-- A fragment function adds what it has read of the fragment's tag. -/
theorem Follows.map {α : Type} {r : Option Nat × Buf} {t : Bool × Buf} (h : Follows r t) (a : α) :
    Follows ((r.1.map (·, a)).map (·.1), r.2) t := by
  rw [Option.map_map]
  exact ⟨by simpa using h.none_iff, h.pkt⟩

theorem try_keys_one {nonce tag : Bytes} {verify : Bytes → Bool} (off len : Nat) (backup : Bytes)
    (side : GcmSide) (slot : KeySlot) :
    try_keys o tls ctx nonce tag verify off len backup 0 side [slot] packet =
      aes_decrypt o tls side (packet_crypto_get_key ctx slot) nonce tag verify packet off len := by
  rw [try_keys, if_neg (by omega)]
  generalize aes_decrypt o tls side (packet_crypto_get_key ctx slot) nonce tag verify packet off len
    = r
  obtain ⟨ok, pkt'⟩ := r
  cases ok <;> rfl

theorem layer2_follows
    (h : Opener.layer2.start fake tls ctx packet pkt_len = some s) :
    Follows (Opener.layer2.decrypt o fake tls ctx packet pkt_len)
      (Opener.layer2.tries o tls ctx packet pkt_len s) := by
  unfold Opener.start at h
  dsimp only at h
  split at h
  swap
  · simp at h
  rename_i hc
  obtain ⟨hinit, hlen, hmark, hwhole⟩ := hc
  obtain rfl := Option.some.inj h
  unfold Opener.tries attempt Opener.decrypt crypto_layer2.crypto_layer2_decrypt Opener.slots
    Opener.marked Opener.verify
  dsimp only
  rw [if_neg (by simp only [hinit]; simp; omega), if_neg (by simp [hmark]), if_neg hwhole,
    try_keys_one]
  by_cases hshort : pkt_len - crypto_layer2.l2_enc_start_offset tls.nonce_size < tag_overhead tls
  · rw [if_pos hshort, if_pos (by omega)]
    exact ⟨by simp, fun _ => rfl⟩
  rw [if_neg hshort, if_neg (by omega)]
  unfold packet_crypto_get_key
  generalize aes_decrypt o tls _ _ _ _ _ packet _ _ = t
  obtain ⟨ok, pkt'⟩ := t
  cases ok with
  | true =>
    refine ⟨?_, nofun⟩
    dsimp only
    split <;> simp
  | false => exact ⟨by simp, fun _ => rfl⟩

theorem layer2_unstarted (h : Opener.layer2.start fake tls ctx packet pkt_len = none) :
    (Opener.layer2.decrypt o fake tls ctx packet pkt_len).2 = packet := by
  unfold Opener.start at h
  dsimp only at h
  unfold Opener.decrypt crypto_layer2.crypto_layer2_decrypt
  dsimp only
  split
  · rfl
  split
  · rfl
  split
  · rfl
  rename_i h1 h2 h3
  rw [if_pos ⟨by simpa using fun hc => h1 (Or.inl hc), by omega, by simpa using h2, h3⟩] at h
  simp at h

theorem layer2_fragment_follows
    (h : Opener.layer2_fragment.start fake tls ctx packet pkt_len = some s) :
    Follows (Opener.layer2_fragment.decrypt o fake tls ctx packet pkt_len)
      (Opener.layer2_fragment.tries o tls ctx packet pkt_len s) := by
  unfold Opener.start at h
  dsimp only at h
  split at h
  swap
  · simp at h
  rename_i hc
  obtain ⟨hinit, hlen, hmark, hmagic⟩ := hc
  obtain rfl := Option.some.inj h
  unfold Opener.tries Opener.decrypt crypto_layer2.crypto_layer2_decrypt_fragment Opener.slots
    Opener.marked Opener.verify
  dsimp only
  rw [if_neg (by simp only [hinit, hmark, hmagic]; simp; omega), decrypt_in_place_eq]
  dsimp only
  generalize attempt o tls ctx _ _ key_order packet _ _ = t
  obtain ⟨ok, pkt'⟩ := t
  cases ok with
  | true => exact ⟨by simp, nofun⟩
  | false => exact ⟨by simp, fun _ => rfl⟩

theorem layer2_fragment_unstarted
    (h : Opener.layer2_fragment.start fake tls ctx packet pkt_len = none) :
    (Opener.layer2_fragment.decrypt o fake tls ctx packet pkt_len).2 = packet := by
  unfold Opener.start at h
  dsimp only at h
  unfold Opener.decrypt crypto_layer2.crypto_layer2_decrypt_fragment
  dsimp only
  by_cases hc : !ctx.initialized ∨ pkt_len < crypto_layer2.l2_frag_enc_start_offset tls.nonce_size ∨
      !crypto_layer2.l2_has_fake_marker fake packet ∨
      packet (ETH_HEADER_SIZE + tls.nonce_size) ≠ crypto_layer2.L2_FRAG_MAGIC
  · rw [if_pos hc]
  · simp only [not_or, Bool.not_eq_true', Bool.not_eq_false, Nat.not_lt, ne_eq,
      not_not] at hc
    rw [if_pos hc] at h
    simp at h

/-- The checks of layer 3 before its tunnel, as its two functions make them. -/
theorem start3_some {gap : Nat} {fragment : Bool}
    (h : Opener.start3 tls ctx packet pkt_len gap fragment = some s) :
    ctx.initialized = true ∧ crypto_layer3.pkt_is_ipv4 packet pkt_len = true ∧
    ∃ ihl, crypto_layer3.ipv4_hdr_len_at packet pkt_len ETH_HEADER_SIZE = some ihl ∧
      s = ⟨ETH_HEADER_SIZE + ihl, ETH_HEADER_SIZE + ihl + packet_crypto_get_tunnel_hdr_size tls + gap⟩ ∧
      s.enc_off ≤ pkt_len ∧
      crypto_layer3.l3_is_frag_tunnel packet s.nonce_off tls.nonce_size = fragment ∧
      packet crypto_layer3.IPV4_PROTO_OFF = tls.fake_protocol := by
  unfold Opener.start3 at h
  split at h
  swap
  · simp at h
  rename_i hc
  simp only [Bool.and_eq_true] at hc
  obtain ⟨ihl, hihl, h⟩ := Option.bind_eq_some_iff.mp h
  dsimp only at h
  split at h
  swap
  · simp at h
  rename_i hin
  obtain rfl := (Option.some.inj h).symm
  exact ⟨hc.1, hc.2, ihl, hihl, rfl, hin⟩

theorem start3_eq {gap ihl : Nat} {fragment : Bool} (hinit : ctx.initialized = true)
    (hip : crypto_layer3.pkt_is_ipv4 packet pkt_len = true)
    (hihl : crypto_layer3.ipv4_hdr_len_at packet pkt_len ETH_HEADER_SIZE = some ihl)
    (hlen : ETH_HEADER_SIZE + ihl + packet_crypto_get_tunnel_hdr_size tls + gap ≤ pkt_len)
    (hfrag : crypto_layer3.l3_is_frag_tunnel packet (ETH_HEADER_SIZE + ihl) tls.nonce_size =
      fragment)
    (hmark : packet crypto_layer3.IPV4_PROTO_OFF = tls.fake_protocol) :
    Opener.start3 tls ctx packet pkt_len gap fragment = some ⟨ETH_HEADER_SIZE + ihl,
      ETH_HEADER_SIZE + ihl + packet_crypto_get_tunnel_hdr_size tls + gap⟩ := by
  unfold Opener.start3
  rw [if_pos (by simp [hinit, hip]), hihl, Option.bind_some, if_pos ⟨hlen, hfrag, hmark⟩]

/-- The checks of layer 4 before its tunnel. -/
theorem start4_some {gap : Nat} {is_tunnel : Buf → Nat → Nat → Bool}
    (h : Opener.start4 tls ctx packet pkt_len gap is_tunnel = some s) :
    ctx.initialized = true ∧
    ∃ l3_off, crypto_layer4.crypto_eth_ipv4_offset packet pkt_len = some l3_off ∧
      s.nonce_off = l3_off + crypto_layer4.ip_hdr_len_at packet l3_off +
        crypto_layer4.L4_WIRE_PORT_LEN ∧
      s.enc_off = s.nonce_off + packet_crypto_get_tunnel_hdr_size tls + gap ∧
      l3_off + 20 ≤ pkt_len ∧ (packet (l3_off + 9) = 6 ∨ packet (l3_off + 9) = 17) ∧
      20 ≤ crypto_layer4.ip_hdr_len_at packet l3_off ∧ s.enc_off ≤ pkt_len ∧
      is_tunnel packet s.nonce_off tls.nonce_size = true := by
  unfold Opener.start4 at h
  split at h
  swap
  · simp at h
  rename_i hinit
  obtain ⟨l3_off, hl3, h⟩ := Option.bind_eq_some_iff.mp h
  dsimp only at h
  split at h
  swap
  · simp at h
  rename_i hin
  obtain rfl := (Option.some.inj h).symm
  exact ⟨hinit, l3_off, hl3, rfl, rfl, hin⟩

theorem start4_eq {gap l3_off : Nat} {is_tunnel : Buf → Nat → Nat → Bool}
    (hinit : ctx.initialized = true)
    (hl3 : crypto_layer4.crypto_eth_ipv4_offset packet pkt_len = some l3_off)
    (h20 : l3_off + 20 ≤ pkt_len) (hproto : packet (l3_off + 9) = 6 ∨ packet (l3_off + 9) = 17)
    (hihl : 20 ≤ crypto_layer4.ip_hdr_len_at packet l3_off)
    (hlen : l3_off + crypto_layer4.ip_hdr_len_at packet l3_off + crypto_layer4.L4_WIRE_PORT_LEN +
      packet_crypto_get_tunnel_hdr_size tls + gap ≤ pkt_len)
    (ht : is_tunnel packet (l3_off + crypto_layer4.ip_hdr_len_at packet l3_off +
      crypto_layer4.L4_WIRE_PORT_LEN) tls.nonce_size = true) :
    Opener.start4 tls ctx packet pkt_len gap is_tunnel =
      some ⟨l3_off + crypto_layer4.ip_hdr_len_at packet l3_off + crypto_layer4.L4_WIRE_PORT_LEN,
        l3_off + crypto_layer4.ip_hdr_len_at packet l3_off + crypto_layer4.L4_WIRE_PORT_LEN +
          packet_crypto_get_tunnel_hdr_size tls + gap⟩ := by
  unfold Opener.start4
  rw [if_pos hinit, hl3, Option.bind_some, if_pos ⟨h20, hproto, hihl, hlen, ht⟩]

theorem layer3_follows (h : Opener.layer3.start fake tls ctx packet pkt_len = some s) :
    Follows (Opener.layer3.decrypt o fake tls ctx packet pkt_len)
      (Opener.layer3.tries o tls ctx packet pkt_len s) := by
  have hE : ETH_HEADER_SIZE = 14 := rfl
  have hh : packet_crypto_get_tunnel_hdr_size tls = tls.nonce_size + 2 := rfl
  obtain ⟨hinit, hip, ihl, hihl, rfl, hlen, hfrag, hmark⟩ := start3_some h
  obtain ⟨-, h20, hle⟩ := crypto_layer3.ipv4_hdr_len_at_some hihl
  have hmin : ¬ pkt_len < crypto_layer3.MIN_ETH_PKT := by
    unfold crypto_layer3.MIN_ETH_PKT
    omega
  dsimp only [Nat.add_zero] at hlen hfrag
  have htype : ETH_HEADER_SIZE + ihl + packet_crypto_get_tunnel_hdr_size tls - 1 =
      ETH_HEADER_SIZE + ihl + tls.nonce_size + 1 := by omega
  unfold Opener.tries Opener.decrypt crypto_layer3.crypto_layer3_decrypt Opener.slots
    Opener.marked Opener.verify
  rw [if_neg (by simp [hinit, hmin]), if_neg (by simp [hip])]
  dsimp only [Nat.add_zero]
  rw [hihl]
  dsimp only
  rw [if_neg (by omega), hfrag, if_neg (by decide), if_neg (fun hne => hne hmark),
    decrypt_in_place_eq, htype]
  dsimp only
  generalize attempt o tls ctx _ _ key_order _ _ _ = t
  obtain ⟨ok, pkt'⟩ := t
  cases ok with
  | true => exact ⟨by simp, nofun⟩
  | false => exact ⟨by simp, fun _ => rfl⟩

theorem layer3_unstarted (h : Opener.layer3.start fake tls ctx packet pkt_len = none) :
    (Opener.layer3.decrypt o fake tls ctx packet pkt_len).2 = packet := by
  unfold Opener.decrypt crypto_layer3.crypto_layer3_decrypt
  by_cases hready : !ctx.initialized ∨ pkt_len < crypto_layer3.MIN_ETH_PKT
  · rw [if_pos hready]
  rw [if_neg hready]
  simp only [not_or, Bool.not_eq_true', Bool.not_eq_false] at hready
  cases hip : crypto_layer3.pkt_is_ipv4 packet pkt_len with
  | false => rfl
  | true =>
    cases hihl : crypto_layer3.ipv4_hdr_len_at packet pkt_len ETH_HEADER_SIZE with
    | none => rfl
    | some ihl =>
      dsimp only
      by_cases hlen : pkt_len < ETH_HEADER_SIZE + ihl + packet_crypto_get_tunnel_hdr_size tls
      · rw [if_pos hlen]
        rfl
      cases hfrag : crypto_layer3.l3_is_frag_tunnel packet (ETH_HEADER_SIZE + ihl)
          tls.nonce_size with
      | true =>
        rw [if_neg hlen]
        rfl
      | false =>
        by_cases hmark : packet crypto_layer3.IPV4_PROTO_OFF = tls.fake_protocol
        · exact absurd (h.symm.trans (start3_eq hready.1 hip hihl (Nat.not_lt.mp hlen) hfrag hmark))
            nofun
        · rw [if_neg hlen, if_neg (by decide), if_pos hmark]
          rfl

theorem layer3_fragment_follows
    (h : Opener.layer3_fragment.start fake tls ctx packet pkt_len = some s) :
    Follows (Opener.layer3_fragment.decrypt o fake tls ctx packet pkt_len)
      (Opener.layer3_fragment.tries o tls ctx packet pkt_len s) := by
  obtain ⟨hinit, hip, ihl, hihl, rfl, hlen, hfrag, hmark⟩ := start3_some h
  dsimp only at hlen hfrag
  unfold Opener.tries Opener.decrypt crypto_layer3.crypto_layer3_decrypt_fragment Opener.slots
    Opener.marked Opener.verify
  rw [if_neg (by simp [hinit, hip])]
  dsimp only
  rw [hihl]
  dsimp only
  rw [if_neg (by simp only [hmark, hfrag]; simp; omega)]
  exact (open_tunnel_at_follows _ _ _ _).map _

theorem layer3_fragment_unstarted
    (h : Opener.layer3_fragment.start fake tls ctx packet pkt_len = none) :
    (Opener.layer3_fragment.decrypt o fake tls ctx packet pkt_len).2 = packet := by
  unfold Opener.decrypt crypto_layer3.crypto_layer3_decrypt_fragment
  by_cases hready : !ctx.initialized ∨ !crypto_layer3.pkt_is_ipv4 packet pkt_len
  · rw [if_pos hready]
  rw [if_neg hready]
  simp only [not_or, Bool.not_eq_true', Bool.not_eq_false] at hready
  cases hihl : crypto_layer3.ipv4_hdr_len_at packet pkt_len ETH_HEADER_SIZE with
  | none => rfl
  | some ihl =>
    dsimp only
    by_cases hc : packet crypto_layer3.IPV4_PROTO_OFF ≠ tls.fake_protocol ∨
        pkt_len < ETH_HEADER_SIZE + ihl + packet_crypto_get_tunnel_hdr_size tls + FRAG_TAG_SIZE ∨
        !crypto_layer3.l3_is_frag_tunnel packet (ETH_HEADER_SIZE + ihl) tls.nonce_size
    · rw [if_pos hc]
    · simp only [not_or, ne_eq, not_not, Nat.not_lt, Bool.not_eq_true', Bool.not_eq_false] at hc
      exact absurd (h.symm.trans (start3_eq hready.1 hready.2 hihl hc.2.1 hc.2.2 hc.1)) nofun

theorem layer4_follows (h : Opener.layer4.start fake tls ctx packet pkt_len = some s) :
    Follows (Opener.layer4.decrypt o fake tls ctx packet pkt_len)
      (Opener.layer4.tries o tls ctx packet pkt_len s) := by
  obtain ⟨hinit, l3_off, hl3, hn, he, h20, hproto, hihl, hlen, ht⟩ := start4_some h
  obtain ⟨nonce_off, enc_off⟩ := s
  dsimp only at hn he hlen ht
  subst hn he
  unfold Opener.tries Opener.decrypt crypto_layer4.crypto_layer4_decrypt Opener.slots
    Opener.marked Opener.verify
  rw [if_neg (by simp [hinit])]
  dsimp only
  rw [hl3]
  dsimp only
  rw [if_neg (by omega), if_neg (fun hp => hproto.elim hp.1 hp.2), if_neg (by omega),
    if_neg (by simp only [ht]; simp; omega)]
  exact open_tunnel_at_follows _ _ _ _

theorem layer4_unstarted (h : Opener.layer4.start fake tls ctx packet pkt_len = none) :
    (Opener.layer4.decrypt o fake tls ctx packet pkt_len).2 = packet := by
  unfold Opener.decrypt crypto_layer4.crypto_layer4_decrypt
  cases hinit : ctx.initialized with
  | false => rfl
  | true =>
    cases hl3 : crypto_layer4.crypto_eth_ipv4_offset packet pkt_len with
    | none => rfl
    | some l3_off =>
      dsimp only
      rw [if_neg (by decide)]
      by_cases h20 : pkt_len < l3_off + 20
      · rw [if_pos h20]
      by_cases hproto : packet (l3_off + 9) ≠ 6 ∧ packet (l3_off + 9) ≠ 17
      · rw [if_neg h20, if_pos hproto]
      by_cases hihl : crypto_layer4.ip_hdr_len_at packet l3_off < 20
      · rw [if_neg h20, if_neg hproto, if_pos hihl]
      by_cases hc : pkt_len < l3_off + crypto_layer4.ip_hdr_len_at packet l3_off +
            crypto_layer4.L4_WIRE_PORT_LEN + packet_crypto_get_tunnel_hdr_size tls ∨
          !crypto_layer4.l4_is_tunnel_header packet (l3_off +
            crypto_layer4.ip_hdr_len_at packet l3_off + crypto_layer4.L4_WIRE_PORT_LEN)
            tls.nonce_size
      · rw [if_neg h20, if_neg hproto, if_neg hihl, if_pos hc]
      · simp only [not_or, Nat.not_lt, Bool.not_eq_true', Bool.not_eq_false] at hc
        exact absurd (h.symm.trans (start4_eq hinit hl3 (Nat.not_lt.mp h20) (by tauto)
          (Nat.not_lt.mp hihl) hc.1 hc.2)) nofun

theorem layer4_fragment_follows
    (h : Opener.layer4_fragment.start fake tls ctx packet pkt_len = some s) :
    Follows (Opener.layer4_fragment.decrypt o fake tls ctx packet pkt_len)
      (Opener.layer4_fragment.tries o tls ctx packet pkt_len s) := by
  obtain ⟨hinit, l3_off, hl3, hn, he, h20, hproto, hihl, hlen, ht⟩ := start4_some h
  obtain ⟨nonce_off, enc_off⟩ := s
  dsimp only at hn he hlen ht
  subst hn he
  unfold Opener.l4_is_frag_tunnel at ht
  rw [beq_iff_eq] at ht
  unfold Opener.tries Opener.decrypt crypto_layer4.crypto_layer4_decrypt_fragment Opener.slots
    Opener.marked Opener.verify
  rw [if_neg (by simp [hinit])]
  dsimp only
  rw [hl3]
  dsimp only
  rw [if_neg (by
    rintro (hlt | hp | hlt | hlt | hm)
    · omega
    · exact hproto.elim hp.1 hp.2
    · omega
    · omega
    · exact hm ht)]
  exact (open_tunnel_at_follows _ _ _ _).map _

theorem layer4_fragment_unstarted
    (h : Opener.layer4_fragment.start fake tls ctx packet pkt_len = none) :
    (Opener.layer4_fragment.decrypt o fake tls ctx packet pkt_len).2 = packet := by
  unfold Opener.decrypt crypto_layer4.crypto_layer4_decrypt_fragment
  cases hinit : ctx.initialized with
  | false => rfl
  | true =>
    cases hl3 : crypto_layer4.crypto_eth_ipv4_offset packet pkt_len with
    | none => rfl
    | some l3_off =>
      dsimp only
      rw [if_neg (by decide)]
      by_cases hc : pkt_len < l3_off + 20 ∨
          (packet (l3_off + 9) ≠ 6 ∧ packet (l3_off + 9) ≠ 17) ∨
          crypto_layer4.ip_hdr_len_at packet l3_off < 20 ∨
          pkt_len < l3_off + crypto_layer4.ip_hdr_len_at packet l3_off +
            crypto_layer4.L4_WIRE_PORT_LEN + packet_crypto_get_tunnel_hdr_size tls + FRAG_TAG_SIZE ∨
          packet (l3_off + crypto_layer4.ip_hdr_len_at packet l3_off +
            crypto_layer4.L4_WIRE_PORT_LEN + tls.nonce_size + 1) ≠ crypto_layer4.CRYPTO_L4_FRAG_MAGIC
      · rw [if_pos hc]
      · simp only [not_or, Nat.not_lt, ne_eq, not_not] at hc
        obtain ⟨h20, hproto, hihl, hlen, hmagic⟩ := hc
        exact absurd (h.symm.trans (start4_eq hinit hl3 h20 (by tauto) hihl hlen
          (beq_iff_eq.mpr hmagic))) nofun

/-- A call runs its loop. -/
theorem Opener.follows {f : Opener} (h : f.start fake tls ctx packet pkt_len = some s) :
    Follows (f.decrypt o fake tls ctx packet pkt_len) (f.tries o tls ctx packet pkt_len s) := by
  cases f with
  | layer2 => exact layer2_follows h
  | layer3 => exact layer3_follows h
  | layer4 => exact layer4_follows h
  | layer2_fragment => exact layer2_fragment_follows h
  | layer3_fragment => exact layer3_fragment_follows h
  | layer4_fragment => exact layer4_fragment_follows h

/-- A call that does not get to its loop leaves the packet alone. -/
theorem Opener.unstarted {f : Opener} (h : f.start fake tls ctx packet pkt_len = none) :
    (f.decrypt o fake tls ctx packet pkt_len).2 = packet := by
  cases f with
  | layer2 => exact layer2_unstarted h
  | layer3 => exact layer3_unstarted h
  | layer4 => exact layer4_unstarted h
  | layer2_fragment => exact layer2_fragment_unstarted h
  | layer3_fragment => exact layer3_fragment_unstarted h
  | layer4_fragment => exact layer4_fragment_unstarted h

/-- The marker that layer 3 overwrites stands before the tunnel. -/
theorem Opener.enc_off_gt (h : Opener.layer3.start fake tls ctx packet pkt_len = some s) :
    crypto_layer3.IPV4_PROTO_OFF < s.nonce_off ∧ s.nonce_off + tls.nonce_size ≤ s.enc_off := by
  obtain ⟨-, -, ihl, hihl, rfl, -⟩ := start3_some h
  have h20 := (crypto_layer3.ipv4_hdr_len_at_some hihl).2.1
  have hh : packet_crypto_get_tunnel_hdr_size tls = tls.nonce_size + 2 := rfl
  unfold crypto_layer3.IPV4_PROTO_OFF
  dsimp only
  omega

theorem Opener.read_marked {f : Opener} (h : f.start fake tls ctx packet pkt_len = some s) {off : Nat}
    (hoff : s.enc_off ≤ off) (n : Nat) :
    read (f.marked packet s) off n = read packet off n := by
  cases f with
  | layer3 =>
    have hgt := Opener.enc_off_gt h
    exact read_congr fun i h1 _ => write_out _ _ _ _ (Or.inr (by
      rw [List.length_singleton]
      omega))
  | _ => rfl

end

end ne_ip.key_loop
