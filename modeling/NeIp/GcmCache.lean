-- The cipher contexts of a thread and the keys cached beside them (packet_crypto.c): a
-- call whose key is in the cache gives its context no more than the nonce.
import NeIp.Runs
import NeIp.Sample
import Mathlib.Logic.Function.Basic

open runs byte_buf ne_ip.sample

namespace ne_ip.gcm_cache

open packet_crypto (Openssl Tls get_key_size AES128_GCM_TAG_SIZE)

/-! ## The cipher context -/

/-- `EVP_CIPHER_CTX`: its cipher, by the key size, how much it takes of a nonce, and the key and
the nonce it was given. -/
structure EvpCtx where
  cipher : Nat := 0
  iv_len : Nat := 0
  key : Bytes := []
  iv : Bytes := []

/-- `EVP_EncryptInit_ex(evp, cipher, NULL, NULL, NULL)`. What a context that gets a cipher keeps of
its IV length and its key is up to OpenSSL: `left` says it. -/
def EvpCtx.init_cipher (left : EvpCtx → Nat × Bytes) (evp : EvpCtx) (cipher : Nat) : EvpCtx :=
  { evp with cipher := cipher, iv_len := (left evp).1, key := (left evp).2 }

/-- `EVP_CIPHER_CTX_ctrl` with `EVP_CTRL_GCM_SET_IVLEN`. -/
def EvpCtx.set_ivlen (evp : EvpCtx) (nonce_len : Nat) : EvpCtx := { evp with iv_len := nonce_len }

/-- `EVP_EncryptInit_ex(evp, NULL, NULL, NULL, nonce)`. -/
def EvpCtx.init_nonce (evp : EvpCtx) (nonce : Buf) : EvpCtx :=
  { evp with iv := read nonce 0 evp.iv_len }

/-- `EVP_EncryptInit_ex(evp, NULL, NULL, key, nonce)`. -/
def EvpCtx.init_key (evp : EvpCtx) (key nonce : Buf) : EvpCtx :=
  { evp with key := read key 0 evp.cipher, iv := read nonce 0 evp.iv_len }

/-- Which calls of OpenSSL succeed while one function runs. -/
structure Answers where
  new : Bool := true
  init_cipher : Bool := true
  set_ivlen : Bool := true
  init : Bool := true
  update : Bool := true
  ctrl_tag : Bool := true
  final : Bool := true

/-! ## The two functions -/

/-- One of the two contexts of a thread with its cache: `tls_gcm_enc_ctx` with `tls_cached_key` and
its kin, or `tls_gcm_dec_ctx` with `tls_dec_cached_key` and its kin. -/
structure Side where
  evp : Option EvpCtx := none
  cached_key : Buf := fun _ => 0
  key_cached : Bool := false
  cached_nonce_len : Nat := 0

/-- The arguments of a call; `tag` is for a decryption. -/
structure Args where
  key : Buf
  nonce : Buf
  nonce_len : Nat
  data : Bytes
  tag : Bytes := []

/-- `key_changed`. -/
def key_changed (aes_bits : Nat) (s : Side) (c : Args) : Bool :=
  !s.key_cached ||
    read s.cached_key 0 (get_key_size aes_bits) != read c.key 0 (get_key_size aes_bits) ||
    s.cached_nonce_len != c.nonce_len

/-- What both functions do up to the update: the context to go on with, or none for -1. -/
def set_up (left : EvpCtx → Nat × Bytes) (aes_bits : Nat) (a : Answers) (s : Side) (c : Args) :
    Side × Option EvpCtx :=
  match s.evp.or (if a.new then some {} else none) with
  | none => (s, none)
  | some evp =>
    if key_changed aes_bits s c then
      if !a.init_cipher then ({ s with evp := some evp }, none)
      else
        let evp := evp.init_cipher left (get_key_size aes_bits)
        if !a.set_ivlen then ({ s with evp := some evp }, none)
        else
          let evp := evp.set_ivlen c.nonce_len
          if !a.init then ({ s with evp := some evp }, none)
          else
            let evp := evp.init_key c.key c.nonce
            ({ evp := some evp
               cached_key := write s.cached_key 0 (read c.key 0 (get_key_size aes_bits))
               key_cached := true
               cached_nonce_len := c.nonce_len }, some evp)
    else if !a.init then ({ s with evp := some evp }, none)
    else
      let evp := evp.init_nonce c.nonce
      ({ s with evp := some evp }, some evp)

/-- The bytes it puts in the place of the data, and `tag_out` when it writes it. -/
def crypto_aes_gcm_encrypt (o : Openssl) (left : EvpCtx → Nat × Bytes) (aes_bits : Nat)
    (a : Answers) (s : Side) (c : Args) : Side × Option (Bytes × Option Bytes) :=
  if c.data.length = 0 then (s, some (c.data, none))
  else
    match set_up left aes_bits a s c with
    | (s, none) => (s, none)
    | (s, some evp) =>
      if !a.update || !a.final || !a.ctrl_tag then (s, none)
      else
        let cipher := o.gcm evp.key evp.iv c.data
        (s, some (cipher, some (o.gcm_tag evp.key evp.iv cipher)))

/-- The bytes it puts in the place of the data. The final call compares the tags. -/
def crypto_aes_gcm_decrypt (o : Openssl) (left : EvpCtx → Nat × Bytes) (aes_bits : Nat)
    (a : Answers) (s : Side) (c : Args) : Side × Option (Bytes × Option Bytes) :=
  if c.data.length = 0 then (s, some (c.data, none))
  else
    match set_up left aes_bits a s c with
    | (s, none) => (s, none)
    | (s, some evp) =>
      if !a.update || !a.ctrl_tag || !a.final || o.gcm_tag evp.key evp.iv c.data != c.tag then
        (s, none)
      else (s, some (o.gcm evp.key evp.iv c.data, none))

/-! ## A thread -/

inductive Dir where
  | enc
  | dec
  deriving DecidableEq

structure Thread where
  side : Dir → Side := fun _ => {}
  aes_bits : Nat := 128

/-- A call on one side. -/
def call (o : Openssl) (left : EvpCtx → Nat × Bytes) (aes_bits : Nat) (s : Side) (d : Dir)
    (c : Args) (a : Answers) : Side × Option (Bytes × Option Bytes) :=
  match d with
  | .enc => crypto_aes_gcm_encrypt o left aes_bits a s c
  | .dec => crypto_aes_gcm_decrypt o left aes_bits a s c

inductive Event where
  | set_aes_bits (bits : Nat)
  | call (d : Dir) (c : Args) (a : Answers)
  | cleanup

/-- `packet_crypto_set_aes_bits`, a call, and `packet_crypto_cleanup`. -/
def step (o : Openssl) (left : EvpCtx → Nat × Bytes) (t : Thread) : Event → Thread
  | .set_aes_bits bits => { t with aes_bits := bits }
  | .call d c a =>
    { t with side := Function.update t.side d (call o left t.aes_bits (t.side d) d c a).1 }
  | .cleanup =>
    { t with side := fun d => { cached_nonce_len := (t.side d).cached_nonce_len } }

/-- The same call on a context that is new, when OpenSSL does all it is asked for. -/
def full_path (o : Openssl) (left : EvpCtx → Nat × Bytes) (aes_bits : Nat) (d : Dir) (c : Args) :
    Option (Bytes × Option Bytes) :=
  (call o left aes_bits {} d c {}).2

/-! ## What the cache says of the context -/

/-- The key size of the last re-keying of a side that gave its context a cipher, unless a later
step of it failed. The code keeps no such record. -/
def rekeyed_after (aes_bits : Nat) (a : Answers) (s : Side) (c : Args) (was : Option Nat) :
    Option Nat :=
  if c.data.length ≠ 0 ∧ (s.evp.isSome || a.new) ∧ key_changed aes_bits s c ∧ a.init_cipher then
    if a.set_ivlen && a.init then some (get_key_size aes_bits) else none
  else was

/-- A thread beside that record. -/
structure Watched where
  thread : Thread := {}
  rekeyed : Dir → Option Nat := fun _ => none

def Watched.step (o : Openssl) (left : EvpCtx → Nat × Bytes) (w : Watched) (e : Event) : Watched where
  thread := gcm_cache.step o left w.thread e
  rekeyed :=
    match e with
    | .call d c a =>
      Function.update w.rekeyed d
        (rekeyed_after w.thread.aes_bits a (w.thread.side d) c (w.rekeyed d))
    | _ => w.rekeyed

/-- A context that has the cipher of the record, and the key and the IV length of the cache. -/
structure Matches (s : Side) (evp : EvpCtx) (key_size : Nat) : Prop where
  evp_eq : s.evp = some evp
  cipher : evp.cipher = key_size
  iv_len : evp.iv_len = s.cached_nonce_len
  key : evp.key = read s.cached_key 0 key_size

/-- A cached key is the key of the context, when the last re-keying went through. -/
def Kept (s : Side) (rekeyed : Option Nat) : Prop :=
  s.key_cached = true → ∀ key_size, rekeyed = some key_size → ∃ evp, Matches s evp key_size

/-- The ways through the first half of a call: the context and the cache after it, and what the
call goes on with. -/
inductive Way (aes_bits : Nat) (a : Answers) (s : Side) (c : Args) :
    Side × Option EvpCtx → Prop
  | no_context : s.evp = none → a.new = false → Way aes_bits a s c (s, none)
  | rekeyed {evp : EvpCtx} : (s.evp.isSome || a.new) = true → key_changed aes_bits s c = true →
      a.init_cipher = true → (a.set_ivlen && a.init) = true → evp.cipher = get_key_size aes_bits →
      evp.iv_len = c.nonce_len → evp.key = read c.key 0 (get_key_size aes_bits) →
      evp.iv = read c.nonce 0 c.nonce_len →
      Way aes_bits a s c
        ({ evp := some evp
           cached_key := write s.cached_key 0 (read c.key 0 (get_key_size aes_bits))
           key_cached := true
           cached_nonce_len := c.nonce_len }, some evp)
  | broken {evp : EvpCtx} : (s.evp.isSome || a.new) = true → key_changed aes_bits s c = true →
      a.init_cipher = true → (a.set_ivlen && a.init) = false →
      Way aes_bits a s c ({ s with evp := some evp }, none)
  | refused {evp : EvpCtx} : (key_changed aes_bits s c && a.init_cipher) = false →
      (∀ evp', s.evp = some evp' → evp = evp') → Way aes_bits a s c ({ s with evp := some evp }, none)
  | hit {evp : EvpCtx} : key_changed aes_bits s c = false →
      (∀ evp', s.evp = some evp' → evp = evp') →
      Way aes_bits a s c
        ({ s with evp := some (evp.init_nonce c.nonce) }, some (evp.init_nonce c.nonce))

section

variable {o : Openssl} {left : EvpCtx → Nat × Bytes} {aes_bits : Nat} {a : Answers} {s : Side}
  {c : Args} {was : Option Nat}

theorem set_up_way (left : EvpCtx → Nat × Bytes) (aes_bits : Nat) (a : Answers) (s : Side)
    (c : Args) : Way aes_bits a s c (set_up left aes_bits a s c) := by
  unfold set_up
  cases hevp : s.evp.or (if a.new then some {} else none) with
  | none =>
    rw [Option.or_eq_none_iff] at hevp
    refine Way.no_context hevp.1 ?_
    cases hnew : a.new with
    | false => rfl
    | true => simp [hnew] at hevp
  | some evp =>
    have hsame : ∀ evp', s.evp = some evp' → evp = evp' := by
      intro evp' h'
      rw [h', Option.some_or] at hevp
      exact (Option.some.inj hevp).symm
    have hsome : (s.evp.isSome || a.new) = true := by
      cases hs : s.evp with
      | some _ => rfl
      | none =>
        rw [hs, Option.none_or] at hevp
        cases hnew : a.new with
        | true => rfl
        | false => simp [hnew] at hevp
    dsimp only
    cases hch : key_changed aes_bits s c with
    | true =>
      cases hc : a.init_cipher with
      | false => exact Way.refused (by rw [hc, Bool.and_false]) hsame
      | true =>
        cases hl : a.set_ivlen with
        | false => exact Way.broken hsome hch hc (by rw [hl, Bool.false_and])
        | true =>
          cases hi : a.init with
          | false => exact Way.broken hsome hch hc (by rw [hi, Bool.and_false])
          | true => exact Way.rekeyed hsome hch hc (by rw [hl, hi, Bool.and_self]) rfl rfl rfl rfl
    | false =>
      cases hi : a.init with
      | false => exact Way.refused (by rw [hch, Bool.false_and]) hsame
      | true => exact Way.hit hch hsame

/-- A context that is the one of the cache but for its nonce. -/
theorem Kept.of_same (h : Kept s was) {evp evp' : EvpCtx} (hsame : ∀ e, s.evp = some e → evp = e)
    (hcipher : evp'.cipher = evp.cipher) (hlen : evp'.iv_len = evp.iv_len)
    (hkey : evp'.key = evp.key) : Kept { s with evp := some evp' } was := by
  intro hcached ks hks
  obtain ⟨e, hm⟩ := h hcached ks hks
  obtain rfl := hsame e hm.evp_eq
  exact ⟨evp', rfl, hcipher.trans hm.cipher, hlen.trans hm.iv_len, hkey.trans hm.key⟩

/-- A cache goes on telling what the context is. -/
theorem Kept.set_up_kept (h : Kept s was) (hdata : c.data.length ≠ 0) :
    Kept (set_up left aes_bits a s c).1 (rekeyed_after aes_bits a s c was) := by
  have hway := set_up_way left aes_bits a s c
  unfold rekeyed_after
  generalize set_up left aes_bits a s c = r at hway ⊢
  cases hway with
  | no_context hnone hnew =>
    rw [if_neg (by simp [hnone, hnew])]
    exact h
  | @rekeyed evp hsome hch hc hok hcipher hlen hkey hiv =>
    rw [if_pos ⟨hdata, hsome, hch, hc⟩, if_pos hok]
    intro _ ks hks
    obtain rfl := Option.some.inj hks
    refine ⟨evp, rfl, hcipher, hlen, hkey.trans ?_⟩
    exact (read_write_self _ _ _ _ (length_read _ _ _).symm).symm
  | broken hsome hch hc hfail =>
    rw [if_pos ⟨hdata, hsome, hch, hc⟩, if_neg (by simp [hfail])]
    exact fun _ _ hnone => by simp at hnone
  | refused hno hsame =>
    rw [if_neg (fun hall => by simp [hall.2.2.1, hall.2.2.2] at hno)]
    exact h.of_same hsame rfl rfl rfl
  | hit hch hsame =>
    rw [if_neg (fun hall => by simp [hch] at hall)]
    exact h.of_same hsame rfl rfl rfl

/-- What a call goes on with is what it was asked for. -/
structure Fits (aes_bits : Nat) (c : Args) (evp : EvpCtx) : Prop where
  key : evp.key = read c.key 0 (get_key_size aes_bits)
  iv : evp.iv = read c.nonce 0 c.nonce_len

/-- A call that finds its key in the cache is under the key size that the context was last
re-keyed with, and that re-keying did not fail half way. -/
def KeyInPlace (aes_bits : Nat) (s : Side) (c : Args) (was : Option Nat) : Prop :=
  key_changed aes_bits s c = false → was = some (get_key_size aes_bits)

theorem key_changed_eq_false (h : key_changed aes_bits s c = false) :
    s.key_cached = true ∧
    read s.cached_key 0 (get_key_size aes_bits) = read c.key 0 (get_key_size aes_bits) ∧
    s.cached_nonce_len = c.nonce_len := by
  unfold key_changed at h
  simp only [Bool.or_eq_false_iff, Bool.not_eq_false', bne_eq_false_iff_eq] at h
  exact ⟨h.1.1, h.1.2, h.2⟩

theorem Kept.fits (h : Kept s was) (hin : KeyInPlace aes_bits s c was) {evp : EvpCtx}
    (hs : (set_up left aes_bits a s c).2 = some evp) : Fits aes_bits c evp := by
  have hway := set_up_way left aes_bits a s c
  generalize set_up left aes_bits a s c = r at hway hs
  cases hway with
  | no_context | broken | refused => simp at hs
  | rekeyed hsome hch hc hok hcipher hlen hkey hiv =>
    obtain rfl := Option.some.inj hs
    exact ⟨hkey, hiv⟩
  | @hit e hch hsame =>
    obtain rfl := Option.some.inj hs
    obtain ⟨hcached, hkey, hlen⟩ := key_changed_eq_false hch
    obtain ⟨e', hm⟩ := h hcached _ (hin hch)
    obtain rfl := hsame e' hm.evp_eq
    refine ⟨hm.key.trans hkey, ?_⟩
    show read c.nonce 0 e.iv_len = _
    rw [hm.iv_len, hlen]

/-! ## The calls -/

/-- The second half of a call. -/
def finish (o : Openssl) (d : Dir) (c : Args) (a : Answers) (evp : EvpCtx) :
    Option (Bytes × Option Bytes) :=
  if !a.update || !a.ctrl_tag || !a.final then none
  else
    match d with
    | .enc =>
      let cipher := o.gcm evp.key evp.iv c.data
      some (cipher, some (o.gcm_tag evp.key evp.iv cipher))
    | .dec =>
      if o.gcm_tag evp.key evp.iv c.data != c.tag then none
      else some (o.gcm evp.key evp.iv c.data, none)

theorem call_eq (d : Dir) :
    call o left aes_bits s d c a =
      if c.data.length = 0 then (s, some (c.data, none))
      else ((set_up left aes_bits a s c).1,
        (set_up left aes_bits a s c).2.bind (finish o d c a)) := by
  unfold call crypto_aes_gcm_encrypt crypto_aes_gcm_decrypt finish
  by_cases hdata : c.data.length = 0
  · rw [if_pos hdata, if_pos hdata, if_pos hdata]
    cases d <;> rfl
  rw [if_neg hdata, if_neg hdata, if_neg hdata]
  generalize set_up left aes_bits a s c = r
  obtain ⟨s', evp⟩ := r
  cases evp with
  | none => cases d <;> rfl
  | some evp =>
    rw [Option.bind_some]
    cases d with
    | enc => cases a.update <;> cases a.final <;> cases a.ctrl_tag <;> rfl
    | dec =>
      dsimp only
      cases o.gcm_tag evp.key evp.iv c.data != c.tag <;>
        cases a.update <;> cases a.final <;> cases a.ctrl_tag <;> rfl

/-- OpenSSL can only make a call fail. What comes out depends on the key and the nonce that the
context was given. -/
theorem finish_of_some {d : Dir} {evp evp' : EvpCtx} {r : Bytes × Option Bytes}
    (hkey : evp'.key = evp.key) (hiv : evp'.iv = evp.iv) (h : finish o d c a evp = some r) :
    finish o d c {} evp' = some r := by
  unfold finish at h ⊢
  rw [hkey, hiv]
  by_cases hfail : (!a.update || !a.ctrl_tag || !a.final) = true
  · rw [if_pos hfail] at h
    simp at h
  · rw [if_neg hfail] at h
    exact h

/-- The full path is AES with the arguments of the call. -/
theorem full_path_eq (o : Openssl) (left : EvpCtx → Nat × Bytes) (aes_bits : Nat) (d : Dir)
    (c : Args) :
    full_path o left aes_bits d c =
      if c.data.length = 0 then some (c.data, none)
      else finish o d c {}
        { key := read c.key 0 (get_key_size aes_bits), iv := read c.nonce 0 c.nonce_len } := by
  unfold full_path
  rw [call_eq]
  by_cases hdata : c.data.length = 0
  · rw [if_pos hdata, if_pos hdata]
  · rw [if_neg hdata, if_neg hdata]
    rfl

/-- A call on a side whose cache can be trusted. -/
theorem Kept.call_full (h : Kept s was) (hin : KeyInPlace aes_bits s c was) {d : Dir}
    {r : Bytes × Option Bytes} (hr : (call o left aes_bits s d c a).2 = some r) :
    full_path o left aes_bits d c = some r := by
  rw [full_path_eq]
  rw [call_eq] at hr
  by_cases hdata : c.data.length = 0
  · rw [if_pos hdata] at hr ⊢
    exact hr
  · rw [if_neg hdata] at hr ⊢
    obtain ⟨evp, hevp, hfinish⟩ := Option.bind_eq_some_iff.mp hr
    have hfits := h.fits hin hevp
    exact finish_of_some hfits.key.symm hfits.iv.symm hfinish

/-- A call leaves a side whose cache can be trusted as far as the record says. -/
theorem Kept.call_kept (h : Kept s was) (d : Dir) :
    Kept (call o left aes_bits s d c a).1 (rekeyed_after aes_bits a s c was) := by
  rw [call_eq]
  by_cases hdata : c.data.length = 0
  · rw [if_pos hdata]
    unfold rekeyed_after
    rw [if_neg (fun hall => hall.1 hdata)]
    exact h
  · rw [if_neg hdata]
    exact h.set_up_kept hdata

theorem get_key_size_le (aes_bits : Nat) : get_key_size aes_bits ≤ packet_crypto.AES_MAX_KEY_SIZE := by
  unfold get_key_size packet_crypto.AES_MAX_KEY_SIZE
  split <;> decide

/-- The bytes of a key that AES takes from its array. -/
theorem take_read_key (key : Buf) :
    (read key 0 packet_crypto.AES_MAX_KEY_SIZE).take (get_key_size aes_bits) =
      read key 0 (get_key_size aes_bits) := by
  have hsplit := read_add key 0 (get_key_size aes_bits)
    (packet_crypto.AES_MAX_KEY_SIZE - get_key_size aes_bits)
  rw [Nat.add_sub_cancel' (get_key_size_le aes_bits)] at hsplit
  rw [hsplit]
  exact List.take_left' (length_read _ _ _)

/-! ## The contexts of the layers -/

/-- A side as the layers' model has it. -/
def Side.view (s : Side) : packet_crypto.GcmSide where
  key_cached := s.key_cached
  cached_key := read s.cached_key 0 packet_crypto.AES_MAX_KEY_SIZE
  cached_nonce_len := s.cached_nonce_len
  evp_key := (s.evp.getD {}).key

/-- A side on which no call of OpenSSL has failed. -/
def Side.IvKept (s : Side) : Prop :=
  s.key_cached = true → ∃ evp, s.evp = some evp ∧ evp.iv_len = s.cached_nonce_len

/-- A write at the front of an array leaves the bytes behind it. -/
theorem read_write_front (b : Buf) (bs : Bytes) {n : Nat} (h : bs.length ≤ n) :
    read (write b 0 bs) 0 n = bs ++ (read b 0 n).drop bs.length := by
  have hsplit : ∀ b', read b' 0 n = read b' 0 bs.length ++ read b' (0 + bs.length) (n - bs.length) :=
    fun b' => by rw [← read_add, Nat.add_sub_cancel' h]
  rw [hsplit (write b 0 bs), hsplit b, read_write_self _ _ _ _ rfl,
    read_write_apart _ _ _ _ _ (by omega), List.drop_left' (length_read _ _ _)]

theorem view_key_changed :
    s.view.key_changed (read c.key 0 (get_key_size aes_bits)) c.nonce_len =
      key_changed aes_bits s c := by
  unfold packet_crypto.GcmSide.key_changed key_changed Side.view
  rw [length_read, take_read_key]

/-- With every call of OpenSSL succeeding, the first half of a call does to the view what the
layers' model does to it. -/
theorem set_up_view (aes_bits : Nat) (hs : s.IvKept) (left : EvpCtx → Nat × Bytes) :
    ∃ s' evp, set_up left aes_bits {} s c = (s', some evp) ∧ s'.IvKept ∧
      s'.view = s.view.set_up (read c.key 0 (get_key_size aes_bits)) c.nonce_len ∧
      evp.key = s'.view.evp_key ∧ evp.iv = read c.nonce 0 c.nonce_len := by
  have hevp : s.evp.or (some {}) = some (s.evp.getD {}) := by cases s.evp <;> rfl
  unfold set_up packet_crypto.GcmSide.set_up
  rw [view_key_changed]
  simp only [if_true, hevp, Bool.not_true, Bool.false_eq_true, if_false]
  cases hch : key_changed aes_bits s c with
  | true =>
    refine ⟨_, _, rfl, fun _ => ⟨_, rfl, rfl⟩, ?_, rfl, rfl⟩
    unfold Side.view
    dsimp only
    rw [if_pos rfl, read_write_front _ _ (by rw [length_read]; exact get_key_size_le aes_bits)]
    rfl
  | false =>
    obtain ⟨hcached, -, hlen⟩ := key_changed_eq_false hch
    obtain ⟨evp, hsome, hiv⟩ := hs hcached
    have hread : read c.nonce 0 evp.iv_len = read c.nonce 0 c.nonce_len := by rw [hiv, hlen]
    rw [hsome]
    refine ⟨_, _, rfl, fun _ => ⟨_, rfl, hiv⟩, ?_, rfl, hread⟩
    unfold Side.view
    rw [hsome]
    rfl

/-- An encryption on a side is what the layers' model makes of its view in a packet. -/
theorem call_encrypts {tls : Tls} (he : tls.evp_ok = true) (hs : s.IvKept)
    (hn : c.nonce_len = tls.nonce_size) {pkt : Buf} {off : Nat}
    (hdata : read pkt off c.data.length = c.data) :
    packet_crypto.crypto_aes_gcm_encrypt o tls s.view
        (read c.key 0 packet_crypto.AES_MAX_KEY_SIZE) (read c.nonce 0 c.nonce_len) pkt off
        c.data.length =
      (call o left tls.aes_bits s .enc c {}).2.map fun r =>
        (write pkt off r.1, r.2.getD (read tls.stack_tag 0 AES128_GCM_TAG_SIZE)) := by
  obtain ⟨s', evp, hset, -, hview, hkey, hiv⟩ := set_up_view tls.aes_bits hs left
  unfold packet_crypto.crypto_aes_gcm_encrypt
  rw [call_eq, hset, take_read_key, ← hn, ← hview, hdata, he]
  dsimp only
  rw [← hkey, ← hiv]
  by_cases hlen : c.data.length = 0
  · rw [if_pos hlen, if_pos hlen, List.length_eq_zero_iff.mp hlen, Option.map_some, write_nil]
    rfl
  · rw [if_neg hlen, if_neg hlen]
    rfl

/-- And so is a decryption, with the same answer to the tag. -/
theorem call_decrypts {tls : Tls} (he : tls.evp_ok = true) (hs : s.IvKept)
    (hn : c.nonce_len = tls.nonce_size) {pkt : Buf} {off : Nat}
    (hdata : read pkt off c.data.length = c.data) :
    let r := packet_crypto.crypto_aes_gcm_decrypt o tls s.view
      (read c.key 0 packet_crypto.AES_MAX_KEY_SIZE) (read c.nonce 0 c.nonce_len) pkt off
      c.data.length c.tag
    (if r.1 then some r.2 else none) =
      (call o left tls.aes_bits s .dec c {}).2.map fun r => write pkt off r.1 := by
  obtain ⟨s', evp, hset, -, hview, hkey, hiv⟩ := set_up_view tls.aes_bits hs left
  unfold packet_crypto.crypto_aes_gcm_decrypt
  rw [call_eq, hset, take_read_key, ← hn, ← hview, hdata, he]
  dsimp only
  rw [← hkey, ← hiv]
  by_cases hlen : c.data.length = 0
  · rw [if_pos hlen, if_pos hlen, List.length_eq_zero_iff.mp hlen, Option.map_some, write_nil]
    rfl
  · rw [if_neg hlen, if_neg hlen, Option.bind_some]
    unfold finish bne
    dsimp only
    cases o.gcm_tag evp.key evp.iv c.data == c.tag <;> rfl

/-- A call that finds its key in place does so in the layers' model. -/
theorem Kept.inPlace (h : Kept s was) (hin : KeyInPlace aes_bits s c was) :
    s.view.InPlace (read c.key 0 (get_key_size aes_bits)) c.nonce_len := by
  intro hch
  rw [view_key_changed] at hch
  obtain ⟨hcached, hkey, -⟩ := key_changed_eq_false hch
  obtain ⟨evp, hm⟩ := h hcached _ (hin hch)
  unfold Side.view
  rw [hm.evp_eq]
  exact hm.key.trans hkey

end

/-! ## Runs -/

/-- Both caches of a thread. -/
def AllKept (w : Watched) : Prop := ∀ d, Kept (w.thread.side d) (w.rekeyed d)

theorem allKept_step {o : Openssl} {left : EvpCtx → Nat × Bytes} {w : Watched} (h : AllKept w)
    (e : Event) : AllKept (w.step o left e) := by
  intro d'
  cases e with
  | set_aes_bits bits => exact h d'
  | cleanup => exact fun hcached => absurd hcached Bool.false_ne_true
  | call d c a =>
    show Kept (Function.update w.thread.side d _ d') (Function.update w.rekeyed d _ d')
    by_cases hd : d' = d
    · rw [hd, Function.update_self, Function.update_self]
      exact (h d).call_kept d
    · rw [Function.update_of_ne hd, Function.update_of_ne hd]
      exact h d'

/-- The runs of a thread from its start. -/
abbrev ThreadRun (o : Openssl) (left : EvpCtx → Nat × Bytes) (es : List Event) (w : Watched) :
    Prop :=
  Run (fun w e w' => w.step o left e = w') {} es w

theorem allKept_of_run {o : Openssl} {left : EvpCtx → Nat × Bytes} {es : List Event} {w : Watched}
    (h : ThreadRun o left es w) : AllKept w :=
  h.invariant (fun _ hcached => absurd hcached Bool.false_ne_true) fun _ e _ hw he =>
    he ▸ allKept_step hw e

/-- After any calls on a thread, under any keys, nonce lengths and AES sizes and with any failures
of OpenSSL: a call that returns 0 gives what it gives on a new context, when the key it finds in
the cache is the one that its context was last re-keyed with, under its AES size and to the end. -/
theorem a_call_gives_what_a_new_context_gives {o : Openssl} {left : EvpCtx → Nat × Bytes}
    {es : List Event} {w : Watched} (h : ThreadRun o left es w) (d : Dir) (c : Args) (a : Answers)
    (hin : KeyInPlace w.thread.aes_bits (w.thread.side d) c (w.rekeyed d))
    {r : Bytes × Option Bytes}
    (hr : (call o left w.thread.aes_bits (w.thread.side d) d c a).2 = some r) :
    full_path o left w.thread.aes_bits d c = some r :=
  (allKept_of_run h d).call_full hin hr

/-! ## Two policies of one configured key -/

/-- OpenSSL sets the IV length of a context that gets a GCM cipher to 12, and forgets its key. -/
def forgets (_ : EvpCtx) : Nat × Bytes := (12, [])

/-- Four bytes under a key and a nonce of 12 bytes. -/
def pingUnder (key nonce : Bytes) : Args where
  key := ofBytes key
  nonce := ofBytes nonce
  nonce_len := 12
  data := [0x70, 0x69, 0x6e, 0x67]

/-- The key of `masterKey` for 128 bits. -/
def key128 : Bytes := masterDigest.toList.take 16

def firstPing : List Event := [.set_aes_bits 128, .call .enc (pingUnder key128 nonce0) {}]

/-- The thread after it. -/
def keyed : Watched := firstPing.foldl (Watched.step sampleOpenssl forgets) {}

theorem keyed_run : ThreadRun sampleOpenssl forgets firstPing keyed := Run.of_foldl _ _ _

theorem the_second_packet_of_a_key_takes_the_fast_path :
    key_changed keyed.thread.aes_bits (keyed.thread.side .enc) (pingUnder key128 nonce1) = false ∧
    (full_path sampleOpenssl forgets keyed.thread.aes_bits .enc (pingUnder key128 nonce1)).map
      (·.1) = some [0xf2, 0xd9, 0x23, 0xaf] := by
  refine ⟨by decide +kernel, ?_⟩
  obtain ⟨r, hr, hdata⟩ : ∃ r, (call sampleOpenssl forgets keyed.thread.aes_bits
      (keyed.thread.side .enc) .enc (pingUnder key128 nonce1) {}).2 = some r ∧
      r.1 = [0xf2, 0xd9, 0x23, 0xaf] := Option.map_eq_some_iff.mp (by decide +kernel)
  have hfull := a_call_gives_what_a_new_context_gives keyed_run .enc (pingUnder key128 nonce1) {}
    (fun _ => by decide +kernel) hr
  exact Option.map_eq_some_iff.mpr ⟨r, hfull, hdata⟩

/-- The sample with the first bytes of an AES-256 keystream. The master key followed by zeros has
the same HMAC as without them, so that its key for 256 bits is the whole digest. -/
def wideOpenssl : Openssl :=
  streamOpenssl (fun _ _ _ => 0)
    (fun key nonce i =>
      if key = masterDigest.toList ∧ nonce = nonce1 then [0xde, 0x0b, 0x62, 0x83].getD i 0
      else gcmStream key nonce i)
    gcmTag fun _ _ => masterDigest

/-- A packet of the policy with 256 bits, and then one of the policy with 128 bits. -/
def widePing : List Event :=
  [.set_aes_bits 256, .call .enc (pingUnder masterDigest.toList nonce0) {}, .set_aes_bits 128]

def widened : Watched := widePing.foldl (Watched.step wideOpenssl forgets) {}

theorem the_policy_with_128_bits_is_encrypted_with_256 :
    wideOpenssl.Lawful ∧ ThreadRun wideOpenssl forgets widePing widened ∧
    (call wideOpenssl forgets widened.thread.aes_bits (widened.thread.side .enc) .enc
      (pingUnder key128 nonce1) {}).2.map (·.1) = some [0xae, 0x62, 0x0c, 0xe4] ∧
    (full_path wideOpenssl forgets widened.thread.aes_bits .enc (pingUnder key128 nonce1)).map
      (·.1) = some [0xf2, 0xd9, 0x23, 0xaf] :=
  ⟨streamOpenssl_lawful _ _ _ _, Run.of_foldl _ _ _, by decide +kernel, by decide +kernel⟩

end ne_ip.gcm_cache
