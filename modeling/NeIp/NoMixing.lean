-- Fragments over a channel that loses, duplicates, delays and reorders them: what a
-- table puts together is always one packet, never halves of two.
import NeIp.Reassembly
import NeIp.Runs
import NeIp.Sample
import NeIp.StaleKey

open runs byte_buf ne_ip.packet_crypto ne_ip.tunnel ne_ip.config ne_ip.crypto_layer2
open ne_ip.crypto_layer3 ne_ip.crypto_layer4 ne_ip.fragment ne_ip.reassembly ne_ip.sample
open ne_ip.key_loop ne_ip.stale_key

namespace ne_ip.no_mixing

/-! ## The two ends -/

/-- A packet with the thread and the buffers that it is split with. -/
structure Sent where
  layer : Layer
  tls : Tls
  ctx : PacketCryptoCtx
  counter : Nat
  pkt : Buf
  pkt_len : Nat
  frag1 : Buf
  frag2 : Buf

abbrev Frames := (Buf × Nat) × (Buf × Nat)

def Sent.split (m : Sent) (o : Openssl) (fake pkt_id_counter : Nat) : SplitResult :=
  m.layer.split o fake m.tls m.ctx m.counter pkt_id_counter m.pkt m.pkt_len m.frag1 m.frag2

/-- The fragments of a packet that needs a split, and the id counter after it. -/
def Sent.frames (m : Sent) (o : Openssl) (fake pkt_id_counter : Nat) : Option Frames × Nat :=
  if m.layer.need_split m.tls m.pkt_len then
    ((m.split o fake pkt_id_counter).frags, (m.split o fake pkt_id_counter).pkt_id_counter)
  else (none, pkt_id_counter)

/-- A receiver with the settings of the packet's policy, whose AES runs under its key. -/
structure Suits (m : Sent) (tls : Tls) (ctx : PacketCryptoCtx) : Prop
    extends SameSettings m.tls tls ctx where
  key : SameKey m.tls m.ctx tls ctx

/-- The function that opens the fragments of a layer. -/
def opener : Layer → Opener
  | .l2 => .layer2_fragment
  | .l3 => .layer3_fragment
  | .l4 => .layer4_fragment

/-- A receiver with the settings of the packet's policy loses a fragment that OpenSSL refuses. -/
def LostWhenRefused (o : Openssl) (fake : Nat) (l : Layer) (m : Sent) (g : Buf × Nat) : Prop :=
  ∀ tls ctx, SameSettings m.tls tls ctx → m.tls.crypto_mode = .gcm →
    Refuses (opener l) o fake tls ctx g.1 g.2 → (l.decrypt_fragment o fake tls ctx g.1 g.2).1 = none

/-- The halves that every receiver gets from the two fragments, or from copies of them. -/
structure SplitsInto (o : Openssl) (fake : Nat) (l : Layer) (m : Sent) (f : Frames) (p : Parts) :
    Prop where
  wf : p.Wf l
  first : ∀ tls ctx buf, Suits m tls ctx → (∀ i, i < f.1.2 → buf i = f.1.1 i) →
    ∃ pkt n, l.decrypt_fragment o fake tls ctx buf f.1.2 = (some (n, p.id, 0), pkt) ∧
      Opened l p p.plain1 pkt n
  second : ∀ tls ctx buf, Suits m tls ctx → (∀ i, i < f.2.2 → buf i = f.2.1 i) →
    ∃ pkt n, l.decrypt_fragment o fake tls ctx buf f.2.2 = (some (n, p.id, 1), pkt) ∧
      Opened l p p.plain2 pkt n
  first_lost : 0 < p.plain1.length → LostWhenRefused o fake l m f.1
  second_lost : 0 < p.plain2.length → LostWhenRefused o fake l m f.2

/-! ## What a receiver makes of a fragment -/

section

variable {o : Openssl} {fake : Nat} {m : Sent} {counter : Nat} {idx : UInt8} {plain : Bytes}
  {g : Buf × Nat}

theorem opens_l2 (ho : o.Lawful) (p : Parts) (hid : p.id % 65536 = p.id)
    (hg : L2Fragment o fake m.tls m.ctx counter p.packet plain p.id idx g.1 g.2) (tls : Tls)
    (ctx : PacketCryptoCtx) (buf : Buf) (hsuit : Suits m tls ctx)
    (hbuf : ∀ i, i < g.2 → buf i = g.1 i) :
    ∃ pkt n, Layer.l2.decrypt_fragment o fake tls ctx buf g.2 = (some (n, p.id, idx), pkt) ∧
      Opened .l2 p plain pkt n := by
  obtain ⟨pkt, hdec, hplain, hhead⟩ := crypto_layer2_decrypt_fragment_frame ho tls ctx
    (hg.congr hbuf) hsuit.aes hsuit.nonce_size hsuit.evp_ok hsuit.key hsuit.initialized
  rw [hid] at hdec
  exact ⟨pkt, _, hdec, rfl, hplain, fun i hi _ => hhead i hi⟩

theorem lost_l2 (ho : o.Lawful) {packet : Buf} {id : Nat} (hd : 0 < plain.length)
    (hg : L2Fragment o fake m.tls m.ctx counter packet plain id idx g.1 g.2) :
    LostWhenRefused o fake .l2 m g := fun _ _ hs hm hw =>
  layer2_fragment_refuses ho hg hs.aes hs.nonce_size hs.evp_ok hs.initialized hm hd hw

theorem opens_l3 (ho : o.Lawful) (p : Parts) {pkt_len : Nat}
    (hs : Splittable p.packet pkt_len p.ihl) (hid : p.id % 65536 = p.id)
    (hg : L3Fragment o m.tls m.ctx counter p.packet p.ihl plain p.id idx g.1 g.2) (tls : Tls)
    (ctx : PacketCryptoCtx) (buf : Buf) (hsuit : Suits m tls ctx)
    (hbuf : ∀ i, i < g.2 → buf i = g.1 i) :
    ∃ pkt n, Layer.l3.decrypt_fragment o fake tls ctx buf g.2 = (some (n, p.id, idx), pkt) ∧
      Opened .l3 p plain pkt n := by
  have hP : IPV4_PROTO_OFF = 23 := rfl
  obtain ⟨pkt, hdec, hplain, hhead⟩ := crypto_layer3_decrypt_fragment_frame ho tls ctx
    (hg.congr hs.ihl_ge hbuf) hs.ipv4 hs.ihl_eq hs.ihl_ge hsuit.aes hsuit.nonce_size hsuit.evp_ok
    hsuit.key hsuit.initialized hsuit.fake_protocol
  rw [hid] at hdec
  refine ⟨pkt, _, hdec, rfl, hplain, fun i hi hk => ?_⟩
  have h23 := hk.1 rfl
  exact hhead i hi (by omega) hk.2.1 hk.2.2

theorem lost_l3 (ho : o.Lawful) {packet : Buf} {pkt_len ihl id : Nat}
    (hs : Splittable packet pkt_len ihl) (hd : 0 < plain.length)
    (hg : L3Fragment o m.tls m.ctx counter packet ihl plain id idx g.1 g.2) :
    LostWhenRefused o fake .l3 m g := fun _ _ hset hm hw =>
  layer3_fragment_refuses ho hg hs.ipv4 hs.ihl_eq hs.ihl_ge hset hm hd hw

theorem opens_l4 (ho : o.Lawful) (p : Parts) {pkt_len : Nat}
    (hs : Splittable p.packet pkt_len p.ihl) (hid : p.id % 65536 = p.id)
    (hg : L4Fragment o m.tls m.ctx counter p.packet p.ihl plain p.id idx g.1 g.2) (tls : Tls)
    (ctx : PacketCryptoCtx) (buf : Buf) (hsuit : Suits m tls ctx)
    (hbuf : ∀ i, i < g.2 → buf i = g.1 i) :
    ∃ pkt n, Layer.l4.decrypt_fragment o fake tls ctx buf g.2 = (some (n, p.id, idx), pkt) ∧
      Opened .l4 p plain pkt n := by
  obtain ⟨pkt, hdec, hplain, hhead⟩ := crypto_layer4_decrypt_fragment_frame ho tls ctx
    (hg.congr hbuf) hs.ipv4 hs.proto hs.ihl_eq hs.ihl_ge hsuit.aes hsuit.nonce_size hsuit.evp_ok
    hsuit.key hsuit.initialized
  rw [hid] at hdec
  exact ⟨pkt, _, hdec, rfl, hplain, fun i hi hk => hhead i hi hk.2.1 hk.2.2⟩

theorem lost_l4 (ho : o.Lawful) {packet : Buf} {pkt_len ihl id : Nat}
    (hs : Splittable packet pkt_len ihl) (hd : 0 < plain.length)
    (hg : L4Fragment o m.tls m.ctx counter packet ihl plain id idx g.1 g.2) :
    LostWhenRefused o fake .l4 m g := fun _ _ hset hm hw =>
  layer4_fragment_refuses ho hg hs.ipv4 hs.proto hs.ihl_eq hs.ihl_ge hset.aes hset.nonce_size
    hset.evp_ok hset.initialized hm hd hw

end

/-! ## What a split makes -/

theorem th_of_le {plain1 : Bytes} {off : Nat} {proto : UInt8}
    (h : (get_transport_hdr_size (ofBytes plain1) off proto (plain1.length - off)).isSome = true)
    (hoff : off ≤ plain1.length) : off + th_of plain1 off proto ≤ plain1.length := by
  obtain ⟨n, hn⟩ := Option.isSome_iff_exists.mp h
  have hle := (get_transport_hdr_size_some hn).2.2
  unfold th_of
  rw [hn]
  dsimp only
  omega

theorem splits_into_l3 {o : Openssl} (ho : o.Lawful) {fake : Nat} {m : Sent} {f : Frames}
    {pkt_id_counter : Nat} (hns : 4 ≤ m.tls.nonce_size)
    (h : (frag_split_and_encrypt o m.tls m.ctx m.counter pkt_id_counter m.pkt m.pkt_len m.frag1
      m.frag2).frags = some f) :
    ∃ p : Parts, p.id = pkt_id_counter % 65536 ∧ SplitsInto o fake .l3 m f p ∧
      (14 + ip_hdr_len_at m.pkt 14 ≤ m.pkt_len → p.Of .l3 m.pkt m.pkt_len) := by
  obtain ⟨f1, f2⟩ := f
  obtain ⟨ihl, plain1, plain2, c, hs, hf1, hf2, hhalves, -⟩ := frag_split_and_encrypt_some ho hns h
  let p : Parts := { packet := m.pkt, ihl, plain1, plain2, id := pkt_id_counter % 65536 }
  refine ⟨p, rfl, ⟨⟨hs.ihl_ge, fun _ => ⟨hs.ipv4, hs.ihl_eq⟩, nofun, ?_⟩,
    opens_l3 ho p hs (Nat.mod_mod _ _) hf1, opens_l3 ho p hs (Nat.mod_mod _ _) hf2,
    fun hd => lost_l3 ho hs hd hf1, fun hd => lost_l3 ho hs hd hf2⟩, fun _ => ⟨rfl, hs.ihl_eq.symm, hhalves⟩⟩
  intro proto hproto _
  refine th_of_le ?_ (Nat.zero_le _)
  unfold Parts.first_proto at hproto
  dsimp only at hproto
  split at hproto
  · rename_i ht
    obtain rfl := Option.some.inj hproto
    exact ht
  split at hproto
  · rename_i hu
    obtain rfl := Option.some.inj hproto
    exact hu
  · simp at hproto

theorem splits_into_l4 {o : Openssl} (ho : o.Lawful) {fake : Nat} {m : Sent} {f : Frames}
    {pkt_id_counter : Nat} (hns : 4 ≤ m.tls.nonce_size)
    (h : (frag_split_and_encrypt_l4 o m.tls m.ctx m.counter pkt_id_counter m.pkt m.pkt_len m.frag1
      m.frag2).frags = some f) :
    ∃ p : Parts, p.id = pkt_id_counter % 65536 ∧ SplitsInto o fake .l4 m f p ∧
      (14 + ip_hdr_len_at m.pkt 14 ≤ m.pkt_len → p.Of .l4 m.pkt m.pkt_len) := by
  obtain ⟨f1, f2⟩ := f
  obtain ⟨ihl, plain1, plain2, c, hs, hf1, hf2, hhalves, hread, hsize⟩ :=
    frag_split_and_encrypt_l4_some ho hns h
  let p : Parts := { packet := m.pkt, ihl, plain1, plain2, id := pkt_id_counter % 65536 }
  refine ⟨p, rfl, ⟨⟨hs.ihl_ge, fun _ => ⟨hs.ipv4, hs.ihl_eq⟩, nofun, ?_⟩,
    opens_l4 ho p hs (Nat.mod_mod _ _) hf1, opens_l4 ho p hs (Nat.mod_mod _ _) hf2,
    fun hd => lost_l4 ho hs hd hf1, fun hd => lost_l4 ho hs hd hf2⟩, fun hfits => ⟨rfl, hs.ihl_eq.symm, hhalves (by rw [← hs.ihl_eq]; exact hfits)⟩⟩
  intro proto hproto _
  refine th_of_le ?_ (Nat.zero_le _)
  obtain rfl := Option.some.inj hproto
  have hsame : read m.pkt (14 + ihl) plain1.length = read (ofBytes plain1) 0 plain1.length := by
    rw [read_ofBytes]
    exact hread.symm
  rw [get_transport_hdr_size_congr hsame] at hsize
  exact hsize

/-- Layer 2 only splits packets so long that a first half holds a UDP header. -/
theorem splits_into_l2 {o : Openssl} (ho : o.Lawful) {fake : Nat} {m : Sent} {f : Frames}
    {pkt_id_counter : Nat} (hns : 4 ≤ m.tls.nonce_size) (hns' : m.tls.nonce_size ≤ 16)
    (hneed : frag_need_split_l2 m.tls m.pkt_len = true)
    (h : (frag_split_and_encrypt_l2 o fake m.tls m.ctx m.counter pkt_id_counter m.pkt m.pkt_len
      m.frag1 m.frag2).frags = some f) :
    ∃ p : Parts, p.id = pkt_id_counter % 65536 ∧ SplitsInto o fake .l2 m f p ∧
      (14 + ip_hdr_len_at m.pkt 14 ≤ m.pkt_len → p.Of .l2 m.pkt m.pkt_len) := by
  obtain ⟨f1, f2⟩ := f
  obtain ⟨ihl, th, plain1, plain2, c, hihl, hf1, hf2, hhalves, hlen, hth⟩ :=
    frag_split_and_encrypt_l2_some ho hns h
  obtain ⟨h4, hnibble, h20, hfit⟩ := frag_require_ipv4_some hihl
  have hlong : 1463 < m.pkt_len := by
    have ht := tag_overhead_le m.tls
    unfold frag_need_split_l2 crypto_layer2_frag_meta_len at hneed
    have hneed := of_decide_eq_true hneed
    have hM : FRAG_MTU = 1500 := rfl
    have hF : FRAG_TAG_SIZE = 4 := rfl
    omega
  have hbyte : ∀ i, i < plain1.length → plain1.getD i 0 = m.pkt (14 + i) := by
    intro i hi
    have hr := getD_read m.pkt 14 plain1.length i hi
    rw [← hhalves.eq_read.1] at hr
    exact hr
  let p : Parts := { packet := m.pkt, ihl, plain1, plain2, id := pkt_id_counter % 65536 }
  refine ⟨p, rfl, ⟨⟨h20, fun hl => absurd rfl hl, fun _ => ?_, ?_⟩,
    opens_l2 ho p (Nat.mod_mod _ _) hf1, opens_l2 ho p (Nat.mod_mod _ _) hf2,
    fun hd => lost_l2 ho hd hf1, fun hd => lost_l2 ho hd hf2⟩, fun _ => ⟨rfl, hnibble.symm, hhalves⟩⟩
  · show (plain1.getD 0 0).toNat % 16 * 4 = ihl
    rw [hbyte 0 (by omega)]
    exact hnibble
  intro proto hproto _
  show ihl + th_of plain1 ihl proto ≤ plain1.length
  have hproto' : proto = m.pkt (14 + 9) := by
    unfold Parts.first_proto at hproto
    dsimp only at hproto
    split at hproto
    · simp at hproto
    · rw [← Option.some.inj hproto, hbyte 9 (by omega)]
  have hsame : read m.pkt (14 + ihl) (plain1.length - ihl) =
      read (ofBytes plain1) ihl (plain1.length - ihl) := by
    refine read_congr_shift fun i hi => ?_
    rw [ofBytes, hbyte (ihl + i) (by omega), Nat.add_assoc]
  rcases hth with hsize | ⟨h6, h17, rfl⟩
  · refine th_of_le ?_ (by omega)
    rw [← get_transport_hdr_size_congr hsame, hproto',
      get_transport_hdr_size_shorter hsize (by omega)]
    rfl
  · have hnone : get_transport_hdr_size (ofBytes plain1) ihl proto (plain1.length - ihl) = none := by
      unfold get_transport_hdr_size
      rw [hproto', if_neg h6, if_neg h17]
    unfold th_of
    rw [hnone]
    dsimp only
    rw [hproto', if_neg h6]
    have h60 : ihl ≤ 60 := by
      have := Nat.mod_lt (m.pkt 14).toNat (show 0 < 16 by decide)
      omega
    omega

/-- Whatever the two ends share of their settings, a split makes two halves of one packet. -/
theorem splits_into {o : Openssl} (ho : o.Lawful) {fake pkt_id_counter : Nat} {m : Sent} {f : Frames}
    (hns : 4 ≤ m.tls.nonce_size) (hns' : m.tls.nonce_size ≤ 16)
    (h : (m.frames o fake pkt_id_counter).1 = some f) :
    ∃ p : Parts, p.id = pkt_id_counter % 65536 ∧ SplitsInto o fake m.layer m f p ∧
      (14 + ip_hdr_len_at m.pkt 14 ≤ m.pkt_len → p.Of m.layer m.pkt m.pkt_len) := by
  unfold Sent.frames Sent.split at h
  split at h
  · rename_i hneed
    cases hl : m.layer with
    | l2 =>
      rw [hl] at h hneed
      exact splits_into_l2 ho hns hns' hneed h
    | l3 =>
      rw [hl] at h
      exact splits_into_l3 ho hns h
    | l4 =>
      rw [hl] at h
      exact splits_into_l4 ho hns h
  · simp at h

/-! ## The ids -/

theorem split_and_encrypt_pkt_id_counter (encrypt : (counter : Nat) → (enc_plain : Bytes) →
      (pkt_id : Nat) → (frag_index : UInt8) → (out_buf : Buf) → EncResult)
    (counter pkt_id_counter app_off app_len : Nat) (pkt frag1 frag2 : Buf) (hdr : Bytes) :
    (split_and_encrypt encrypt counter pkt_id_counter pkt hdr app_off app_len frag1
      frag2).pkt_id_counter = pkt_id_counter + 1 := by
  unfold split_and_encrypt
  dsimp only
  split
  · rfl
  split
  · rfl
  split
  · rfl
  · rfl

/-- A split draws one id, or it makes no fragments. -/
theorem Sent.split_draws (m : Sent) (o : Openssl) (fake pkt_id_counter : Nat) :
    (m.split o fake pkt_id_counter).pkt_id_counter = pkt_id_counter + 1 ∨
    ((m.split o fake pkt_id_counter).pkt_id_counter = pkt_id_counter ∧
      (m.split o fake pkt_id_counter).frags = none) := by
  unfold Sent.split
  cases m.layer with
  | l2 =>
    dsimp only [Layer.split]
    unfold frag_split_and_encrypt_l2
    split
    · exact Or.inr ⟨rfl, rfl⟩
    dsimp only
    split
    · split
      · exact Or.inr ⟨rfl, rfl⟩
      split
      · exact Or.inr ⟨rfl, rfl⟩
      · exact Or.inl (split_and_encrypt_pkt_id_counter _ _ _ _ _ _ _ _ _)
    · split
      · exact Or.inr ⟨rfl, rfl⟩
      · exact Or.inl (split_and_encrypt_pkt_id_counter _ _ _ _ _ _ _ _ _)
  | l3 =>
    dsimp only [Layer.split]
    unfold frag_split_and_encrypt
    split
    · exact Or.inr ⟨rfl, rfl⟩
    split
    · exact Or.inr ⟨rfl, rfl⟩
    dsimp only
    split
    · exact Or.inr ⟨rfl, rfl⟩
    split
    · exact Or.inr ⟨rfl, rfl⟩
    split
    · exact Or.inr ⟨rfl, rfl⟩
    · exact Or.inl (split_and_encrypt_pkt_id_counter _ _ _ _ _ _ _ _ _)
  | l4 =>
    dsimp only [Layer.split]
    unfold frag_split_and_encrypt_l4
    dsimp only
    split
    · exact Or.inr ⟨rfl, rfl⟩
    split
    · exact Or.inr ⟨rfl, rfl⟩
    split
    · exact Or.inr ⟨rfl, rfl⟩
    · exact Or.inl (split_and_encrypt_pkt_id_counter _ _ _ _ _ _ _ _ _)

theorem Sent.frames_draws (m : Sent) (o : Openssl) (fake pkt_id_counter : Nat) :
    (m.frames o fake pkt_id_counter).2 = pkt_id_counter + 1 ∨
    ((m.frames o fake pkt_id_counter).2 = pkt_id_counter ∧
      (m.frames o fake pkt_id_counter).1 = none) := by
  unfold Sent.frames
  split
  · exact m.split_draws o fake pkt_id_counter
  · exact Or.inr ⟨rfl, rfl⟩

/-- The id counter that the `k`th packet of a sender meets. -/
def id_counter (o : Openssl) (fake : Nat) (sent : Nat → Sent) (start : Nat) : Nat → Nat
  | 0 => start
  | k + 1 => ((sent k).frames o fake (id_counter o fake sent start k)).2

theorem id_counter_between (o : Openssl) (fake : Nat) (sent : Nat → Sent) (start j d : Nat) :
    id_counter o fake sent start j ≤ id_counter o fake sent start (j + d) ∧
    id_counter o fake sent start (j + d) ≤ id_counter o fake sent start j + d := by
  induction d with
  | zero => exact ⟨Nat.le_refl _, Nat.le_refl _⟩
  | succ d ih =>
    have hstep := (sent (j + d)).frames_draws o fake (id_counter o fake sent start (j + d))
    rw [← Nat.add_assoc]
    dsimp only [id_counter]
    omega

/-- Of 65536 packets in a row no two have fragments with one id. -/
theorem one_packet_per_id {o : Openssl} {fake start : Nat} {sent : Nat → Sent} {j k : Nat}
    {f g : Frames} (hj : j < 65536) (hk : k < 65536)
    (hf : ((sent j).frames o fake (id_counter o fake sent start j)).1 = some f)
    (hg : ((sent k).frames o fake (id_counter o fake sent start k)).1 = some g)
    (hid : id_counter o fake sent start j % 65536 = id_counter o fake sent start k % 65536) :
    j = k := by
  have hlt : ∀ {j k : Nat} {f : Frames}, j < k → k < 65536 →
      ((sent j).frames o fake (id_counter o fake sent start j)).1 = some f →
      id_counter o fake sent start j % 65536 ≠ id_counter o fake sent start k % 65536 := by
    intro j k f hjk hk hf
    obtain ⟨d, rfl⟩ := Nat.exists_eq_add_of_lt hjk
    have hbetween := id_counter_between o fake sent start (j + 1) d
    rw [Nat.add_right_comm] at hbetween
    have hnext : id_counter o fake sent start (j + 1) = id_counter o fake sent start j + 1 := by
      rcases (sent j).frames_draws o fake (id_counter o fake sent start j) with h | ⟨-, h⟩
      · exact h
      · rw [hf] at h
        exact absurd h nofun
    omega
  rcases Nat.lt_trichotomy j k with h | h | h
  · exact absurd hid (hlt h hk hf)
  · exact h
  · exact absurd hid.symm (hlt h hj hg)

/-! ## The channel -/

/-- What the receiver makes of a fragment: it decrypts it and gives the half to its table. -/
def receive (o : Openssl) (fake : Nat) (l : Layer) (tls : Tls) (ctx : PacketCryptoCtx) (buf : Buf)
    (n now : Nat) (ft : FragTable) (out_buf : Buf) : Reassembled × FragTable :=
  match l.decrypt_fragment o fake tls ctx buf n with
  | (none, _) => (.failed, ft)
  | (some (half_len, pkt_id, frag_index), half) =>
    l.try_reassemble now ft half half_len pkt_id frag_index out_buf

/-- What the fragments of one packet give when they come in order, into any table. -/
def in_order (o : Openssl) (fake : Nat) (l : Layer) (tls : Tls) (ctx : PacketCryptoCtx) (f : Frames)
    (now : Nat) (ft : FragTable) (out_buf : Buf) : Reassembled :=
  let first := receive o fake l tls ctx f.1.1 f.1.2 now ft out_buf
  (receive o fake l tls ctx f.2.1 f.2.2 now first.2 out_buf).1

/-- The packets of a sender in the order in which they draw their ids, and the id counter
before them. -/
structure Sender where
  sent : Nat → Sent
  start : Nat

/-- The fragments of the `k`th packet of the sender. -/
def Sender.frames (sd : Sender) (o : Openssl) (fake k : Nat) : Option Frames :=
  ((sd.sent k).frames o fake (id_counter o fake sd.sent sd.start k)).1

/-- A table and the packets that it has put together. -/
structure State where
  ft : FragTable
  outputs : List (Buf × Nat)

/-- The clock of the receiver is read at every step, and nothing is known about it. A fragment
may come at any time and any number of times, or never, or to a receiver that refuses it. -/
inductive Event where
  | gc (now : Nat)
  | arrive (k : Nat) (second : Bool) (tls : Tls) (ctx : PacketCryptoCtx) (buf : Buf) (now : Nat)
      (out_buf : Buf)
  | refuse (tls : Tls) (ctx : PacketCryptoCtx) (buf : Buf) (n now : Nat) (out_buf : Buf)

/-- The first or the second fragment. -/
def Frames.half (f : Frames) (second : Bool) : Buf × Nat := if second then f.2 else f.1

def packets_of : Reassembled → List (Buf × Nat)
  | .packet out out_len => [(out, out_len)]
  | .pending | .failed => []

inductive Step (o : Openssl) (fake : Nat) (l : Layer) (sd : Sender) : State → Event → State → Prop
  | gc (s : State) (now : Nat) :
      Step o fake l sd s (.gc now) { s with ft := frag_table_gc now s.ft }
  | arrive {s : State} {k : Nat} {second : Bool} {tls : Tls} {ctx : PacketCryptoCtx} {buf : Buf}
      {now : Nat} {out_buf : Buf} {f : Frames} {r : Reassembled} {ft : FragTable} :
      k < 65536 → (sd.sent k).layer = l → sd.frames o fake k = some f → Suits (sd.sent k) tls ctx →
      (∀ i, i < (f.half second).2 → buf i = (f.half second).1 i) →
      receive o fake l tls ctx buf (f.half second).2 now s.ft out_buf = (r, ft) →
      Step o fake l sd s (.arrive k second tls ctx buf now out_buf)
        { ft, outputs := s.outputs ++ packets_of r }
  | refuse {s : State} {tls : Tls} {ctx : PacketCryptoCtx} {buf : Buf} {n now : Nat} {out_buf : Buf}
      {r : Reassembled} {ft : FragTable} :
      (l.decrypt_fragment o fake tls ctx buf n).1 = none →
      receive o fake l tls ctx buf n now s.ft out_buf = (r, ft) →
      Step o fake l sd s (.refuse tls ctx buf n now out_buf)
        { ft, outputs := s.outputs ++ packets_of r }

/-! ## What the table holds -/

/-- The packet that a half in the table is of. -/
structure HalfOf (o : Openssl) (fake : Nat) (l : Layer) (sd : Sender) (k : Nat) (f : Frames)
    (p : Parts) : Prop where
  index : k < 65536
  layer : (sd.sent k).layer = l
  frames : sd.frames o fake k = some f
  id : p.id = id_counter o fake sd.sent sd.start k % 65536
  split : SplitsInto o fake l (sd.sent k) f p

/-- Every half that waits is one of the sender's first halves. -/
def Sound (o : Openssl) (fake : Nat) (l : Layer) (sd : Sender) (ft : FragTable) : Prop :=
  ∀ i, (ft i).valid = true → ∃ k f p, HalfOf o fake l sd k f p ∧ Holds l p (ft i)

/-- A packet is what its two fragments give in order. -/
def OneOf (o : Openssl) (fake : Nat) (l : Layer) (sd : Sender) (output : Buf × Nat) : Prop :=
  ∃ k f, k < 65536 ∧ (sd.sent k).layer = l ∧ sd.frames o fake k = some f ∧
    ∀ tls ctx, Suits (sd.sent k) tls ctx → ∀ now ft out_buf,
      ∃ out, in_order o fake l tls ctx f now ft out_buf = .packet out output.2 ∧
        ∀ i, i < output.2 → out i = output.1 i

variable {o : Openssl} {fake : Nat} {l : Layer} {sd : Sender}

theorem Sound.frees {ft ft' : FragTable} (h : Sound o fake l sd ft) (hf : Frees ft ft') :
    Sound o fake l sd ft' := by
  intro i hi
  rcases hf i with heq | hfree
  · rw [heq] at hi ⊢
    exact h i hi
  · rw [hfree] at hi
    exact absurd hi nofun

theorem Sound.set {ft : FragTable} (h : Sound o fake l sd ft) {k : Nat} {f : Frames} {p : Parts}
    (hp : HalfOf o fake l sd k f p) {e : FragEntry} (he : Holds l p e) (idx : Nat) :
    Sound o fake l sd (set_entry ft idx e) := by
  intro i hi
  unfold set_entry at hi ⊢
  split
  · exact ⟨k, f, p, hp, he⟩
  · rename_i hne
    rw [if_neg hne] at hi
    exact h i hi

/-- What does not decrypt leaves the table alone. -/
theorem receive_refused {tls : Tls} {ctx : PacketCryptoCtx} {buf : Buf} {n : Nat}
    (h : (l.decrypt_fragment o fake tls ctx buf n).1 = none) (now : Nat) (ft : FragTable)
    (out_buf : Buf) : receive o fake l tls ctx buf n now ft out_buf = (.failed, ft) := by
  unfold receive
  generalize l.decrypt_fragment o fake tls ctx buf n = r at h ⊢
  obtain ⟨_, pkt⟩ := r
  subst h
  rfl

theorem receive_first {m : Sent} {f : Frames} {p : Parts} (h : SplitsInto o fake l m f p)
    {tls : Tls} {ctx : PacketCryptoCtx} (hs : Suits m tls ctx) {buf : Buf}
    (hbuf : ∀ i, i < f.1.2 → buf i = f.1.1 i) (now : Nat) (ft : FragTable) (out_buf : Buf) :
    ((p.first_proto l = none ∨ ENTRY_DATA_SIZE < p.plain1.length) ∧
      receive o fake l tls ctx buf f.1.2 now ft out_buf = (.failed, ft)) ∨
    ∃ e, receive o fake l tls ctx buf f.1.2 now ft out_buf =
        (.pending, set_entry ft (p.id % FRAG_TABLE_SIZE) e) ∧ e.valid = true ∧
      e.timestamp_ns = now ∧ Holds l p e := by
  obtain ⟨half, half_len, hdec, hopen⟩ := h.first tls ctx buf hs hbuf
  unfold receive
  rw [hdec]
  exact try_reassemble_first h.wf hopen now ft out_buf rfl

theorem receive_second {m : Sent} {f : Frames} {p : Parts} (h : SplitsInto o fake l m f p)
    {tls : Tls} {ctx : PacketCryptoCtx} (hs : Suits m tls ctx) {buf : Buf}
    (hbuf : ∀ i, i < f.2.2 → buf i = f.2.1 i) (now : Nat) (ft : FragTable) (out_buf : Buf) :
    (∀ ft', take_pending ft (p.id % FRAG_TABLE_SIZE) p.id now = (none, ft') →
      (receive o fake l tls ctx buf f.2.2 now ft out_buf).1 = .failed ∧
      ((receive o fake l tls ctx buf f.2.2 now ft out_buf).2 = ft' ∨
        (receive o fake l tls ctx buf f.2.2 now ft out_buf).2 = ft)) ∧
    (take_pending ft (p.id % FRAG_TABLE_SIZE) p.id now = (some (ft (p.id % FRAG_TABLE_SIZE)), ft) →
      Holds l p (ft (p.id % FRAG_TABLE_SIZE)) →
      Completes l p ft (receive o fake l tls ctx buf f.2.2 now ft out_buf)) := by
  obtain ⟨half, half_len, hdec, hopen⟩ := h.second tls ctx buf hs hbuf
  unfold receive
  rw [hdec]
  exact try_reassemble_second h.wf hopen now ft out_buf rfl

/-- Two halves that fit, in order and in time, give the whole packet, whatever the table had. -/
theorem receive_in_time {m : Sent} {f : Frames} {p : Parts} (h : SplitsInto o fake l m f p)
    (hproto : p.first_proto l ≠ none) (hfirst : p.plain1.length ≤ ENTRY_DATA_SIZE) (hfits : p.Fits l)
    {tls1 tls2 : Tls} {ctx1 ctx2 : PacketCryptoCtx} (hs1 : Suits m tls1 ctx1)
    (hs2 : Suits m tls2 ctx2) {t1 t2 : Nat} (horder : t1 ≤ t2) (htime : t2 ≤ t1 + FRAG_TIMEOUT_NS)
    (ft : FragTable) (out1 out2 : Buf) :
    ∃ ft1 out ft2, receive o fake l tls1 ctx1 f.1.1 f.1.2 t1 ft out1 = (.pending, ft1) ∧
      receive o fake l tls2 ctx2 f.2.1 f.2.2 t2 ft1 out2 = (.packet out (p.whole_len l), ft2) ∧
      ∀ i, i < p.whole_len l → out i = p.whole l i := by
  rcases receive_first h hs1 (fun _ _ => rfl) t1 ft out1 with ⟨hbad, -⟩ | ⟨e, hr, hv, ht, hh⟩
  · rcases hbad with hbad | hbad
    · exact absurd hbad hproto
    · omega
  have hself := set_entry_self ft (p.id % FRAG_TABLE_SIZE) e
  have htake := take_pending_in_time (hself.symm ▸ hv) (hself.symm ▸ hh.id)
    (show _ ≤ t2 by rw [hself, ht]; exact horder) (by rw [hself, ht]; exact htime)
  have hcomplete := (receive_second h hs2 (fun _ _ => rfl) t2
    (set_entry ft (p.id % FRAG_TABLE_SIZE) e) out2).2 htake (by rw [set_entry_self]; exact hh)
  rcases hcomplete with ⟨hnot, -⟩ | ⟨-, out, ft', hr2, -, hout⟩
  · exact absurd hfits hnot
  · exact ⟨_, out, ft', hr, hr2, hout⟩

/-- A half that waits here would wait anywhere, and the second half completes it. -/
theorem in_order_whole {m : Sent} {f : Frames} {p : Parts} (h : SplitsInto o fake l m f p)
    {e : FragEntry} (hh : Holds l p e) (hfits : p.Fits l) {tls : Tls} {ctx : PacketCryptoCtx}
    (hs : Suits m tls ctx) (now : Nat) (ft : FragTable) (out_buf : Buf) :
    ∃ out, in_order o fake l tls ctx f now ft out_buf = .packet out (p.whole_len l) ∧
      ∀ i, i < p.whole_len l → out i = p.whole l i := by
  have hproto : p.first_proto l ≠ none := by
    rw [hh.proto]
    exact nofun
  have hfirst : p.plain1.length ≤ ENTRY_DATA_SIZE := by
    rw [← hh.len]
    exact e.data_le
  obtain ⟨ft1, out, ft2, hr1, hr2, hout⟩ := receive_in_time h hproto hfirst hfits hs hs
    (Nat.le_refl now) (Nat.le_add_right _ _) ft out_buf out_buf
  refine ⟨out, ?_, hout⟩
  unfold in_order
  dsimp only
  rw [hr1]
  dsimp only
  rw [hr2]

/-- One step of the receiver: the table stays sound, and what it puts together is one packet. -/
theorem Step.sound (ho : o.Lawful)
    (hns : ∀ k, 4 ≤ (sd.sent k).tls.nonce_size ∧ (sd.sent k).tls.nonce_size ≤ 16) {s t : State}
    {e : Event} (h : Step o fake l sd s e t)
    (hs : Sound o fake l sd s.ft ∧ ∀ output ∈ s.outputs, OneOf o fake l sd output) :
    Sound o fake l sd t.ft ∧ ∀ output ∈ t.outputs, OneOf o fake l sd output := by
  obtain ⟨hsound, hout⟩ := hs
  cases h with
  | gc now => exact ⟨hsound.frees (frees_gc now s.ft), hout⟩
  | refuse hnone hr =>
    obtain ⟨rfl, rfl⟩ := Prod.mk.inj (hr.symm.trans (receive_refused hnone _ _ _))
    exact ⟨hsound, by simpa [packets_of] using hout⟩
  | @arrive k second tls ctx buf now out_buf f r ft hk hl hf hsuit hbuf hr =>
    obtain ⟨p, hid, hsplit, -⟩ := splits_into ho (hns k).1 (hns k).2 hf
    rw [hl] at hsplit
    have hhalf : HalfOf o fake l sd k f p := ⟨hk, hl, hf, hid, hsplit⟩
    cases second with
    | false =>
      rcases receive_first hsplit hsuit hbuf now s.ft out_buf with ⟨-, hr'⟩ | ⟨e, hr', -, -, hh⟩
      · obtain ⟨rfl, rfl⟩ := Prod.mk.inj (hr.symm.trans hr')
        exact ⟨hsound, by simpa [packets_of] using hout⟩
      · obtain ⟨rfl, rfl⟩ := Prod.mk.inj (hr.symm.trans hr')
        exact ⟨hsound.set hhalf hh _, by simpa [packets_of] using hout⟩
    | true =>
      have hsecond := receive_second hsplit hsuit hbuf now s.ft out_buf
      have hreceive : receive o fake l tls ctx buf f.2.2 now s.ft out_buf = (r, ft) := hr
      rw [hreceive] at hsecond
      rcases take_pending_cases s.ft (p.id % FRAG_TABLE_SIZE) p.id now with
        ⟨ft', htake, hfree⟩ | ⟨htake, hvalid, hpkt⟩
      · obtain ⟨hfail, hft⟩ := hsecond.1 ft' htake
        dsimp only at hfail hft
        subst hfail
        refine ⟨?_, by simpa [packets_of] using hout⟩
        rcases hft with rfl | rfl
        · exact hsound.frees hfree
        · exact hsound
      -- the half that waits has the id of this packet, so it is of this packet
      obtain ⟨k', f', p', hhalf', hh⟩ := hsound _ hvalid
      have hsame : k' = k := by
        refine one_packet_per_id hhalf'.index hk hhalf'.frames hf ?_
        rw [← hhalf'.id, ← hid, ← hh.id, hpkt]
      subst hsame
      obtain rfl : f' = f := Option.some.inj (hhalf'.frames.symm.trans hf)
      have hids : p'.id = p.id := hhalf'.id.trans hid.symm
      have hsecond' := receive_second hhalf'.split hsuit hbuf now s.ft out_buf
      rw [hids, hreceive] at hsecond'
      rcases hsecond'.2 htake hh with ⟨-, hfail, hfree⟩ | ⟨hfits, out, ft', hr', hfree, hwhole⟩
      · dsimp only at hfail hfree
        subst hfail
        exact ⟨hsound.frees hfree, by simpa [packets_of] using hout⟩
      · obtain ⟨rfl, rfl⟩ := Prod.mk.inj hr'
        refine ⟨hsound.frees hfree, fun output hoin => ?_⟩
        rcases List.mem_append.mp hoin with hold | hnew
        · exact hout output hold
        obtain rfl := List.mem_singleton.mp hnew
        refine ⟨k', f', hk, hl, hf, fun tls ctx hsuit now ft out_buf => ?_⟩
        obtain ⟨out', hin, heq⟩ := in_order_whole hhalf'.split hh hfits hsuit now ft out_buf
        exact ⟨out', hin, fun i hi => (heq i hi).trans (hwhole i hi).symm⟩

/-- Whatever the channel does with the fragments of 65536 packets and whatever the clock says,
a packet that a table puts together is the one that the two fragments of a single packet of the
sender give in order. -/
theorem a_table_never_mixes_packets (o : Openssl) (ho : o.Lawful) (fake : Nat) (l : Layer)
    (sd : Sender) (hns : ∀ k, 4 ≤ (sd.sent k).tls.nonce_size ∧ (sd.sent k).tls.nonce_size ≤ 16)
    {es : List Event} {t : State} (h : Run (Step o fake l sd) ⟨frag_table_init, []⟩ es t) :
    ∀ output ∈ t.outputs, OneOf o fake l sd output := by
  refine (h.invariant (P := fun s => Sound o fake l sd s.ft ∧
    ∀ output ∈ s.outputs, OneOf o fake l sd output) ⟨fun i hi => absurd hi nofun, nofun⟩
    fun s e t hs he => Step.sound ho hns he hs).2

/-! ## A datagram that comes out of order -/

/-- The header of `udpPing`, and `pkt_len` bytes. -/
def longPing (pkt_len : Nat) : Sent where
  layer := .l3
  tls := {}
  ctx := (sampleRuntime [samplePolicy 7 .encrypt_l3] one_policy_le).active.ctx 0
  counter := 0
  pkt := ofBytes udpPing
  pkt_len
  frag1 := fun _ => 0
  frag2 := fun _ => 0

/-- The packets 0 and 512 share a slot of the table. -/
def pings : Sender where
  sent := fun k => longPing (if k = 512 then 1490 else 1500)
  start := 0

theorem longPing_draws (pkt_len c : Nat) (h : pkt_len = 1490 ∨ pkt_len = 1500) :
    ((longPing pkt_len).frames sampleOpenssl 0 c).2 = c + 1 := by
  have hneed : (longPing pkt_len).layer.need_split (longPing pkt_len).tls (longPing pkt_len).pkt_len =
      true := by
    rcases h with rfl | rfl <;> decide
  have hip : frag_require_ipv4 (ofBytes udpPing) pkt_len = some 20 := by
    rcases h with rfl | rfl <;> decide
  have hth : get_transport_hdr_size (ofBytes udpPing) (14 + 20) 17 (pkt_len - 14 - 20) = some 8 := by
    rcases h with rfl | rfl <;> decide
  unfold Sent.frames Sent.split
  rw [if_pos hneed]
  dsimp only [longPing, Layer.split]
  unfold frag_split_and_encrypt
  rw [if_neg (by omega), hip]
  dsimp only
  rw [show ofBytes udpPing (14 + 9) = 17 by decide, if_neg (by decide), hth]
  dsimp only
  rw [if_neg (by omega)]
  exact split_and_encrypt_pkt_id_counter _ _ _ _ _ _ _ _ _

theorem pings_id_counter (k : Nat) : id_counter sampleOpenssl 0 pings.sent 0 k = k := by
  induction k with
  | zero => rfl
  | succ k ih =>
    dsimp only [id_counter]
    rw [ih]
    refine longPing_draws _ k ?_
    split
    · exact Or.inl rfl
    · exact Or.inr rfl

/-- The fragments of the ping with the id `k`. -/
def pingFrames (k : Nat) : Option Frames := ((pings.sent k).frames sampleOpenssl 0 k).1

theorem pings_frames (k : Nat) : pings.frames sampleOpenssl 0 k = pingFrames k := by
  unfold Sender.frames pingFrames
  rw [show pings.start = 0 from rfl, pings_id_counter]

/-- The receiver after one of the fragments. -/
def after {k : Nat} (h : (pingFrames k).isSome = true) (second : Bool) (now : Nat) (s : State) :
    State :=
  let fragment := ((pingFrames k).get h).half second
  let r := receive sampleOpenssl 0 .l3 (pings.sent k).tls (pings.sent k).ctx fragment.1 fragment.2
    now s.ft fun _ => 0
  { ft := r.2, outputs := s.outputs ++ packets_of r.1 }

theorem after_step {k : Nat} (hk : k < 65536) (h : (pingFrames k).isSome = true) (second : Bool)
    (now : Nat) (s : State) :
    Step sampleOpenssl 0 .l3 pings s (.arrive k second (pings.sent k).tls (pings.sent k).ctx
      (((pingFrames k).get h).half second).1 now fun _ => 0) (after h second now s) :=
  .arrive hk rfl ((pings_frames k).trans (Option.some_get h).symm)
    ⟨⟨⟨rfl, rfl⟩, rfl, rfl, rfl, rfl⟩, SameKey.of_same_sides rfl _⟩ (fun _ _ => rfl) rfl

theorem first_splits : (pingFrames 0).isSome = true := by decide +kernel

theorem last_splits : (pingFrames 512).isSome = true := by decide +kernel

/-- Of packet 512 the second fragment overtakes the first and is lost, and its copy comes in time.
A half of packet 0 waits in the slot before, and the other half comes after it was displaced. -/
def outOfOrder : State :=
  after last_splits true 8 (after first_splits true 7 (after last_splits false 5
    (after last_splits true 4 (after first_splits false 3 ⟨frag_table_init, []⟩))))

theorem a_datagram_comes_through_out_of_order :
    outOfOrder.outputs.map Prod.snd = [1490] ∧
      ∀ output ∈ outOfOrder.outputs, OneOf sampleOpenssl 0 .l3 pings output :=
  ⟨by decide +kernel, a_table_never_mixes_packets sampleOpenssl sampleOpenssl_lawful 0 .l3 pings
    (fun _ => show 4 ≤ 12 ∧ 12 ≤ 16 by decide)
    (((((Run.single (after_step (by decide) first_splits false 3 _)).snoc
      (after_step (by decide) last_splits true 4 _)).snoc
      (after_step (by decide) last_splits false 5 _)).snoc
      (after_step (by decide) first_splits true 7 _)).snoc
      (after_step (by decide) last_splits true 8 _))⟩

end ne_ip.no_mixing
