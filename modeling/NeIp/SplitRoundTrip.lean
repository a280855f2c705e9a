-- A packet in two fragments that come in order and in time, to calls that run AES under its
-- key. Layers 2 and 4 put it together as it was; layer 3 takes the protocol from bytes that may
-- be the data of a datagram.
import NeIp.NoMixing
import NeIp.Checksums

open byte_buf ne_ip.packet_crypto ne_ip.tunnel ne_ip.crypto_layer2 ne_ip.crypto_layer3
open ne_ip.crypto_layer4 ne_ip.fragment ne_ip.reassembly ne_ip.no_mixing ne_ip.checksums
open ne_ip.sample ne_ip.key_loop ne_ip.stale_key

namespace ne_ip.split_round_trip

/-! ## The two calls -/

/-- An untagged IPv4 frame that ends with its datagram, with the checksum that is computed. -/
structure WholeFrame (pkt : Buf) (pkt_len : Nat) : Prop where
  ipv4 : be16 pkt 12 = 0x0800
  version : (pkt 14).toNat / 16 = 4
  totlen : pkt_len - 14 = be16 pkt 16
  canonical : HeaderCanonical pkt 14 (ip_hdr_len_at pkt 14)
  len : pkt_len ≤ 1514

instance (pkt : Buf) (pkt_len : Nat) : Decidable (WholeFrame pkt pkt_len) :=
  decidable_of_iff (be16 pkt 12 = 0x0800 ∧ (pkt 14).toNat / 16 = 4 ∧ pkt_len - 14 = be16 pkt 16 ∧
      HeaderCanonical pkt 14 (ip_hdr_len_at pkt 14) ∧ pkt_len ≤ 1514)
    ⟨fun ⟨h1, h2, h3, h4, h5⟩ => ⟨h1, h2, h3, h4, h5⟩, fun ⟨h1, h2, h3, h4, h5⟩ => ⟨h1, h2, h3, h4, h5⟩⟩

/-- A call of the receiver: its thread, the context, the clock and the buffer. -/
structure Call where
  tls : Tls
  ctx : PacketCryptoCtx
  now : Nat
  out_buf : Buf

def Call.receive (c : Call) (o : Openssl) (fake : Nat) (l : Layer) (frag : Buf × Nat)
    (ft : FragTable) : Reassembled × FragTable :=
  no_mixing.receive o fake l c.tls c.ctx frag.1 frag.2 c.now ft c.out_buf

/-- Both calls have the sender's parameters, and the second one comes within the timeout. -/
structure InTime (m : Sent) (first second : Call) : Prop where
  same_first : SameParameters m.tls m.ctx first.tls first.ctx
  same_second : SameParameters m.tls m.ctx second.tls second.ctx
  order : first.now ≤ second.now
  timeout : second.now ≤ first.now + FRAG_TIMEOUT_NS

/-- A call runs AES under the key that the packet was sealed under, and not under one that its
cipher context kept from before. -/
def Call.HasKey (c : Call) (m : Sent) : Prop := SameKey m.tls m.ctx c.tls c.ctx

/-- OpenSSL refuses a fragment at a call that has another key. -/
structure RefusedUnderOthers (o : Openssl) (fake : Nat) (m : Sent) (f : Frames)
    (first second : Call) : Prop where
  first : ¬ first.HasKey m → Refuses (opener m.layer) o fake first.tls first.ctx f.1.1 f.1.2
  second : ¬ second.HasKey m → Refuses (opener m.layer) o fake second.tls second.ctx f.2.1 f.2.2

/-- The first fragment waits, and the second one makes the packet of it. -/
def GivesBack (o : Openssl) (fake : Nat) (m : Sent) (f : Frames) (first second : Call)
    (ft : FragTable) : Prop :=
  ∃ ft1 out ft2, first.receive o fake m.layer f.1 ft = (.pending, ft1) ∧
    second.receive o fake m.layer f.2 ft1 = (.packet out m.pkt_len, ft2) ∧
    ∀ i, i < m.pkt_len → out i = m.pkt i

/-! ## The halves of a packet of one frame -/

section

variable {p : Parts} {l : Layer} {pkt : Buf} {pkt_len : Nat}

theorem whole_len_of (h : p.Of l pkt pkt_len) : p.whole_len l = pkt_len := by
  have hlen := h.halves.length
  cases l <;> exact hlen

/-- The halves of a packet make the packet again, when the table has its protocol. -/
theorem whole_of (h : p.Of l pkt pkt_len) (hw : WholeFrame pkt pkt_len)
    (hproto : l ≠ .l2 → p.first_proto l = some (pkt 23)) : p.whole l = pkt := by
  have hpatch : patch_ipv4 pkt 14 p.ihl (p.whole_len l - 14) = pkt := by
    rw [whole_len_of h, h.ihl, hw.totlen]
    exact patch_ipv4_self (Nat.mod_eq_of_lt (be16_lt pkt 16)) hw.canonical
  have hdata : write pkt (p.cut_off l) (p.plain1 ++ p.plain2) = pkt := by
    rw [h.halves.whole, write_read]
  have hip : write pkt 12 [0x08, 0x00] = pkt := by
    have hread := be16Bytes_eq_read pkt 12 0x0800 hw.ipv4.symm
    rw [show ([0x08, 0x00] : Bytes) = be16Bytes 0x0800 from rfl, hread, write_read]
  have hbyte : write pkt 23 [pkt 23] = pkt := write_read pkt 23 1
  cases l with
  | l2 =>
    unfold Parts.whole
    dsimp only
    rw [h.packet, hip, show write pkt 14 (p.plain1 ++ p.plain2) = pkt from hdata, hpatch]
  | l3 | l4 =>
    unfold Parts.whole
    dsimp only
    rw [h.packet, hproto (by decide), Option.getD_some, hbyte,
      show write pkt (14 + p.ihl) (p.plain1 ++ p.plain2) = pkt from hdata, hpatch]

/-- Only packets of some size are split, so their halves are neither short nor too long for an
entry. -/
structure Sized (p : Parts) : Prop where
  first_ge : 120 ≤ p.plain1.length
  second_ge : 20 ≤ p.plain2.length
  first_le : p.plain1.length ≤ ENTRY_DATA_SIZE
  sum_le : p.plain1.length + p.plain2.length ≤ 1500

theorem sized_of (h : p.Of l pkt pkt_len) (hmin : 1457 < pkt_len) (hmax : pkt_len ≤ 1514) :
    Sized p := by
  have hlen := h.halves.length
  have h1 := h.halves.first_le
  have h2 := h.halves.second_le
  have hE : ENTRY_DATA_SIZE = 1600 := rfl
  have h60 := ihl_le (pkt 14)
  have hihl : p.ihl = (pkt 14).toNat % 16 * 4 := h.ihl
  have hoff : 14 ≤ p.cut_off l ∧ p.cut_off l ≤ 14 + p.ihl := by
    cases l <;> simp only [Parts.cut_off] <;> omega
  constructor <;> omega

theorem Sized.fits (h : Sized p) (l : Layer) : p.Fits l := by
  have h1 := h.first_ge
  have h2 := h.second_ge
  have h3 := h.sum_le
  have hR : REASSEMBLED_SIZE = 4096 := rfl
  cases l <;> simp only [Parts.Fits] <;> omega

end

theorem len_of_need_split {l : Layer} {tls : Tls} {pkt_len : Nat} (hns : tls.nonce_size ≤ 16)
    (h : l.need_split tls pkt_len = true) : 1457 < pkt_len := by
  have ht := tag_overhead_le tls
  have hM : FRAG_MTU = 1500 := rfl
  have hF : FRAG_TAG_SIZE = 4 := rfl
  have hL : L4_WIRE_PORT_LEN = 4 := rfl
  have hT : packet_crypto_get_tunnel_hdr_size tls = tls.nonce_size + 2 := rfl
  cases l with
  | l2 =>
    have h := of_decide_eq_true h
    unfold crypto_layer2_frag_meta_len at h
    omega
  | l3 =>
    have h := of_decide_eq_true h
    unfold crypto_layer3_frag_meta_len at h
    omega
  | l4 =>
    have h := of_decide_eq_true h
    omega

/-! ## The protocol that the table takes -/

/-- A long enough segment passes for TCP when its data offset is five words or more. -/
theorem tcp_hdr_size_isSome_iff {b : Buf} {off n : Nat} (hn : 60 ≤ n) :
    (get_transport_hdr_size b off 6 n).isSome = true ↔ 5 ≤ (b (off + 12)).toNat / 16 := by
  have hbyte := (b (off + 12)).toNat_lt
  unfold get_transport_hdr_size
  rw [if_pos rfl, if_neg (by omega)]
  dsimp only
  split
  · simp only [Option.isSome_none, Bool.false_eq_true, false_iff]
    omega
  · simp only [Option.isSome_some, true_iff]
    omega

theorem data_offset_of_tcp {b : Buf} {off n th : Nat}
    (h : get_transport_hdr_size b off 6 n = some th) : 5 ≤ (b (off + 12)).toNat / 16 := by
  unfold get_transport_hdr_size at h
  rw [if_pos rfl] at h
  split at h
  · simp at h
  dsimp only at h
  split at h
  · simp at h
  · omega

/-- The byte of a frame that layer 3 reads a TCP data offset from. -/
def data_offset_at (pkt : Buf) : Nat := 14 + ip_hdr_len_at pkt 14 + 12

/-- What layer 3 takes a segment for. -/
def guessed_proto (pkt : Buf) : UInt8 := if 5 ≤ (pkt (data_offset_at pkt)).toNat / 16 then 6 else 17

section

variable {p : Parts} {pkt : Buf} {pkt_len : Nat}

theorem getD_plain1 {l : Layer} (h : p.Of l pkt pkt_len) {i : Nat} (hi : i < p.plain1.length) :
    p.plain1.getD i 0 = pkt (p.cut_off l + i) := by
  have hget := getD_read pkt (p.cut_off l) p.plain1.length i hi
  rw [← h.halves.eq_read.1] at hget
  exact hget

theorem first_proto_l2 (h : p.Of .l2 pkt pkt_len) (hw : WholeFrame pkt pkt_len) (hwf : p.Wf .l2)
    (hs : Sized p) : p.first_proto .l2 ≠ none := by
  have h120 := hs.first_ge
  have h20 := hwf.ihl_ge
  have h60 := ihl_le (pkt 14)
  have hihl : p.ihl = (pkt 14).toNat % 16 * 4 := h.ihl
  have h0 : p.plain1.getD 0 0 = pkt 14 := getD_plain1 h (by omega)
  have hver := hw.version
  unfold Parts.first_proto
  dsimp only
  rw [h0, if_neg (by omega)]
  exact nofun

theorem first_proto_l3 (h : p.Of .l3 pkt pkt_len) (hs : Sized p) :
    p.first_proto .l3 = some (guessed_proto pkt) := by
  have h120 := hs.first_ge
  have hat : ofBytes p.plain1 (0 + 12) = pkt (data_offset_at pkt) := by
    have hget := getD_plain1 h (show 12 < p.plain1.length by omega)
    rw [show p.cut_off .l3 = 14 + p.ihl from rfl, h.ihl] at hget
    exact hget
  have htcp : (get_transport_hdr_size (ofBytes p.plain1) 0 6 p.plain1.length).isSome = true ↔ _ :=
    tcp_hdr_size_isSome_iff (by omega)
  have hudp : (get_transport_hdr_size (ofBytes p.plain1) 0 17 p.plain1.length).isSome = true := by
    unfold get_transport_hdr_size
    rw [if_neg (by decide), if_pos rfl, if_neg (by omega)]
    rfl
  rw [hat] at htcp
  unfold Parts.first_proto guessed_proto
  dsimp only
  rw [hudp, if_pos rfl]
  by_cases h5 : 5 ≤ (pkt (data_offset_at pkt)).toNat / 16
  · rw [if_pos (htcp.mpr h5), if_pos h5]
  · rw [if_neg (fun hsome => h5 (htcp.mp hsome)), if_neg h5]

end

/-! ## A datagram of 1500 bytes -/

/-- A keystream from rows of 46 bytes. -/
def rowStream (rows : List Nat) (i : Nat) : UInt8 :=
  UInt8.ofNat (rows.getD (i / 46) 0 / 256 ^ (45 - i % 46))

/-- AES-128-CTR under the key that `masterDigest` starts with, for the nonces 0 and 1. -/
def ctrRows0 : List Nat :=
  [0x751104bf5fd1d4159f22e71d035be78aa8ef65b57dade8ce139c313a57a173614b970882330342fa71ce16b17cd0,
    0x39415fe64f433d0e9c7bc2c6356748743cce02ddb8b0b28c6cede99f1d0b42393958df03dc4bfe0c9fd3a46b5d31,
    0x78aa2c6c0a6752cd61a262c29ec785da0e8feb15bd2a7fc1732a60621cf22f82e2b4a3ec56fbc0206264833fe13b,
    0x0ec5223d7f896fca2572a7e12be602f007a6771b8dffa2e90053279ab13dda29724330be343beb620d82f3ef043a,
    0x2737159e49d710adea70f4e94cec45b677b4a22bd9f78c7d065a7785dcc948fcfa80de933ecb819d8c43378fa623,
    0x894fb2c3b18a1eed921548b9338ea38cec443db0f1db9d30eb78eee7d8ec5ea22d536a143dc7045cdec357fd44cd,
    0x7b7451fa66ea4f08ffd7fe6a64a0bb5404422308601213b1e6a5dc222e10c407ea9c237790535b61cd614f3b216d,
    0xfedc967100a1273ed435a2640c4371fedb0b524a14a50d908b4359d91e64ffd797a8e8987b1071f206355e42198f,
    0xb8e48e40c268cc9d87c1bd8b9862e07bd892e08d2d493f89eef8e898b1493991aafb95f903cd8a7bbbcea95d398a,
    0x2a29de0c0fe334404e0fabc810ed1ab9c475b4becb4233b0a967705a910607d530c8a5d467018eaf7d958e5d1f0c,
    0xf301f5d3243e54776a2761c7e1fad859990f1fc2bdccfe1205538ba3afe557e4baf60bc42d5aa304326e73fe12a7,
    0xdfa177203f48b09a364b935ca9bfcbf21e618d3c9f9e8e11ae610cbcae927c24a340127a2c1d3beddaacfc4a9fb4,
    0x997fc4433772dc1974a955fed412496e2b8838d17e75cbcc22febc2265742b8b189b5276ed6f4f288d4874cb6151,
    0xb7ed93283fcb6373a5735e5e97c82a32b9e2fcbc8df1c3ebc8ee0b6b6a6a0df8cfbcaa3f271274159de30f32b85e,
    0x6d0631471803dd7cc2a3b3b127fddf4412ce4c2b91050543bba633ca507870c060847d0b6c7275886c5bb83efd41,
    0xcedbb04e09c4ff21b317a3172973b95fecd1348fbbd58bea875081c482100d5e769e94e25385d0bc5cb4518b399d,
    0xe084a3e6197e86148f74b56d295a271f77d5fd6afb2bde5cf5e86f3dcfc0a4ffada8248d8e2597b31e2b35291151]

def ctrRows1 : List Nat :=
  [0x53f5455195adf9f711ce3af8c4dac3a09dbe09920588eafc90ce466bfff5621282b04dc8ba839aab655f69b47195,
    0x40a3829859d7a21530dd551b372ece5f5bb9f295aaebeca2e0ed84a48da7ca92d0fa9473ad4564351f1872c87402,
    0x617196ee3a9de8089459aa14c286ecf3b698156d0a2c69067f915aa1495d37044c293f7f338499c58b78e0f887d6,
    0xed57802053eec7dfac997c8e0d45918a87b209962ab189df07e4885a8bcf701b1e118a9a6e7d8cfe815f04b0dd9f,
    0x377f4f225bf31430ddd423179b034851ba1464b0a36a202507f7248ab59ecfc3e870c23a2288c30ac0d41ce38419,
    0x11fbacab51ba9a2d693d07acb1be34f49e952ccea8519897e2183f4526812b715040a532b2826e927d36902f543c,
    0x81633f7b946455308c4bf2775ff8e28c0b8ba66659332411d215027a53ff50425c4060d743471e554fa6bbba43dc,
    0x7876fad4924ccecd8350beb936a6f9866f3a30c92e0ef107913af2571e1779d4b5ddde79d485c22f7b1440b13711,
    0xbb5f0462c75c67d76980ca896d543d6849a57c337d1d038e00061f2ea64c00b5c48752b095dd583ba752b5ce6c33,
    0x73f4f72e0a5ebaa346274d39c407a91a90099089cbb12691570c4ec357c4e6c034edf7a67930404fb112eaa5f5be,
    0xe8fa15b579f8b23d3eb7438c6aed163ec09c6957198b02fd9903de4f5281a17de0c894706210cca1d1d0b1e7630c,
    0xff6b2e2840b59e027014f7c4d0710669c2496829db4b69c3da3f83cd0110414b848dc748f55f8a1923783dee69ec,
    0x52ea3cc566348bcb622c11a483a2718570397f42dc95221b7ea35fa2e873c3d4f37f0b6ac2a6de46eff1c233fae8,
    0xc4fb3f5c7b94b4735365ad4cc92935717a9e3cd8b2fe697b92d26b50ef9ce6c20ce75bc21f6049be5fb9a6bef552,
    0xe3f46f31d177228b47b3cd341e5052de5270aa6d84b12c98e9aaa77467810ace0f870c01f763ebc4809c8d942ba8,
    0x2b147ed48a07ef9248f8b66c53d768ddc7e203072bd710a2b2f8e79db0cf924483ba2d9b6f3531b2614d5320a78f,
    0x5a6a33fb0abb525618efa136dd99fb85944f50d9f98ab84f0049cd3059b165b902623b569c70bc314c322055e9d6]

/-- The tags of the two halves of `gcmDatagram`, and what AES-256 would make of them. -/
def halfTag (key nonce : Bytes) : Vector UInt8 16 :=
  if key = masterDigest.toList.take 16 then
    if nonce = nonce0 then
      #v[0x12, 0xec, 0x7c, 0xf0, 0x91, 0x4f, 0x8d, 0xdf, 0x0c, 0xd9, 0xc2, 0x32, 0x43, 0xdf, 0xc7, 0xba]
    else
      #v[0x3a, 0x56, 0xd9, 0xf0, 0xd9, 0xe1, 0x4e, 0x4a, 0xbe, 0x50, 0x8e, 0xa5, 0x71, 0x2c, 0x0e, 0x5d]
  else if nonce = nonce0 then
    #v[0x6c, 0xb0, 0x60, 0x97, 0x56, 0x2e, 0x3f, 0x18, 0x85, 0xd2, 0xa6, 0x1b, 0xc0, 0x47, 0x8b, 0x02]
  else
    #v[0x3a, 0x6a, 0x78, 0xb1, 0x2e, 0xc8, 0xf4, 0xdc, 0x2d, 0x25, 0xdd, 0x6e, 0x78, 0xeb, 0xc0, 0x32]

/-- OpenSSL as far as two halves use it. GCM starts with the third block of CTR. -/
def longOpenssl : Openssl :=
  { sampleOpenssl with
    ctr := fun key iv =>
      xorStream
        (if key = masterDigest.toList.take 16 ∧ iv = crypto_nonce_to_iv nonce0 then rowStream ctrRows0
        else if key = masterDigest.toList.take 16 ∧ iv = crypto_nonce_to_iv nonce1 then
          rowStream ctrRows1
        else fun _ => 0) 0
    gcm := fun key nonce =>
      xorStream
        (if key = masterDigest.toList.take 16 ∧ nonce = nonce0 then rowStream ctrRows0
        else if key = masterDigest.toList.take 16 ∧ nonce = nonce1 then rowStream ctrRows1
        else fun _ => 0) 32
    gcm_tag := fun key nonce _ => (halfTag key nonce).toList }

theorem longOpenssl_lawful : longOpenssl.Lawful :=
  { sampleOpenssl_lawful with
    length_ctr := fun _ _ _ => length_xorStream _ _ _
    ctr_ctr := fun _ _ _ => xorStream_xorStream _ _ _
    length_gcm := fun _ _ _ => length_xorStream _ _ _
    gcm_gcm := fun _ _ _ => xorStream_xorStream _ _ _
    length_gcm_tag := fun _ _ _ => Vector.length_toList }

/-- A UDP datagram from 10.0.0.1 port 40000 to 10.0.1.2 port 53, without a checksum, whose data
is one byte again and again. -/
def longDatagram (fill : UInt8) : Bytes :=
  [0x02, 0x00, 0x00, 0x00, 0x00, 0x02, 0x02, 0x00, 0x00, 0x00, 0x00, 0x01, 0x08, 0x00,
    0x45, 0x00, 0x05, 0xce, 0x00, 0x01, 0x40, 0x00, 0x40, 0x11, 0x20, 0x1c, 0x0a, 0x00, 0x00, 0x01,
    0x0a, 0x00, 0x01, 0x02,
    0x9c, 0x40, 0x00, 0x35, 0x05, 0xba, 0x00, 0x00] ++ List.replicate 1458 fill

def longSent (l : Layer) (fill : UInt8) : Sent :=
  { longPing 1500 with
    layer := l
    ctx := init_ctx longOpenssl 128 masterKey.toList
    pkt := ofBytes (longDatagram fill) }

def callAt (now : Nat) : Call where
  tls := {}
  ctx := init_ctx longOpenssl 128 masterKey.toList
  now := now
  out_buf := fun _ => 0

theorem longSent_inTime (l : Layer) (fill : UInt8) :
    InTime (longSent l fill) (callAt 3) (callAt 5) :=
  ⟨⟨⟨⟨rfl, rfl⟩, rfl, rfl, rfl, rfl⟩, rfl⟩, ⟨⟨⟨rfl, rfl⟩, rfl, rfl, rfl, rfl⟩, rfl⟩, by decide,
    by decide⟩

theorem longSent_keys (l : Layer) (fill : UInt8) :
    (callAt 3).HasKey (longSent l fill) ∧ (callAt 5).HasKey (longSent l fill) :=
  ⟨SameKey.of_same_sides rfl _, SameKey.of_same_sides rfl _⟩

theorem refused_of_keys {o : Openssl} {fake : Nat} {m : Sent} {f : Frames} {first second : Call}
    (h : first.HasKey m ∧ second.HasKey m) : RefusedUnderOthers o fake m f first second :=
  ⟨fun hk => absurd h.1 hk, fun hk => absurd h.2 hk⟩

/-- The two fragments of a datagram of letters or of blanks. -/
theorem longSent_frames : ∀ l, ∀ fill ∈ ([0x61, 0x20] : Bytes),
    ((longSent l fill).frames longOpenssl 0x88b5 0).1.isSome = true ∧
      WholeFrame (longSent l fill).pkt (longSent l fill).pkt_len := by
  intro l
  cases l <;> decide +kernel

/-- A datagram like it with 1438 letters. -/
def gcmDatagram : Bytes :=
  [0x02, 0x00, 0x00, 0x00, 0x00, 0x02, 0x02, 0x00, 0x00, 0x00, 0x00, 0x01, 0x08, 0x00,
    0x45, 0x00, 0x05, 0xba, 0x00, 0x01, 0x40, 0x00, 0x40, 0x11, 0x20, 0x30, 0x0a, 0x00, 0x00, 0x01,
    0x0a, 0x00, 0x01, 0x02,
    0x9c, 0x40, 0x00, 0x35, 0x05, 0xa6, 0x00, 0x00] ++ List.replicate 1438 0x61

/-- It is sent in GCM mode, with AES-128. -/
def gcmSent : Sent :=
  { longSent .l2 0x61 with
    tls := { crypto_mode := .gcm }
    pkt := ofBytes gcmDatagram
    pkt_len := 1480 }

/-- A call whose thread has this context for its decryptions. -/
def gcmCallAt (now : Nat) (s : GcmSide) : Call :=
  { callAt now with tls := { crypto_mode := .gcm, gcm_dec := fun _ _ _ => s } }

/-- The context after a packet of a policy with 256 bits, whose key starts with the 16 bytes that
the key for 128 bits has. -/
def wideSide : GcmSide := GcmSide.set_up {} masterDigest.toList 12

theorem gcmSent_inTime (s : GcmSide) : InTime gcmSent (gcmCallAt 3 s) (gcmCallAt 5 s) :=
  ⟨⟨⟨⟨rfl, rfl⟩, rfl, rfl, rfl, rfl⟩, rfl⟩, ⟨⟨⟨rfl, rfl⟩, rfl, rfl, rfl, rfl⟩, rfl⟩,
    show 3 ≤ 5 by decide, show 5 ≤ 3 + FRAG_TIMEOUT_NS by decide⟩

theorem gcmSent_frames : (gcmSent.frames longOpenssl 0x88b5 0).1.isSome = true ∧
    WholeFrame gcmSent.pkt gcmSent.pkt_len := by
  decide +kernel

/-! ## What comes out -/

section

variable {o : Openssl} {fake pkt_id_counter : Nat} {m : Sent} {f : Frames} {first second : Call}

/-- The halves that the two fragments of a packet of one frame hold. -/
theorem halves_of_frames (ho : o.Lawful) (h4 : 4 ≤ m.tls.nonce_size) (h16 : m.tls.nonce_size ≤ 16)
    (hw : WholeFrame m.pkt m.pkt_len) (hf : (m.frames o fake pkt_id_counter).1 = some f) :
    ∃ p : Parts, SplitsInto o fake m.layer m f p ∧ p.Of m.layer m.pkt m.pkt_len ∧ Sized p := by
  have hneed : m.layer.need_split m.tls m.pkt_len = true := by
    unfold Sent.frames at hf
    split at hf
    · assumption
    · simp at hf
  have hmin := len_of_need_split h16 hneed
  have h60 := ihl_le (m.pkt 14)
  obtain ⟨p, -, hsplit, hof⟩ := splits_into ho h4 h16 hf
  have hof := hof (by unfold ip_hdr_len_at; omega)
  exact ⟨p, hsplit, hof, sized_of hof hmin hw.len⟩

/-- A call without the key of the packet makes nothing of a fragment. -/
theorem receive_without_key {c : Call} (hs : SameParameters m.tls m.ctx c.tls c.ctx)
    (hk : ¬ c.HasKey m) {g : Buf × Nat} (hlost : LostWhenRefused o fake m.layer m g)
    (hw : Refuses (opener m.layer) o fake c.tls c.ctx g.1 g.2) (ft : FragTable) :
    c.receive o fake m.layer g ft = (.failed, ft) :=
  receive_refused (hlost c.tls c.ctx hs.toSameSettings (hs.gcm_of_not_sameKey hk) hw) _ _ _

/-- So a packet only comes back to calls that have its key. -/
theorem GivesBack.keys {ft : FragTable} (h : GivesBack o fake m f first second ft)
    (ht : InTime m first second) (hw : RefusedUnderOthers o fake m f first second) {p : Parts}
    (hsplit : SplitsInto o fake m.layer m f p) (hs : Sized p) : first.HasKey m ∧ second.HasKey m := by
  have h1 := hs.first_ge
  have h2 := hs.second_ge
  obtain ⟨ft1, out, ft2, hr1, hr2, -⟩ := h
  constructor
  · by_contra hk
    rw [receive_without_key ht.same_first hk (hsplit.first_lost (by omega)) (hw.first hk)] at hr1
    simp at hr1
  · by_contra hk
    rw [receive_without_key ht.same_second hk (hsplit.second_lost (by omega)) (hw.second hk)] at hr2
    simp at hr2

/-- A first half that the table takes waits, and the second one completes it. -/
theorem joined_in_time {p : Parts} (hsplit : SplitsInto o fake m.layer m f p)
    (hof : p.Of m.layer m.pkt m.pkt_len) (hs : Sized p) (hproto : p.first_proto m.layer ≠ none)
    (ht : InTime m first second) (hk : first.HasKey m ∧ second.HasKey m) (ft : FragTable) :
    ∃ ft1 out ft2, first.receive o fake m.layer f.1 ft = (.pending, ft1) ∧
      second.receive o fake m.layer f.2 ft1 = (.packet out m.pkt_len, ft2) ∧
      ∀ i, i < m.pkt_len → out i = p.whole m.layer i := by
  have hjoin := receive_in_time hsplit hproto hs.first_le (hs.fits m.layer)
    ⟨ht.same_first.toSameSettings, hk.1⟩ ⟨ht.same_second.toSameSettings, hk.2⟩ ht.order ht.timeout ft
    first.out_buf second.out_buf
  rw [whole_len_of hof] at hjoin
  exact hjoin

/-- Layers 2 and 4 give a packet back, whatever the table held, exactly when both calls run AES
under its key. -/
theorem layers_2_and_4_give_a_split_packet_back_iff_both_calls_have_its_key (ho : o.Lawful)
    (hl : m.layer = .l2 ∨ m.layer = .l4) (h4 : 4 ≤ m.tls.nonce_size) (h16 : m.tls.nonce_size ≤ 16)
    (hw : WholeFrame m.pkt m.pkt_len) (hf : (m.frames o fake pkt_id_counter).1 = some f)
    (ht : InTime m first second) (hwrong : RefusedUnderOthers o fake m f first second)
    (ft : FragTable) :
    GivesBack o fake m f first second ft ↔ first.HasKey m ∧ second.HasKey m := by
  obtain ⟨p, hsplit, hof, hs⟩ := halves_of_frames ho h4 h16 hw hf
  refine ⟨fun hback => hback.keys ht hwrong hsplit hs, fun hk => ?_⟩
  have hproto : p.first_proto m.layer ≠ none ∧
      (m.layer ≠ .l2 → p.first_proto m.layer = some (m.pkt 23)) := by
    rcases hl with hl | hl
    · rw [hl] at hof hsplit ⊢
      exact ⟨first_proto_l2 hof hw hsplit.wf hs, fun hne => absurd rfl hne⟩
    · rw [hl] at hof ⊢
      refine ⟨nofun, fun _ => ?_⟩
      rw [← hof.packet]
      rfl
  obtain ⟨ft1, out, ft2, hr1, hr2, hout⟩ := joined_in_time hsplit hof hs hproto.1 ht hk ft
  refine ⟨ft1, out, ft2, hr1, hr2, fun i hi => ?_⟩
  rw [hout i hi, whole_of hof hw hproto.2]

theorem layer_2_gives_a_datagram_of_letters_back :
    ∃ f, (gcmSent.frames longOpenssl 0x88b5 0).1 = some f ∧
      GivesBack longOpenssl 0x88b5 gcmSent f (gcmCallAt 3 {}) (gcmCallAt 5 {}) frag_table_init := by
  obtain ⟨hsome, hw⟩ := gcmSent_frames
  obtain ⟨f, hf⟩ := Option.isSome_iff_exists.mp hsome
  have hk : (gcmCallAt 3 {}).HasKey gcmSent ∧ (gcmCallAt 5 {}).HasKey gcmSent :=
    ⟨SameKey.of_same_sides rfl _, SameKey.of_same_sides rfl _⟩
  exact ⟨f, hf, (layers_2_and_4_give_a_split_packet_back_iff_both_calls_have_its_key
    longOpenssl_lawful (Or.inl rfl) (by decide) (by decide) hw hf (gcmSent_inTime {})
    (refused_of_keys hk) frag_table_init).mpr hk⟩

/-- A thread that has decrypted a packet of a policy with 256 bits of the same configured key runs
AES-256 for this one too. -/
theorem layer_2_refuses_a_datagram_after_one_under_256_bits :
    longOpenssl.Lawful ∧ WholeFrame gcmSent.pkt gcmSent.pkt_len ∧
    InTime gcmSent (gcmCallAt 3 wideSide) (gcmCallAt 5 wideSide) ∧
    ∃ f, (gcmSent.frames longOpenssl 0x88b5 0).1 = some f ∧
      (gcmCallAt 3 wideSide).receive longOpenssl 0x88b5 .l2 f.1 frag_table_init =
        (.failed, frag_table_init) ∧
      (gcmCallAt 5 wideSide).receive longOpenssl 0x88b5 .l2 f.2 frag_table_init =
        (.failed, frag_table_init) ∧
      ¬ GivesBack longOpenssl 0x88b5 gcmSent f (gcmCallAt 3 wideSide) (gcmCallAt 5 wideSide)
        frag_table_init := by
  have h1 : (gcmCallAt 3 wideSide).receive longOpenssl 0x88b5 .l2
      ((gcmSent.frames longOpenssl 0x88b5 0).1.get gcmSent_frames.1).1 frag_table_init =
      (.failed, frag_table_init) := receive_refused (by decide +kernel) _ _ _
  have h2 : (gcmCallAt 5 wideSide).receive longOpenssl 0x88b5 .l2
      ((gcmSent.frames longOpenssl 0x88b5 0).1.get gcmSent_frames.1).2 frag_table_init =
      (.failed, frag_table_init) := receive_refused (by decide +kernel) _ _ _
  refine ⟨longOpenssl_lawful, gcmSent_frames.2, gcmSent_inTime wideSide, _,
    (Option.some_get gcmSent_frames.1).symm, h1, h2, ?_⟩
  rintro ⟨ft1, out, ft2, hr1, -⟩
  rw [show gcmSent.layer = .l2 from rfl, h1] at hr1
  simp at hr1

/-- Layer 3 writes the guessed protocol. -/
theorem proto_of_joined {p : Parts} (hwf : p.Wf .l3) (hof : p.Of .l3 m.pkt m.pkt_len)
    (hs : Sized p) : p.whole .l3 23 = guessed_proto m.pkt := by
  have h20 := hwf.ihl_ge
  unfold Parts.whole
  dsimp only
  rw [first_proto_l3 hof hs, Option.getD_some, patch_ipv4_out _ _ _ _ 23 (by omega) (by omega),
    write_out _ _ _ _ (by omega), write_head]

/-- Layer 3 splits TCP and UDP, and a TCP header has a data offset of five words or more. -/
theorem split_segment (ho : o.Lawful) (hl : m.layer = .l3) (h4 : 4 ≤ m.tls.nonce_size)
    (hf : (m.frames o fake pkt_id_counter).1 = some f) :
    (m.pkt 23 = 6 ∧ 5 ≤ (m.pkt (data_offset_at m.pkt)).toNat / 16) ∨ m.pkt 23 = 17 := by
  unfold Sent.frames Sent.split at hf
  split at hf
  swap
  · simp at hf
  rw [hl] at hf
  obtain ⟨f1, f2⟩ := f
  obtain ⟨ihl, plain1, plain2, c, hs, -, -, -, hlen, h8, -⟩ := frag_split_and_encrypt_some ho h4 hf
  rcases hs.proto with h6 | h17
  swap
  · exact Or.inr h17
  refine Or.inl ⟨h6, ?_⟩
  rw [hlen] at h8
  unfold first_half_len at h8
  dsimp only at h8
  rw [show m.pkt (14 + 9) = 6 from h6] at h8
  split at h8
  · rename_i th hth
    exact data_offset_of_tcp hth
  · omega

/-- What layer 3 puts together has the guessed protocol, and nothing else may differ. -/
theorem joined_l3 (ho : o.Lawful) (hl : m.layer = .l3) (h4 : 4 ≤ m.tls.nonce_size)
    (h16 : m.tls.nonce_size ≤ 16) (hw : WholeFrame m.pkt m.pkt_len)
    (hf : (m.frames o fake pkt_id_counter).1 = some f) (ht : InTime m first second)
    (hk : first.HasKey m ∧ second.HasKey m) (ft : FragTable) :
    23 < m.pkt_len ∧
    ∃ ft1 out ft2, first.receive o fake m.layer f.1 ft = (.pending, ft1) ∧
      second.receive o fake m.layer f.2 ft1 = (.packet out m.pkt_len, ft2) ∧
      out 23 = guessed_proto m.pkt ∧
      (guessed_proto m.pkt = m.pkt 23 → ∀ i, i < m.pkt_len → out i = m.pkt i) := by
  obtain ⟨p, hsplit, hof, hs⟩ := halves_of_frames ho h4 h16 hw hf
  have hguess : p.first_proto m.layer = some (guessed_proto m.pkt) := by
    rw [hl] at hof ⊢
    exact first_proto_l3 hof hs
  have hwritten : p.whole m.layer 23 = guessed_proto m.pkt := by
    rw [hl] at hof hsplit ⊢
    exact proto_of_joined hsplit.wf hof hs
  have h23 : 23 < m.pkt_len := by
    have hlen := hof.halves.length
    have h120 := hs.first_ge
    omega
  obtain ⟨ft1, out, ft2, hr1, hr2, hout⟩ :=
    joined_in_time hsplit hof hs (by rw [hguess]; exact nofun) ht hk ft
  refine ⟨h23, ft1, out, ft2, hr1, hr2, (hout 23 h23).trans hwritten, ?_⟩
  intro hsame i hi
  rw [hout i hi, whole_of hof hw fun _ => by rw [hguess, hsame]]

/-- Layer 3 gives a packet back exactly when both calls run AES under its key and it is a TCP
segment, or a UDP datagram that does not pass for one: the upper half of the fifth byte of its data
is less than five. -/
theorem layer_3_gives_a_split_packet_back_iff_it_does_not_take_udp_for_tcp (ho : o.Lawful)
    (hl : m.layer = .l3) (h4 : 4 ≤ m.tls.nonce_size) (h16 : m.tls.nonce_size ≤ 16)
    (hw : WholeFrame m.pkt m.pkt_len) (hf : (m.frames o fake pkt_id_counter).1 = some f)
    (ht : InTime m first second) (hwrong : RefusedUnderOthers o fake m f first second)
    (ft : FragTable) :
    GivesBack o fake m f first second ft ↔ (first.HasKey m ∧ second.HasKey m) ∧
      (m.pkt 23 = 17 → (m.pkt (data_offset_at m.pkt)).toNat / 16 < 5) := by
  obtain ⟨p, hsplit, -, hs⟩ := halves_of_frames ho h4 h16 hw hf
  have hproto := split_segment ho hl h4 hf
  by_cases hk : first.HasKey m ∧ second.HasKey m
  swap
  · exact iff_of_false (fun hback => hk (hback.keys ht hwrong hsplit hs)) fun h => hk h.1
  rw [and_iff_right hk]
  obtain ⟨h23, ft1, out, ft2, hr1, hr2, hguess, hsame⟩ := joined_l3 ho hl h4 h16 hw hf ht hk ft
  constructor
  · rintro ⟨ft1', out', ft2', hr1', hr2', hback⟩ h17
    obtain rfl := (Prod.mk.inj (hr1.symm.trans hr1')).2
    obtain ⟨rfl, -⟩ := Reassembled.packet.inj (Prod.mk.inj (hr2.symm.trans hr2')).1
    rw [hback 23 h23, h17] at hguess
    unfold guessed_proto at hguess
    split at hguess
    · exact absurd hguess (by decide)
    · omega
  · intro hsmall
    refine ⟨ft1, out, ft2, hr1, hr2, hsame ?_⟩
    unfold guessed_proto
    rcases hproto with ⟨h6, h5⟩ | h17
    · rw [if_pos h5, h6]
    · have := hsmall h17
      rw [if_neg (by omega), h17]

theorem layer_3_gives_a_datagram_of_blanks_back :
    ∃ f, ((longSent .l3 0x20).frames longOpenssl 0x88b5 0).1 = some f ∧
      GivesBack longOpenssl 0x88b5 (longSent .l3 0x20) f (callAt 3) (callAt 5) frag_table_init := by
  obtain ⟨hsome, hw⟩ := longSent_frames .l3 0x20 (by decide)
  obtain ⟨f, hf⟩ := Option.isSome_iff_exists.mp hsome
  exact ⟨f, hf, (layer_3_gives_a_split_packet_back_iff_it_does_not_take_udp_for_tcp
    longOpenssl_lawful rfl (by decide) (by decide) hw hf (longSent_inTime .l3 0x20)
    (refused_of_keys (longSent_keys .l3 0x20)) frag_table_init).mpr
    ⟨longSent_keys .l3 0x20, fun _ => by decide +kernel⟩⟩

/-- A data offset of six words, where the datagram has the fifth of its letters. -/
theorem layer_3_gives_a_datagram_of_letters_back_as_tcp :
    longOpenssl.Lawful ∧ WholeFrame (longSent .l3 0x61).pkt (longSent .l3 0x61).pkt_len ∧
    InTime (longSent .l3 0x61) (callAt 3) (callAt 5) ∧
    ((callAt 3).HasKey (longSent .l3 0x61) ∧ (callAt 5).HasKey (longSent .l3 0x61)) ∧
    (longSent .l3 0x61).pkt 23 = 17 ∧
    ∃ f ft1 out ft2, ((longSent .l3 0x61).frames longOpenssl 0x88b5 0).1 = some f ∧
      (callAt 3).receive longOpenssl 0x88b5 .l3 f.1 frag_table_init = (.pending, ft1) ∧
      (callAt 5).receive longOpenssl 0x88b5 .l3 f.2 ft1 = (.packet out 1500, ft2) ∧ out 23 = 6 ∧
      ¬ GivesBack longOpenssl 0x88b5 (longSent .l3 0x61) f (callAt 3) (callAt 5) frag_table_init := by
  obtain ⟨hsome, hw⟩ := longSent_frames .l3 0x61 (by decide)
  obtain ⟨f, hf⟩ := Option.isSome_iff_exists.mp hsome
  obtain ⟨h23, ft1, out, ft2, hr1, hr2, hguess, -⟩ := joined_l3 longOpenssl_lawful rfl (by decide)
    (by decide) hw hf (longSent_inTime .l3 0x61) (longSent_keys .l3 0x61) frag_table_init
  have h6 : out 23 = 6 := hguess.trans (by decide +kernel)
  have h17 : (longSent .l3 0x61).pkt 23 = 17 := by decide +kernel
  refine ⟨longOpenssl_lawful, hw, longSent_inTime .l3 0x61, longSent_keys .l3 0x61, h17, f, ft1, out,
    ft2, hf, hr1, hr2, h6, ?_⟩
  rintro ⟨ft1', out', ft2', hr1', hr2', hback⟩
  obtain rfl := (Prod.mk.inj (hr1.symm.trans hr1')).2
  obtain ⟨rfl, -⟩ := Reassembled.packet.inj (Prod.mk.inj (hr2.symm.trans hr2')).1
  rw [hback 23 h23, h17] at h6
  exact absurd h6 (by decide)

end

end ne_ip.split_round_trip
