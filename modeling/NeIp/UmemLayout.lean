-- The UMEM of an interface (interface.c) under a configuration that `config_validate` accepts:
-- the frames of the fill ring, and the buffers that packets are sent from.
import NeIp.Config
import NeIp.TxRing

open ne_ip.config

namespace ne_ip.umem_layout

/-- What an entry of the configuration says of the UMEM of its interface. -/
structure UmemConfig where
  ring_size : UInt32
  frame_size : UInt32
  umem_mb : UInt32
  deriving DecidableEq, Repr

/-! ## What `config_validate` accepts -/

def UmemConfig.lan (u : UmemConfig) (l : LocalConfig) : LocalConfig :=
  { l with
    ring_size := u.ring_size.toNat
    frame_size := u.frame_size.toNat
    umem_mb := u.umem_mb.toNat }

def UmemConfig.wan (u : UmemConfig) (w : WanConfig) : WanConfig :=
  { w with
    ring_size := u.ring_size.toNat
    frame_size := u.frame_size.toNat
    umem_mb := u.umem_mb.toNat }

/-- A LAN or a WAN entry of an accepted configuration has these values. -/
def Accepted (u : UmemConfig) : Prop :=
  ∃ cfg : AppConfig, config_validate cfg = true ∧
    ((∃ l, u.lan l ∈ cfg.locals) ∨ ∃ w, u.wan w ∈ cfg.wans)

/-- `min_umem_mb`, in 32 bits. -/
def min_umem_mb (u : UmemConfig) : UInt32 := u.ring_size * 2 * u.frame_size / (1024 * 1024)

theorem toNat_min_umem_mb (u : UmemConfig) :
    (min_umem_mb u).toNat =
      u.ring_size.toNat * 2 * u.frame_size.toNat % 2 ^ 32 / (1024 * 1024) := by
  unfold min_umem_mb
  rw [UInt32.toNat_div, UInt32.toNat_mul, UInt32.toNat_mul]
  simp

/-- What is checked of the three values. -/
structure Checked (u : UmemConfig) : Prop where
  umem_mb : u.umem_mb ≠ 0
  ring_size : u.ring_size ≠ 0
  min_umem_mb : min_umem_mb u ≤ u.umem_mb

theorem checked_of_toNat {u : UmemConfig} (humem : u.umem_mb.toNat ≠ 0)
    (hring : u.ring_size.toNat ≠ 0)
    (hmin : u.ring_size.toNat * 2 * u.frame_size.toNat % 2 ^ 32 / (1024 * 1024) ≤
      u.umem_mb.toNat) : Checked u := by
  refine ⟨fun h0 => humem (by rw [h0]; rfl), fun h0 => hring (by rw [h0]; rfl), ?_⟩
  rw [UInt32.le_iff_toNat_le, toNat_min_umem_mb]
  exact hmin

theorem Accepted.checked {u : UmemConfig} (h : Accepted u) : Checked u := by
  obtain ⟨cfg, hcfg, hentry⟩ := h
  unfold config_validate at hcfg
  simp only [Bool.and_eq_true, List.all_eq_true] at hcfg
  obtain ⟨⟨-, hlocals⟩, hwans⟩ := hcfg
  obtain ⟨l, hl⟩ | ⟨w, hw⟩ := hentry
  · have hok := hlocals _ hl
    unfold local_ok UmemConfig.lan at hok
    simp only [Bool.and_eq_true, bne_iff_ne, decide_eq_true_eq] at hok
    obtain ⟨⟨⟨-, humem⟩, hring⟩, hmin⟩ := hok
    exact checked_of_toNat humem hring hmin
  · have hok := hwans _ hw
    unfold wan_ok UmemConfig.wan at hok
    simp only [Bool.and_eq_true, bne_iff_ne, decide_eq_true_eq] at hok
    obtain ⟨⟨⟨⟨-, humem⟩, hring⟩, -⟩, hmin⟩ := hok
    exact checked_of_toNat humem hring hmin

theorem accepted_of_lan (u : UmemConfig) (h : local_ok (u.lan { ifname := [101] }) = true) :
    Accepted u := by
  refine ⟨{ locals := [u.lan { ifname := [101] }], locals_le := by simp [MAX_INTERFACES] }, ?_,
    .inl ⟨_, List.mem_singleton_self _⟩⟩
  unfold config_validate
  simp [h]

/-! ## The addresses -/

/-- `local_umem_size` and `wan_umem_size`. -/
def umem_size (u : UmemConfig) : UInt64 := u.umem_mb.toUInt64 * 1024 * 1024

/-- How many frames `interface_init_local` and `interface_init_wan_rx` put on the fill ring. An
empty ring gives all its entries; as an `int` the number is negative from 2^31 on. -/
def fill_count (u : UmemConfig) : Nat := u.ring_size.toInt32.toInt.toNat

/-- `i * local_cfg->frame_size`, a product of 32 bits that is stored in 64. -/
def rx_addr (u : UmemConfig) (i : UInt32) : UInt64 := (i * u.frame_size).toUInt64

def frame_count (u : UmemConfig) : UInt32 := (umem_size u / u.frame_size.toUInt64).toUInt32

/-- The buffer that `interface_send_batch_queue` takes; a half of no frames divides by zero. -/
def tx_addr (u : UmemConfig) (tx_slot : UInt64) : Option UInt64 :=
  let half := (frame_count u / 2).toUInt64
  if half = 0 then none else some ((tx_slot % half + half) * u.frame_size.toUInt64)

/-- The frame at an address ends within the UMEM. -/
def Inside (u : UmemConfig) (addr : UInt64) : Prop :=
  addr.toNat + u.frame_size.toNat ≤ u.umem_mb.toNat * 2 ^ 20

/-- The frames at two addresses have no byte in common. -/
def Apart (u : UmemConfig) (a b : UInt64) : Prop :=
  a.toNat + u.frame_size.toNat ≤ b.toNat ∨ b.toNat + u.frame_size.toNat ≤ a.toNat

/-- Every frame that is received into or sent from lies in the UMEM, and a packet is never sent
from a frame that is received into. -/
structure Sound (u : UmemConfig) : Prop where
  rx_inside : ∀ i : UInt32, i.toNat < fill_count u → Inside u (rx_addr u i)
  tx_inside : ∀ tx_slot, ∃ addr, tx_addr u tx_slot = some addr ∧ Inside u addr
  apart : ∀ i : UInt32, i.toNat < fill_count u → ∀ tx_slot, ∀ addr ∈ tx_addr u tx_slot,
    Apart u (rx_addr u i) addr

/-! ## The addresses as numbers -/

/-- Half the number of frames, which is in 32 bits. -/
def half (u : UmemConfig) : Nat :=
  u.umem_mb.toNat * 2 ^ 20 / u.frame_size.toNat % 2 ^ 32 / 2

theorem toNat_umem_size (u : UmemConfig) : (umem_size u).toNat = u.umem_mb.toNat * 2 ^ 20 := by
  have hlt := u.umem_mb.toNat_lt
  unfold umem_size
  rw [UInt64.toNat_mul, UInt64.toNat_mul, UInt32.toNat_toUInt64]
  simp only [UInt64.toNat_ofNat]
  omega

theorem toNat_half (u : UmemConfig) : (frame_count u / 2).toUInt64.toNat = half u := by
  unfold frame_count half
  rw [UInt32.toNat_toUInt64, UInt32.toNat_div, UInt64.toNat_toUInt32, UInt64.toNat_div,
    toNat_umem_size, UInt32.toNat_toUInt64]
  rfl

theorem fill_count_eq (u : UmemConfig) :
    fill_count u = if u.ring_size.toNat < 2 ^ 31 then u.ring_size.toNat else 0 := by
  have hlt := u.ring_size.toNat_lt
  have hint : u.ring_size.toInt32.toInt = Int.bmod u.ring_size.toNat (2 ^ 32) :=
    BitVec.toInt_eq_toNat_bmod u.ring_size.toBitVec
  unfold fill_count
  rw [hint, Int.bmod_def]
  split <;> split <;> omega

theorem toNat_rx_addr (u : UmemConfig) (i : UInt32) :
    (rx_addr u i).toNat = i.toNat * u.frame_size.toNat % 2 ^ 32 := by
  unfold rx_addr
  rw [UInt32.toNat_toUInt64, UInt32.toNat_mul]

theorem half_lt (u : UmemConfig) : half u < 2 ^ 31 := by
  unfold half
  omega

/-- Both halves lie in the UMEM. -/
theorem two_halves_le (u : UmemConfig) :
    half u * u.frame_size.toNat + half u * u.frame_size.toNat ≤ u.umem_mb.toNat * 2 ^ 20 := by
  have hcount : half u + half u ≤ u.umem_mb.toNat * 2 ^ 20 / u.frame_size.toNat := by
    have hmod := Nat.mod_le (u.umem_mb.toNat * 2 ^ 20 / u.frame_size.toNat) (2 ^ 32)
    unfold half
    omega
  calc half u * u.frame_size.toNat + half u * u.frame_size.toNat
      = (half u + half u) * u.frame_size.toNat := (Nat.add_mul _ _ _).symm
    _ ≤ u.umem_mb.toNat * 2 ^ 20 / u.frame_size.toNat * u.frame_size.toNat :=
      Nat.mul_le_mul_right _ hcount
    _ ≤ u.umem_mb.toNat * 2 ^ 20 := Nat.div_mul_le_self _ _

theorem tx_addr_eq_none {u : UmemConfig} (hhalf : half u = 0) (tx_slot : UInt64) :
    tx_addr u tx_slot = none := by
  unfold tx_addr
  refine if_pos (UInt64.toNat_inj.mp ?_)
  rw [toNat_half, hhalf]
  rfl

/-- The address does not wrap in 64 bits. -/
theorem tx_addr_eq_some {u : UmemConfig} (hhalf : 0 < half u) (tx_slot : UInt64) :
    ∃ addr, tx_addr u tx_slot = some addr ∧
      addr.toNat = (tx_slot.toNat % half u + half u) * u.frame_size.toNat := by
  have hne : (frame_count u / 2).toUInt64 ≠ 0 := by
    intro h0
    have h := congrArg UInt64.toNat h0
    rw [toNat_half] at h
    exact hhalf.ne' h
  have hmod := Nat.mod_lt tx_slot.toNat hhalf
  have hlt := half_lt u
  have hsum : tx_slot.toNat % half u + half u < 2 ^ 32 := by omega
  refine ⟨_, if_neg hne, ?_⟩
  rw [UInt64.toNat_mul, UInt64.toNat_add, UInt64.toNat_mod, toNat_half, UInt32.toNat_toUInt64,
    Nat.mod_eq_of_lt (hsum.trans (by decide)), Nat.mod_eq_of_lt]
  calc (tx_slot.toNat % half u + half u) * u.frame_size.toNat
      < 2 ^ 32 * 2 ^ 32 := Nat.mul_lt_mul'' hsum u.frame_size.toNat_lt
    _ = 2 ^ 64 := by decide

/-- The transmit side of a queue, for which there are frames. -/
def xsk_interface (u : UmemConfig) (hframe : 0 < u.frame_size.toNat) (hhalf : 0 < half u) :
    tx_ring.XskInterface where
  umem_size := (umem_size u).toNat
  frame_size := u.frame_size.toNat
  ring_size := u.ring_size.toNat
  frame_size_pos := hframe
  frames := by
    rw [toNat_umem_size]
    unfold half at hhalf
    omega

/-- The addresses of the sends are those of the transmit side. -/
theorem tx_addr_eq_tx_ring (u : UmemConfig) (hframe : 0 < u.frame_size.toNat) (hhalf : 0 < half u)
    (tx_slot : UInt64) : (tx_addr u tx_slot).map UInt64.toNat =
      some (tx_ring.tx_addr (xsk_interface u hframe hhalf) tx_slot.toNat) := by
  obtain ⟨addr, haddr, hnat⟩ := tx_addr_eq_some hhalf tx_slot
  rw [haddr, Option.map_some, hnat]
  unfold tx_ring.tx_addr tx_ring.half xsk_interface
  dsimp only
  rw [toNat_umem_size]
  rfl

/-! ## When the layout is sound -/

/-- Half of the frames reach over 4 GiB, where the 32 bits of the RX addresses wrap. The last frame
before the multiple k of 4 GiB starts `(k * 2 ^ 32 - 1) % frame_size + 1` bytes before it: where
that frame is put on the fill ring, it has to end below the half that is sent from. -/
def LapsClear (u : UmemConfig) : Prop :=
  2 ^ 32 ≤ half u * u.frame_size.toNat ∧
    ∀ k > 0, (k * 2 ^ 32 - 1) / u.frame_size.toNat < u.ring_size.toNat →
      2 ^ 32 + u.frame_size.toNat ≤
        half u * u.frame_size.toNat + ((k * 2 ^ 32 - 1) % u.frame_size.toNat + 1)

/-- There are two frames at least, and the frames of the fill ring are no more than half of them,
or none, or wrap below that half. -/
structure FramesFit (u : UmemConfig) : Prop where
  half_pos : 0 < half u
  fit : u.ring_size.toNat ≤ half u ∨ 2 ^ 31 ≤ u.ring_size.toNat ∨ LapsClear u

/-- Of the frames of one lap the last reaches furthest. -/
theorem laps_end_below_iff {wrap frame bound n : Nat} (hpos : 0 < wrap) (hframe : 0 < frame)
    (hwrap : wrap ≤ bound) :
    (∀ i < n, i * frame % wrap + frame ≤ bound) ↔
      ∀ k > 0, (k * wrap - 1) / frame < n →
        wrap + frame ≤ bound + ((k * wrap - 1) % frame + 1) := by
  constructor
  · intro h k hk hn
    have hend := h _ hn
    have hlap := Nat.div_add_mod' (k * wrap - 1) frame
    by_cases hr : (k * wrap - 1) % frame < wrap
    · -- the frame starts in the lap that ends at the multiple `k`
      obtain ⟨j, rfl⟩ : ∃ j, k = j + 1 := ⟨k - 1, by omega⟩
      have hstart : (((j + 1) * wrap - 1) / frame) * frame =
          (wrap - 1 - ((j + 1) * wrap - 1) % frame) + j * wrap := by
        rw [Nat.succ_mul] at *
        omega
      rw [hstart, Nat.add_mul_mod_self_right, Nat.mod_eq_of_lt (by omega)] at hend
      omega
    · omega
  · intro h i hi
    by_cases hin : i * frame % wrap + frame ≤ wrap
    · omega
    have hdiv := Nat.div_add_mod' (i * frame) wrap
    have hlt := Nat.mod_lt (i * frame) hpos
    have hlast : (i * frame / wrap + 1) * wrap - 1 =
        (wrap - 1 - i * frame % wrap) + i * frame := by
      rw [Nat.succ_mul]
      omega
    have hk := h (i * frame / wrap + 1) (Nat.succ_pos _)
    rw [hlast, Nat.add_mul_div_right _ _ hframe, Nat.add_mul_mod_self_right,
      Nat.div_eq_of_lt (by omega), Nat.mod_eq_of_lt (by omega), Nat.zero_add] at hk
    have := hk hi
    omega

/-- The frames of every lap start where those of the first do when their size divides 4 GiB. -/
theorem laps_clear_of_dvd {u : UmemConfig} (hframe : 0 < u.frame_size.toNat)
    (hdvd : u.frame_size.toNat ∣ 2 ^ 32) :
    LapsClear u ↔ 2 ^ 32 ≤ half u * u.frame_size.toNat := by
  refine ⟨And.left, fun hreach => ⟨hreach, fun k hk _ => ?_⟩⟩
  have hlast : (k * 2 ^ 32 - 1) % u.frame_size.toNat + 1 = u.frame_size.toNat := by
    obtain ⟨m, hm⟩ := hdvd.mul_left k
    obtain ⟨j, rfl⟩ : ∃ j, m = j + 1 := by
      refine Nat.exists_eq_succ_of_ne_zero fun h0 => ?_
      rw [h0, Nat.mul_zero] at hm
      omega
    have hsub : k * 2 ^ 32 - 1 = (u.frame_size.toNat - 1) + u.frame_size.toNat * j := by
      rw [hm, Nat.mul_succ]
      omega
    rw [hsub, Nat.add_mul_mod_self_left, Nat.mod_eq_of_lt (by omega)]
    omega
  omega

/-- No frame of the fill ring reaches into the half that is sent from. -/
def RxBelowHalf (u : UmemConfig) : Prop :=
  ∀ i < fill_count u, i * u.frame_size.toNat % 2 ^ 32 + u.frame_size.toNat ≤
    half u * u.frame_size.toNat

theorem FramesFit.rx_below_half {u : UmemConfig} (h : FramesFit u)
    (hframe : 0 < u.frame_size.toNat) : RxBelowHalf u := by
  intro i hi
  rw [fill_count_eq] at hi
  split at hi
  · rcases h.fit with hle | hbig | ⟨hreach, hlaps⟩
    · have hmod := Nat.mod_le (i * u.frame_size.toNat) (2 ^ 32)
      calc i * u.frame_size.toNat % 2 ^ 32 + u.frame_size.toNat
          ≤ i * u.frame_size.toNat + u.frame_size.toNat := Nat.add_le_add_right hmod _
        _ = (i + 1) * u.frame_size.toNat := (Nat.succ_mul _ _).symm
        _ ≤ half u * u.frame_size.toNat := Nat.mul_le_mul_right _ (hi.trans_le hle)
    · omega
    · exact (laps_end_below_iff (by decide) hframe hreach).mpr hlaps i hi
  · exact absurd hi (Nat.not_lt_zero i)

theorem sound_of_rx_below_half {u : UmemConfig} (hhalf : 0 < half u) (h : RxBelowHalf u) :
    Sound u := by
  have htwo := two_halves_le u
  have hrx : ∀ i : UInt32, i.toNat < fill_count u →
      (rx_addr u i).toNat + u.frame_size.toNat ≤ half u * u.frame_size.toNat := by
    intro i hi
    rw [toNat_rx_addr]
    exact h i.toNat hi
  have htx : ∀ slot : UInt64, half u * u.frame_size.toNat ≤
        (slot.toNat % half u + half u) * u.frame_size.toNat ∧
      (slot.toNat % half u + half u) * u.frame_size.toNat + u.frame_size.toNat ≤
        half u * u.frame_size.toNat + half u * u.frame_size.toNat := by
    intro slot
    have hslot : (slot.toNat % half u + 1) * u.frame_size.toNat ≤ half u * u.frame_size.toNat :=
      Nat.mul_le_mul_right _ (Nat.mod_lt _ hhalf)
    rw [Nat.succ_mul] at hslot
    rw [Nat.add_mul]
    omega
  refine ⟨fun i hi => ?_, fun slot => ?_, fun i hi slot addr haddr => ?_⟩
  · have hend := hrx i hi
    unfold Inside
    omega
  · obtain ⟨addr, haddr, hnat⟩ := tx_addr_eq_some hhalf slot
    refine ⟨addr, haddr, ?_⟩
    have hend := (htx slot).2
    unfold Inside
    rw [hnat]
    omega
  · obtain ⟨addr', haddr', hnat⟩ := tx_addr_eq_some hhalf slot
    obtain rfl := Option.some.inj (haddr'.symm.trans haddr)
    refine Or.inl ((hrx i hi).trans ?_)
    rw [hnat]
    exact (htx slot).1

theorem Sound.half_pos {u : UmemConfig} (h : Sound u) : 0 < half u := by
  obtain ⟨addr, haddr, -⟩ := h.tx_inside 0
  refine Nat.pos_of_ne_zero fun h0 => ?_
  rw [tx_addr_eq_none h0] at haddr
  exact Option.some_ne_none addr haddr.symm

/-- The frame of the first send bounds those of the fill ring. -/
theorem Sound.apart_first {u : UmemConfig} (h : Sound u) {i : Nat} (hi : i < fill_count u) :
    i * u.frame_size.toNat % 2 ^ 32 + u.frame_size.toNat ≤ half u * u.frame_size.toNat ∨
      half u * u.frame_size.toNat + u.frame_size.toNat ≤ i * u.frame_size.toNat % 2 ^ 32 := by
  have hlt : i < 2 ^ 32 := by
    rw [fill_count_eq] at hi
    split at hi <;> omega
  have htoNat : (UInt32.ofNat i).toNat = i := UInt32.toNat_ofNat_of_lt' hlt
  obtain ⟨addr, haddr, hnat⟩ := tx_addr_eq_some h.half_pos 0
  have hapart := h.apart (UInt32.ofNat i) (by rwa [htoNat]) 0 addr haddr
  unfold Apart at hapart
  rw [toNat_rx_addr, htoNat, hnat] at hapart
  simpa using hapart

theorem Sound.frames_fit {u : UmemConfig} (h : Sound u) (hframe : 0 < u.frame_size.toNat) :
    FramesFit u := by
  refine ⟨h.half_pos, ?_⟩
  by_cases hle : u.ring_size.toNat ≤ half u
  · exact .inl hle
  by_cases hbig : 2 ^ 31 ≤ u.ring_size.toNat
  · exact .inr (.inl hbig)
  have hfill : fill_count u = u.ring_size.toNat := by
    rw [fill_count_eq, if_pos (by omega)]
  -- short of 4 GiB the frame `half u` of the fill ring is that of the first send
  have hreach : 2 ^ 32 ≤ half u * u.frame_size.toNat := by
    by_contra hshort
    have hfirst := h.apart_first (i := half u) (by omega)
    rw [Nat.mod_eq_of_lt (by omega)] at hfirst
    omega
  refine .inr (.inr ⟨hreach, (laps_end_below_iff (by decide) hframe hreach).mp fun i hi => ?_⟩)
  have hmod := Nat.mod_lt (i * u.frame_size.toNat) (show 0 < 2 ^ 32 by decide)
  rcases h.apart_first (hfill ▸ hi) with hbelow | habove
  · exact hbelow
  · omega

/-- Where the product of the check does not wrap and is a whole number of MiB, and the frame count
fits its 32 bits, the check is enough. -/
theorem Accepted.sound_of_exact {u : UmemConfig} (h : Accepted u) (hframe : 0 < u.frame_size.toNat)
    (hexact : u.ring_size.toNat * 2 * u.frame_size.toNat < 2 ^ 32)
    (hdvd : 2 ^ 20 ∣ u.ring_size.toNat * 2 * u.frame_size.toNat)
    (hcount : u.umem_mb.toNat * 2 ^ 20 / u.frame_size.toNat < 2 ^ 32) : Sound u := by
  have hle : u.ring_size.toNat * 2 * u.frame_size.toNat ≤ u.umem_mb.toNat * 2 ^ 20 := by
    have hmin := UInt32.le_iff_toNat_le.mp h.checked.min_umem_mb
    rw [toNat_min_umem_mb, Nat.mod_eq_of_lt hexact] at hmin
    rw [← Nat.div_mul_cancel hdvd]
    exact Nat.mul_le_mul_right _ hmin
  have hhalf : u.ring_size.toNat ≤ half u := by
    have hframes := (Nat.le_div_iff_mul_le hframe).mpr hle
    unfold half
    rw [Nat.mod_eq_of_lt hcount]
    omega
  have hring : u.ring_size.toNat ≠ 0 := fun h0 =>
    h.checked.ring_size (UInt32.toNat_inj.mp h0)
  have hfit : FramesFit u := ⟨by omega, .inl hhalf⟩
  exact sound_of_rx_below_half hfit.half_pos (hfit.rx_below_half hframe)

/-- The layout of an accepted entry is sound exactly when its frames fit. -/
theorem an_accepted_umem_is_sound_iff_its_frames_fit (u : UmemConfig) (hframe : 0 < u.frame_size) :
    Accepted u → (Sound u ↔ FramesFit u) := by
  intro _
  have hpos : 0 < u.frame_size.toNat := UInt32.lt_iff_toNat_lt.mp hframe
  constructor
  · intro h
    exact h.frames_fit hpos
  · intro h
    exact sound_of_rx_below_half h.half_pos (h.rx_below_half hpos)

theorem the_default_lan_umem_is_sound :
    Accepted { ring_size := 262144, frame_size := 4096, umem_mb := 2048 } ∧
      Sound { ring_size := 262144, frame_size := 4096, umem_mb := 2048 } := by
  have hacc : Accepted { ring_size := 262144, frame_size := 4096, umem_mb := 2048 } :=
    accepted_of_lan _ (by decide +kernel)
  exact ⟨hacc, (an_accepted_umem_is_sound_iff_its_frames_fit _ (by decide) hacc).mpr
    ⟨by decide +kernel, .inl (by decide +kernel)⟩⟩

/-- A ring of 524288 entries needs 4 GiB, which is 0 in 32 bits. The frame 262144 of the fill ring
is then that of the first send. -/
theorem a_ring_of_4_gib_is_accepted_and_shares_its_frames :
    Accepted { ring_size := 524288, frame_size := 4096, umem_mb := 2048 } ∧
      ¬Sound { ring_size := 524288, frame_size := 4096, umem_mb := 2048 } := by
  refine ⟨accepted_of_lan _ (by decide +kernel), fun h => ?_⟩
  have hapart := h.apart 262144 (by decide +kernel) 0 1073741824 (by decide +kernel)
  unfold Apart at hapart
  exact absurd hapart (by decide +kernel)

end ne_ip.umem_layout
