-- The configuration (config.h, config.c): LAN and WAN interfaces, profiles and
-- crypto policies, each list as long as its array in the source allows.
import Mathlib.Data.List.Basic
import NeIp.PacketCrypto

open byte_buf ne_ip.packet_crypto

namespace ne_ip.config

def MAX_INTERFACES : Nat := 16
def MAX_PROFILES : Nat := 32
def MAX_PROFILE_INTERFACES : Nat := 16
def MAX_CRYPTO_POLICIES : Nat := 128
def AES_KEY_LEN : Nat := 32
def FORWARDER_XSK_QUEUE_COUNT : Nat := 1

/-- `enum policy_action`, which is also the enum of the database column. -/
inductive PolicyAction where
  | bypass
  | encrypt_l2
  | encrypt_l3
  | encrypt_l4
  deriving DecidableEq, Repr

/-- `POLICY_ACTION_BYPASS`, `POLICY_ACTION_ENCRYPT_L2` and so on. -/
def PolicyAction.toNat : PolicyAction → Nat
  | .bypass => 0
  | .encrypt_l2 => 2
  | .encrypt_l3 => 3
  | .encrypt_l4 => 4

/-- `struct crypto_policy`. A port that is not given is -1; protocol 0 is any. -/
structure CryptoPolicy where
  id : Nat
  db_id : Int := 0
  priority : Int := 0
  action : PolicyAction
  protocol : UInt8 := 0
  src_port_from : Int := -1
  src_port_to : Int := -1
  dst_port_from : Int := -1
  dst_port_to : Int := -1
  src_any : Bool := true
  dst_any : Bool := true
  src_negate : Bool := false
  dst_negate : Bool := false
  src_net : UInt32 := 0
  src_mask : UInt32 := 0
  dst_net : UInt32 := 0
  dst_mask : UInt32 := 0
  crypto_mode : CryptoMode
  aes_bits : Nat
  nonce_size : Nat
  key : Vector UInt8 AES_KEY_LEN
  deriving DecidableEq, Repr

/-- `(uint8_t)cp->id`, the id that a frame carries. -/
def CryptoPolicy.wire_id (cp : CryptoPolicy) : UInt8 := UInt8.ofNat cp.id

/-- `struct profile_config`. -/
structure ProfileConfig where
  id : Int
  name : Bytes := []
  enabled : Bool := true
  local_indices : List Nat := []
  wan_indices : List Nat := []
  wan_bandwidth_weight : List Int := []
  policy_indices : List Nat := []
  deriving DecidableEq, Repr

/-- `struct local_config`. -/
structure LocalConfig where
  ifname : Bytes
  ip : UInt32 := 0
  netmask : UInt32 := 0
  network : UInt32 := 0
  umem_mb : Nat := 2048
  ring_size : Nat := 262144
  batch_size : Nat := 64
  frame_size : Nat := 4096
  queue_count : Nat := 1
  deriving DecidableEq, Repr

/-- `struct wan_config`. -/
structure WanConfig where
  ifname : Bytes
  dst_ip : UInt32 := 0
  window_size : Nat := 10485760
  umem_mb : Nat := 256
  ring_size : Nat := 32768
  batch_size : Nat := 64
  frame_size : Nat := 4096
  queue_count : Nat := 1
  deriving DecidableEq, Repr

/-- `struct app_config`. The lists are the arrays up to their counts. -/
structure AppConfig where
  global_frame_size : Nat := 4096
  global_batch_size : Nat := 64
  locals : List LocalConfig := []
  wans : List WanConfig := []
  crypto_enabled : Bool := false
  crypto_key : Vector UInt8 AES_KEY_LEN := Vector.replicate AES_KEY_LEN 0
  encrypt_layer : Nat := 0
  fake_ethertype_ipv4 : Nat := 0
  fake_protocol : UInt8 := 0
  crypto_mode : CryptoMode := .ctr
  nonce_size : Nat := 0
  aes_bits : Nat := 0
  profiles : List ProfileConfig := []
  policies : List CryptoPolicy := []
  locals_le : locals.length ≤ MAX_INTERFACES := by first | exact Nat.zero_le _ | decide
  wans_le : wans.length ≤ MAX_INTERFACES := by first | exact Nat.zero_le _ | decide
  profiles_le : profiles.length ≤ MAX_PROFILES := by first | exact Nat.zero_le _ | decide
  policies_le : policies.length ≤ MAX_CRYPTO_POLICIES := by first | exact Nat.zero_le _ | decide

/-- `config_find_local_for_ip`; -1 is `none`. -/
def config_find_local_for_ip (cfg : AppConfig) (dest_ip : UInt32) : Option Nat :=
  cfg.locals.findIdx? fun l => dest_ip &&& l.netmask == l.network

/-- `local_config_fill_ipv4_from_iface`: the interface's address, and its mask or, when the
kernel gives none, a mask of ones. Without an address the entry stays as it is. -/
def local_config_fill_ipv4_from_iface (addr : Option (UInt32 × Option UInt32))
    (loc : LocalConfig) : LocalConfig :=
  if loc.ifname = [] then loc
  else
    match addr with
    | none => loc
    | some (ip, none) => { loc with ip, netmask := 0xFFFFFFFF, network := ip &&& 0xFFFFFFFF }
    | some (ip, some mask) => { loc with ip, netmask := mask, network := ip &&& mask }

def local_ok (l : LocalConfig) : Bool :=
  l.ifname != [] && l.umem_mb != 0 && l.ring_size != 0 &&
    decide (l.ring_size * 2 * l.frame_size % 2 ^ 32 / (1024 * 1024) ≤ l.umem_mb)

def wan_ok (w : WanConfig) : Bool :=
  w.ifname != [] && w.umem_mb != 0 && w.ring_size != 0 && w.window_size != 0 &&
    decide (w.ring_size * 2 * w.frame_size % 2 ^ 32 / (1024 * 1024) ≤ w.umem_mb)

def config_validate (cfg : AppConfig) : Bool :=
  cfg.global_frame_size != 0 && cfg.global_batch_size != 0 && cfg.locals.all local_ok &&
    cfg.wans.all wan_ok

/-! ## What a reload compares (forwarder.c) -/

/-- `same_topology`: the interfaces by name, in order. -/
def same_topology (a b : AppConfig) : Bool :=
  a.locals.map (·.ifname) == b.locals.map (·.ifname) &&
    a.wans.map (·.ifname) == b.wans.map (·.ifname)

/-- `same_crypto_policy`, which compares every field. -/
def same_crypto_policy (a b : CryptoPolicy) : Bool := a == b

def crypto_runtime_changed (a b : AppConfig) : Bool :=
  a.crypto_enabled != b.crypto_enabled || a.encrypt_layer != b.encrypt_layer ||
    a.crypto_mode != b.crypto_mode || a.aes_bits != b.aes_bits ||
    a.nonce_size != b.nonce_size || a.fake_ethertype_ipv4 != b.fake_ethertype_ipv4 ||
    a.fake_protocol != b.fake_protocol || a.policies.length != b.policies.length ||
    !(a.policies.zip b.policies).all fun p => same_crypto_policy p.1 p.2

def forwarding_runtime_changed (a b : AppConfig) : Bool :=
  a.profiles.length != b.profiles.length || a.wans.length != b.wans.length ||
    a.locals.length != b.locals.length

/-! ## What a thread takes over (crypto_policy_utils.c) -/

def crypto_apply_default_from_cfg (cfg : AppConfig) (tls : Tls) : Tls :=
  { tls with
    crypto_mode := cfg.crypto_mode
    aes_bits := cfg.aes_bits
    nonce_size := cfg.nonce_size
    fake_protocol := if cfg.encrypt_layer = 3 then cfg.fake_protocol else tls.fake_protocol
    policy_id := 0 }

def crypto_apply_from_policy (cp : CryptoPolicy) (tls : Tls) : Tls :=
  { tls with
    crypto_mode := cp.crypto_mode
    aes_bits := cp.aes_bits
    nonce_size := cp.nonce_size
    fake_protocol :=
      if cp.action = .encrypt_l3 ∧ tls.fake_protocol = 0 then 99 else tls.fake_protocol
    policy_id := cp.wire_id }

/-- Two lists of policies that no field tells apart are the same list. -/
theorem eq_of_not_crypto_runtime_changed {a b : AppConfig}
    (h : crypto_runtime_changed a b = false) : a.policies = b.policies := by
  unfold crypto_runtime_changed at h
  simp only [Bool.or_eq_false_iff, bne_eq_false_iff_eq, Bool.not_eq_false', List.all_eq_true] at h
  obtain ⟨⟨-, hl⟩, hall⟩ := h
  apply List.ext_getElem hl
  intro i h1 h2
  have hz := hall (a.policies[i], b.policies[i]) (by
    rw [List.mem_iff_getElem]
    exact ⟨i, by simp [h1, h2], by simp⟩)
  simpa [same_crypto_policy] using hz

end ne_ip.config
