-- What the threads read of a packet's headers (forwarder.c), and which packets of a LAN
-- interface they get at all (bpf/xdp_redirect.c).
import NeIp.CryptoLayer4

open byte_buf ne_ip.packet_crypto ne_ip.crypto_layer4

namespace ne_ip.flow

def ETH_P_IP : Nat := 0x0800
def ETH_P_ARP_VAL : Nat := 0x0806
def IPPROTO_ICMP_VAL : UInt8 := 1
def IPPROTO_TCP : UInt8 := 6
def IPPROTO_UDP : UInt8 := 17

/-- An address as it stands in the packet. -/
def ip_at (pkt : Buf) (off : Nat) : UInt32 :=
  UInt32.ofNat (be16 pkt off * 65536 + be16 pkt (off + 2))

/-- What `parse_flow` writes to its arguments. -/
structure FlowKey where
  src_ip : UInt32
  dst_ip : UInt32
  src_port : Nat
  dst_port : Nat
  protocol : UInt8
  deriving DecidableEq, Repr

def parse_flow (pkt : Buf) (pkt_len : Nat) : Option FlowKey :=
  match crypto_eth_ipv4_offset pkt pkt_len with
  | none => none
  | some l3_off =>
    if pkt_len < l3_off + 20 then none
    else
      let src_ip := ip_at pkt (l3_off + 12)
      let dst_ip := ip_at pkt (l3_off + 16)
      let protocol := pkt (l3_off + 9)
      let ip_hdr_len := ip_hdr_len_at pkt l3_off
      let transport := l3_off + ip_hdr_len
      let ports : FlowKey :=
        { src_ip, dst_ip, protocol
          src_port := be16 pkt transport
          dst_port := be16 pkt (transport + 2) }
      if ip_hdr_len < 20 then none
      else if protocol = IPPROTO_TCP then
        if pkt_len < transport + 20 then none else some ports
      else if protocol = IPPROTO_UDP then
        if pkt_len < transport + 8 then none else some ports
      else some { ports with src_port := 0, dst_port := 0 }

/-- `get_dest_ip`; 0 when the frame is no untagged IPv4 packet. -/
def get_dest_ip (pkt : Buf) (pkt_len : Nat) : UInt32 :=
  if pkt_len < ETH_HEADER_SIZE + 20 then 0
  else if be16 pkt 12 ≠ ETH_P_IP then 0
  else ip_at pkt (ETH_HEADER_SIZE + 16)

/-- The queue of a LAN interface that a flow goes to, of which there is one in all. -/
def flow_hash_local_tq (f : FlowKey) : UInt32 :=
  let h := f.src_ip ^^^ f.dst_ip
  let h := h ^^^ UInt32.ofNat (f.src_port * 65536 + f.dst_port)
  let h := h ^^^ f.protocol.toUInt32
  let h := h ^^^ (h >>> 16)
  let h := h * 0x85ebca6b
  let h := h ^^^ (h >>> 13)
  let h := h * 0xc2b2ae35
  h ^^^ (h >>> 16)

/-! ## The program on the LAN interfaces -/

inductive XdpAction where
  | pass
  | redirect
  deriving DecidableEq, Repr

/-- `parse_ipv4` of the program: the protocol. -/
def xdp_parse_ipv4 (pkt : Buf) (pkt_len : Nat) : Option UInt8 :=
  if pkt_len < ETH_HEADER_SIZE ∨ be16 pkt 12 ≠ ETH_P_IP then none
  else if pkt_len < ETH_HEADER_SIZE + 20 then none
  else some (pkt (ETH_HEADER_SIZE + 9))

/-- `read_tcp_udp_ports`, whose ports nobody reads. -/
def read_tcp_udp_ports (pkt : Buf) (pkt_len : Nat) (ip_proto : UInt8) : Option Unit :=
  if ip_proto ≠ IPPROTO_TCP ∧ ip_proto ≠ IPPROTO_UDP then some ()
  else if pkt_len < ETH_HEADER_SIZE + 20 then none
  else
    let ihl := ip_hdr_len_at pkt ETH_HEADER_SIZE
    if ihl < 20 then none
    else if pkt_len < ETH_HEADER_SIZE + ihl + 4 then none
    else some ()

/-- `has_sock` tells whether there is a socket for the queue. -/
def xdp_redirect_prog (has_sock : Bool) (pkt : Buf) (pkt_len : Nat) : XdpAction :=
  if pkt_len < ETH_HEADER_SIZE then .pass
  else if be16 pkt 12 = ETH_P_ARP_VAL then .pass
  else
    match xdp_parse_ipv4 pkt pkt_len with
    | none => .pass
    | some l4_proto =>
      if l4_proto = IPPROTO_ICMP_VAL then .pass
      else if l4_proto ≠ IPPROTO_TCP ∧ l4_proto ≠ IPPROTO_UDP then .pass
      else if read_tcp_udp_ports pkt pkt_len l4_proto = none then .pass
      else if has_sock then .redirect
      else .pass

/-! ## What a redirected packet is -/

/-- An untagged TCP or UDP packet over IPv4 that holds its IPv4 header and its ports. -/
structure Redirected (pkt : Buf) (pkt_len : Nat) : Prop where
  ipv4 : be16 pkt 12 = 0x0800
  proto : pkt (14 + 9) = 6 ∨ pkt (14 + 9) = 17
  ihl : 20 ≤ ip_hdr_len_at pkt 14
  fits : 14 + ip_hdr_len_at pkt 14 + 4 ≤ pkt_len

theorem redirected_of_xdp {has_sock : Bool} {pkt : Buf} {pkt_len : Nat}
    (h : xdp_redirect_prog has_sock pkt pkt_len = .redirect) : Redirected pkt pkt_len := by
  have hE : ETH_HEADER_SIZE = 14 := rfl
  unfold xdp_redirect_prog at h
  split at h
  · simp at h
  split at h
  · simp at h
  split at h
  · simp at h
  rename_i l4_proto hparse
  split at h
  · simp at h
  split at h
  · simp at h
  rename_i hproto
  split at h
  · simp at h
  rename_i hports
  unfold xdp_parse_ipv4 at hparse
  split at hparse
  · simp at hparse
  rename_i h4
  split at hparse
  · simp at hparse
  obtain rfl := Option.some.inj hparse
  rw [not_or] at h4
  rw [← or_iff_not_and_not] at hproto
  unfold read_tcp_udp_ports at hports
  rw [if_neg (by rw [← or_iff_not_and_not]; exact hproto), if_neg (by omega)] at hports
  dsimp only at hports
  split at hports
  · simp at hports
  split at hports
  · simp at hports
  rw [hE] at *
  exact ⟨not_not.mp h4.2, hproto, by omega, by omega⟩

theorem Redirected.offset {pkt : Buf} {pkt_len : Nat} (h : Redirected pkt pkt_len) :
    crypto_eth_ipv4_offset pkt pkt_len = some 14 := by
  have hfits := h.fits
  unfold crypto_eth_ipv4_offset
  rw [if_neg (by omega), if_pos h.ipv4]

/-- The transport header that `parse_flow` asks for. -/
theorem Redirected.transport {pkt : Buf} {pkt_len : Nat} (h : Redirected pkt pkt_len) {f : FlowKey}
    (hf : parse_flow pkt pkt_len = some f) :
    14 + ip_hdr_len_at pkt 14 + 8 ≤ pkt_len ∧
      (pkt (14 + 9) = 6 → 14 + ip_hdr_len_at pkt 14 + 20 ≤ pkt_len) := by
  unfold parse_flow at hf
  rw [h.offset] at hf
  dsimp only at hf
  split at hf
  · simp at hf
  split at hf
  · simp at hf
  split at hf
  · split at hf
    · simp at hf
    · exact ⟨by omega, fun _ => by omega⟩
  rename_i h6
  split at hf
  · split at hf
    · simp at hf
    · exact ⟨by omega, fun hp => absurd hp h6⟩
  · rename_i h17
    exact absurd h.proto (by
      rintro (hp | hp)
      · exact h6 hp
      · exact h17 hp)

/-- New addresses in front of it change nothing of this. -/
theorem Redirected.congr {b c : Buf} {pkt_len : Nat} (h : Redirected b pkt_len)
    (hc : ∀ i, 12 ≤ i → c i = b i) : Redirected c pkt_len := by
  have hihl : ip_hdr_len_at c 14 = ip_hdr_len_at b 14 := by
    unfold ip_hdr_len_at
    rw [hc 14 (by omega)]
  refine ⟨?_, ?_, ?_, ?_⟩
  · rw [be16_congr (hc 12 (by omega)) (hc 13 (by omega))]
    exact h.ipv4
  · rw [hc _ (by omega)]
    exact h.proto
  · rw [hihl]
    exact h.ihl
  · rw [hihl]
    exact h.fits

end ne_ip.flow
