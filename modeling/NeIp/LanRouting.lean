-- The laws of WAN to LAN routing: init fills in the subnets of the LAN entries,
-- the lookup of a received packet reads them, and a reload brings them back to 0.
import NeIp.DbRuntime
import NeIp.Sample

open byte_buf ne_ip.packet_crypto ne_ip.config ne_ip.crypto_dispatch ne_ip.db_runtime
open ne_ip.forwarder ne_ip.sample

namespace ne_ip.lan_routing

/-! ## The entries that init leaves -/

/-- The network of every entry is that of its address and mask. -/
def Addressed (cfg : AppConfig) : Prop := ∀ l ∈ cfg.locals, l.network = l.ip &&& l.netmask

theorem fill_addressed {addr : Option (UInt32 × Option UInt32)} {l : LocalConfig}
    (h : l.network = l.ip &&& l.netmask) :
    (local_config_fill_ipv4_from_iface addr l).network =
      (local_config_fill_ipv4_from_iface addr l).ip &&&
        (local_config_fill_ipv4_from_iface addr l).netmask := by
  unfold local_config_fill_ipv4_from_iface
  split
  · exact h
  · split
    · exact h
    · rfl
    · rfl

/-- The configuration that a merge gives has its subnets filled in by a successful init. -/
theorem forwarder_init_addressed {o : Openssl} {tls : Tls} {now : Nat}
    {addr : Nat → Option (UInt32 × Option UInt32)} {cfg : AppConfig} {rt rt' : Runtime}
    (hcfg : NoAddress cfg) (h : forwarder_init o tls now addr cfg rt = (true, rt')) :
    Addressed rt'.fwd_cfg := by
  have hlocals : (init_crypto o tls now cfg rt).2.fwd_cfg.locals =
      (set_queue_counts cfg).locals := by
    unfold init_crypto snapshot_prev rebuild_crypto_runtime
    split
    · rfl
    · dsimp only
      split
      · split <;> rfl
      · split <;> split <;> rfl
  have haddr : Addressed (set_queue_counts cfg) := by
    intro l hl
    obtain ⟨l', hl', rfl⟩ := List.mem_map.mp hl
    obtain ⟨h1, h2, h3⟩ := hcfg l' hl'
    rw [h1, h2, h3]
    rfl
  unfold forwarder_init at h
  dsimp only at h
  split at h
  · rw [← (Prod.mk.inj h).2]
    intro l hl
    obtain ⟨i, hi, rfl⟩ := List.mem_mapIdx.mp hl
    refine fill_addressed (haddr _ ?_)
    rw [← hlocals]
    exact List.getElem_mem hi
  · rename_i hno
    rw [h] at hno
    exact absurd rfl hno

/-! ## The lookup before and after a reload -/

/-- Entries without an address match everything: the first one gets every packet. -/
theorem find_local_noAddress {cfg : AppConfig} (h : NoAddress cfg) (dest_ip : UInt32) :
    config_find_local_for_ip cfg dest_ip = if cfg.locals = [] then none else some 0 := by
  unfold config_find_local_for_ip
  cases hl : cfg.locals with
  | nil => rfl
  | cons l ls =>
    obtain ⟨-, h2, h3⟩ := h l (by rw [hl]; exact List.mem_cons_self)
    rw [List.findIdx?_cons, h2, h3, UInt32.and_zero, if_neg (List.cons_ne_nil l ls)]
    rfl

/-- The first entry of a configuration with subnets gets every packet only with a mask of 0. -/
theorem first_local_matches_all_iff {l : LocalConfig} (h : l.network = l.ip &&& l.netmask) :
    (∀ dest_ip, dest_ip &&& l.netmask = l.network) ↔ l.netmask = 0 := by
  rw [h]
  constructor
  · intro hall
    have h0 := hall 0
    have hm := hall l.netmask
    rw [UInt32.zero_and] at h0
    rw [UInt32.and_self, ← h0] at hm
    exact hm
  · intro hm dest_ip
    rw [hm, UInt32.and_zero, UInt32.and_zero]

/-- A configuration with subnets sends every packet to its first entry exactly when that
entry has a mask of 0. -/
theorem find_local_all_zero_iff {cfg : AppConfig} (h : Addressed cfg) :
    (∀ dest_ip, config_find_local_for_ip cfg dest_ip = some 0) ↔
      ∃ l ls, cfg.locals = l :: ls ∧ l.netmask = 0 := by
  unfold config_find_local_for_ip
  cases hl : cfg.locals with
  | nil => simp
  | cons l ls =>
    have hnet := h l (by rw [hl]; exact List.mem_cons_self)
    have hfirst : ∀ dest_ip, (l :: ls).findIdx? (fun l => dest_ip &&& l.netmask == l.network) =
        some 0 ↔ dest_ip &&& l.netmask = l.network := by
      intro dest_ip
      rw [List.findIdx?_cons]
      split
      · rename_i hm
        simpa using hm
      · rename_i hm
        constructor
        · intro hs
          obtain ⟨i, -, hi⟩ := Option.map_eq_some_iff.mp hs
          omega
        · intro hm'
          exact absurd (by simpa using hm') hm
    simp only [hfirst, first_local_matches_all_iff hnet]
    constructor
    · intro hm
      exact ⟨l, ls, rfl, hm⟩
    · rintro ⟨l', ls', he, hm⟩
      rw [(List.cons.inj he).1]
      exact hm

/-- An accepted reload with a merged configuration keeps the routing of every address exactly
when there is no LAN entry, or the first one had a mask of 0 before. -/
theorem a_reload_keeps_routing_iff_the_first_mask_is_zero {o : Openssl} {tls : Tls} {db : Db}
    {ids : List Int} {cfg : AppConfig} {rt rt' : Runtime} (haddr : Addressed rt.fwd_cfg)
    (hbuild : build_merged_config db ids = some cfg)
    (hreload : forwarder_reload_config o tls cfg rt = some rt') :
    (∀ dest_ip, config_find_local_for_ip rt'.fwd_cfg dest_ip =
        config_find_local_for_ip rt.fwd_cfg dest_ip) ↔
      rt.fwd_cfg.locals = [] ∨ ∃ l ls, rt.fwd_cfg.locals = l :: ls ∧ l.netmask = 0 := by
  obtain ⟨htop, hslot, -⟩ := forwarder_reload_config_some hreload
  have hno := build_merged_config_noAddress hbuild
  have hno' : NoAddress rt'.fwd_cfg := by
    rcases hslot with he | he
    · rw [he]
      exact hno
    · rw [he]
      intro l hl
      obtain ⟨l', hl', rfl⟩ := List.mem_map.mp hl
      exact hno l' hl'
  -- the same interfaces, so there is an entry after the reload when there was one before
  have hempty : rt'.fwd_cfg.locals = [] ↔ rt.fwd_cfg.locals = [] := by
    have hlen : rt'.fwd_cfg.locals.length = rt.fwd_cfg.locals.length := by
      unfold same_topology at htop
      simp only [Bool.and_eq_true, beq_iff_eq] at htop
      have hl := congrArg List.length htop.1
      rw [List.length_map, List.length_map] at hl
      rcases hslot with he | he
      · rw [he, hl]
      · rw [he, hl]
        exact List.length_map _
    rw [← List.length_eq_zero_iff, hlen, List.length_eq_zero_iff]
  by_cases hl : rt.fwd_cfg.locals = []
  · refine ⟨fun _ => Or.inl hl, fun _ dest_ip => ?_⟩
    rw [find_local_noAddress hno', if_pos (hempty.mpr hl)]
    unfold config_find_local_for_ip
    rw [hl]
    rfl
  · have hafter : ∀ dest_ip, config_find_local_for_ip rt'.fwd_cfg dest_ip = some 0 := by
      intro dest_ip
      rw [find_local_noAddress hno', if_neg (fun h => hl (hempty.mp h))]
    simp only [hafter, hl, false_or, eq_comm (a := some 0)]
    exact find_local_all_zero_iff haddr

/-- The runtime after the first init with profile 1, where `lan0` is 10.0.1.1 with `mask`. -/
def startedWith (mask : UInt32) : Runtime :=
  (forwarder_init sampleOpenssl {} 1 (fun _ => some (0x0101000a, some mask)) sampleMerged
    Runtime.boot).2

/-- The runtime after a reload of the same profile. -/
def reloadedWith (mask : UInt32) : Runtime :=
  (forwarder_reload_config sampleOpenssl {} sampleMerged (startedWith mask)).getD Runtime.boot

theorem startedWith_init (mask : UInt32) :
    forwarder_init sampleOpenssl {} 1 (fun _ => some (0x0101000a, some mask)) sampleMerged
      Runtime.boot = (true, startedWith mask) := rfl

/-- With a mask of 0 every packet went to `lan0` before. -/
theorem a_mask_of_zero_keeps_routing :
    config_find_local_for_ip (reloadedWith 0).fwd_cfg =
      config_find_local_for_ip (startedWith 0).fwd_cfg :=
  funext ((a_reload_keeps_routing_iff_the_first_mask_is_zero
    (forwarder_init_addressed (build_merged_config_noAddress sampleMerged_build)
      (startedWith_init 0)) sampleMerged_build
    (show forwarder_reload_config sampleOpenssl {} sampleMerged (startedWith 0) =
      some (reloadedWith 0) from rfl)).mpr (Or.inr ⟨_, _, rfl, rfl⟩))

/-- With the mask 255.255.255.0 a packet to 8.8.8.8 is for no LAN before the reload of the
same profile, and for `lan0` after it. -/
theorem a_packet_for_no_lan_goes_to_the_first_after_a_reload :
    build_merged_config sampleDb [1] = some sampleMerged ∧
    forwarder_init sampleOpenssl {} 1 (fun _ => some (0x0101000a, some 0x00ffffff)) sampleMerged
      Runtime.boot = (true, startedWith 0x00ffffff) ∧
    forwarder_reload_config sampleOpenssl {} sampleMerged (startedWith 0x00ffffff) =
      some (reloadedWith 0x00ffffff) ∧
    config_find_local_for_ip (startedWith 0x00ffffff).fwd_cfg 0x08080808 = none ∧
    config_find_local_for_ip (reloadedWith 0x00ffffff).fwd_cfg 0x08080808 = some 0 :=
  ⟨sampleMerged_build, startedWith_init _, rfl, by decide, by decide⟩

end ne_ip.lan_routing
