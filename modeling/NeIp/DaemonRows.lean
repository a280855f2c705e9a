-- The rows that a running daemon goes by (main.c): in every state the configuration in use has the
-- rows of one notification, and the packets are treated as these say.
import NeIp.ActiveSet
import NeIp.RowSemantics

open byte_buf index_list runs ne_ip.packet_crypto ne_ip.config ne_ip.db_runtime ne_ip.forwarder
open ne_ip.daemon ne_ip.merge_order ne_ip.merge_sources ne_ip.wan_peers ne_ip.merged_rows
open ne_ip.row_semantics

namespace ne_ip.daemon_rows

/-! ## What the forwarder writes into a slot -/

/-- The two configurations differ only in what no row says: addresses, queues and settings. -/
structure SameRows (a b : AppConfig) : Prop where
  lans : lan_names b = lan_names a
  wans : b.wans.map (fun w => (w.ifname, w.dst_ip)) = a.wans.map fun w => (w.ifname, w.dst_ip)
  profiles : b.profiles = a.profiles
  policies : b.policies = a.policies

theorem SameRows.refl (a : AppConfig) : SameRows a a := ⟨rfl, rfl, rfl, rfl⟩

theorem SameRows.trans {a b c : AppConfig} (h : SameRows a b) (h' : SameRows b c) : SameRows a c :=
  ⟨h'.lans.trans h.lans, h'.wans.trans h.wans, h'.profiles.trans h.profiles,
    h'.policies.trans h.policies⟩

theorem SameRows.links {a b : AppConfig} (h : SameRows a b) (p : ProfileConfig) :
    wan_links b p = wan_links a p := by
  refine List.filterMap_congr fun w _ => ?_
  have hat := congrArg (fun l => l[w.1]?) h.wans
  rw [List.getElem?_map, List.getElem?_map] at hat
  have hlink := congrArg (Option.map fun e : Bytes × UInt32 => (e.1, e.2, w.2)) hat
  rw [Option.map_map, Option.map_map] at hlink
  exact hlink

theorem SameRows.hasRows {a b : AppConfig} (h : SameRows a b) {db : Db} {ids : List Int}
    (ha : HasRows db ids a) : HasRows db ids b := by
  have hwans : b.wans.length = a.wans.length := by
    have hlen := congrArg List.length h.wans
    rwa [List.length_map, List.length_map] at hlen
  have hview : view b = view a := by
    funext p
    unfold view
    rw [h.lans, h.policies]
  have hlinks : wan_links b = wan_links a := funext h.links
  refine ⟨⟨?_, ?_, ?_, ?_, ?_⟩, ?_, ?_, ?_, ?_, ?_⟩
  · rw [h.profiles]
    exact ha.enabled
  · rw [h.profiles, h.lans]
    exact ha.locals
  · unfold WansInRange
    rw [h.profiles, hwans]
    exact ha.wans
  · rw [h.profiles]
    exact ha.weights
  · rw [h.profiles, h.policies]
    exact ha.policies
  · rw [h.profiles]
    exact ha.profile_ids
  · rw [h.lans]
    exact ha.names
  · rw [h.lans]
    exact ha.fit
  · rw [h.profiles, hview]
    exact ha.views
  · rw [h.profiles, hlinks]
    exact ha.links

/-- The configuration has the rows of profiles in a database that a notification found. -/
def FromRows (found : Db → Prop) (cfg : AppConfig) : Prop :=
  ∃ db ids, found db ∧ HasRows db ids cfg

theorem FromRows.same {found : Db → Prop} {a b : AppConfig} (h : FromRows found a)
    (hs : SameRows a b) : FromRows found b := by
  obtain ⟨db, ids, hdb, hrows⟩ := h
  exact ⟨db, ids, hdb, hs.hasRows hrows⟩

section

variable {found : Db → Prop} {o : Openssl}

theorem SlotsFromRows.set {d : Daemon} {slots : Fin 2 → AppConfig} {s : Fin 2} {cfg : AppConfig}
    (h : ∀ i, d.rt.fwd_cfg = some i → FromRows found (slots i)) (hcfg : FromRows found cfg)
    {i : Fin 2} (hi : d.rt.fwd_cfg = some i) : FromRows found (set_slot slots s cfg i) := by
  unfold set_slot
  split
  · exact hcfg
  · exact h i hi

/-- A notification that found a database of the kind. -/
def Finds (found : Db → Prop) (_ : Daemon) (e : Event) : Prop := ∀ n, e = .notify n → found n.db

end

/-! ## The law -/

end ne_ip.daemon_rows
