-- What the rows of the database mean for a packet: from which profile its LAN interface is, which
-- row of ne_policies it gets and over which row of ne_wan it may leave.
import NeIp.MergedRows
import NeIp.PolicyLoad

open byte_buf c_text index_list ne_ip.packet_crypto ne_ip.config ne_ip.db_runtime ne_ip.flow
open ne_ip.flow_table ne_ip.merge_order ne_ip.merge_sources ne_ip.merge_select ne_ip.merged_rows
open ne_ip.policy_rows ne_ip.policy_select ne_ip.row_meaning ne_ip.hex_key ne_ip.wan_peers
open ne_ip.wan_select
open ne_ip.policy_load hiding POLICY_PROTO_ANY

namespace ne_ip.row_semantics

/-! ## What the rows say -/

/-- One of the addresses of a column takes the address. -/
def takes_address (joined : Text) (invert : Bool) (ip : UInt32) : Bool :=
  (ne_fill_str_list joined).any fun t => cidr_matches (item_cidr t invert) ip

def takes_port (joined : Text) (port : Nat) : Bool :=
  (ne_fill_str_list joined).any fun t => port_match (item_ports t).1 (item_ports t).2 port

/-- A row of `ne_policies` takes a flow in its direction. -/
def takes (row : PolicyColumns) (f : FlowKey) : Bool :=
  takes_address row.src_ip row.invert_src_ip f.src_ip &&
    takes_address row.dst_ip row.invert_dst_ip f.dst_ip &&
    takes_port row.src_port f.src_port && takes_port row.dst_port f.dst_port &&
    (row_protocol row == POLICY_PROTO_ANY || row_protocol row == f.protocol)

/-- A row for one protocol, or for any, that takes the flow or its way back. -/
def row_in_pass (any : Bool) (f : FlowKey) (row : PolicyColumns) : Bool :=
  (row_protocol row == POLICY_PROTO_ANY) == any && (takes row f || takes row (reverse f))

/-- The first row for one protocol, or else the first for any. -/
def row_for (rows : List PolicyColumns) (f : FlowKey) : Option PolicyColumns :=
  (rows.find? (row_in_pass false f)).or (rows.find? (row_in_pass true f))

/-- The first policy for one protocol, or else the first for any, of those that match the flow. -/
def first_policy (policies : List CryptoPolicy) (f : FlowKey) : Option CryptoPolicy :=
  (policies.find? (taken_in_pass false f)).or (policies.find? (taken_in_pass true f))

/-- The rows of `ne_policies` of a profile, in the order of their ids. -/
def policies_of (tables : Int → Option ProfileColumns) (id : Int) : List PolicyColumns :=
  ((tables id).bind (·.policies)).getD []

/-- The rows of `ne_wan` over which the packets of a profile leave: those with a positive weight,
or all when there is none. -/
def wan_choices (rows : List (Bytes × UInt32 × Int)) : List (Bytes × UInt32 × Int) :=
  let rows := rows.filter name_fits
  if rows.any fun row => decide (0 < row.2.2) then rows.filter fun row => decide (0 < row.2.2)
  else rows

/-- The choices of a LAN interface; without a profile there are none. -/
def wan_choices_of (db : Db) (ids : List Int) (ifname : Bytes) : List (Bytes × UInt32 × Int) :=
  ((profile_of db ids ifname).map fun id => wan_choices (wan_rows db id)).getD []

/-- A configuration treats the packets of its LAN interfaces as the rows say: the policy is the
first of the profile, and the WAN interface is under the name of a row that has the say, with the
peer of the first row of that name. Only without such a row the flow table is asked. -/
structure Follows (db : Db) (ids : List Int) (cfg : AppConfig) : Prop where
  policy : ∀ i loc, cfg.locals[i]? = some loc → ∀ f,
    (crypto_select_policy_for_local cfg i f).map (policy_at cfg) =
      (((profile_of db ids loc.ifname).bind fun id =>
        first_policy (policy_rows db id) f).map without_id).map some
  no_wan : ∀ i loc, cfg.locals[i]? = some loc → wan_choices_of db ids loc.ifname = [] →
    ∀ undef now g f pkt_len, select_wan_idx_for_packet undef now cfg g i f pkt_len =
      let r := flow_table_get_wan undef now g.next_wan g.g_flow_table f pkt_len
      (r.1, { g with next_wan := r.2.1, g_flow_table := r.2.2 })
  wan : ∀ i loc, cfg.locals[i]? = some loc → wan_choices_of db ids loc.ifname ≠ [] →
    ∀ undef now g f pkt_len, ∃ (w : Nat) (wan : WanConfig) (seq : Nat),
      select_wan_idx_for_packet undef now cfg g i f pkt_len =
        (↑w, { g with g_pkt_wrr_seq := seq }) ∧
      cfg.wans[w]? = some wan ∧ ∃ row ∈ wan_choices_of db ids loc.ifname, wan.ifname = row.1 ∧
        first_peer (ids.flatMap (wan_rows db)) row.1 = some wan.dst_ip

/-- The policy has the settings of the row. -/
structure Carries (sha256 : Text → Vector UInt8 SHA256_DIGEST_LENGTH) (row : PolicyColumns)
    (cp : CryptoPolicy) : Prop where
  db_id : cp.db_id = row.id
  priority : cp.priority = row.priority
  action : cp.action = row_action row
  protocol : cp.protocol = row_protocol row
  crypto : row_action row ≠ .bypass → cp.crypto_mode = (row_method row).1 ∧
    cp.aes_bits = aes_bits_of row ∧ cp.nonce_size = row_nonce_size row ∧ cp.key = row_key sha256 row

/-! ## The first row and the first policy -/

section

variable {sha256 : Text → Vector UInt8 SHA256_DIGEST_LENGTH}

/-- Only the id may differ. -/
theorem Carries.congr {row : PolicyColumns} {cp cp' : CryptoPolicy} (h : Carries sha256 row cp)
    (hsame : without_id cp' = without_id cp) : Carries sha256 row cp' := by
  have hfield : ∀ {β : Type} (field : CryptoPolicy → β),
      (∀ q, field (without_id q) = field q) → field cp' = field cp := by
    intro β field hid
    rw [← hid cp', ← hid cp, hsame]
  refine ⟨?_, ?_, ?_, ?_, fun hact => ?_⟩
  · rw [hfield (·.db_id) fun _ => rfl]
    exact h.db_id
  · rw [hfield (·.priority) fun _ => rfl]
    exact h.priority
  · rw [hfield (·.action) fun _ => rfl]
    exact h.action
  · rw [hfield (·.protocol) fun _ => rfl]
    exact h.protocol
  · rw [hfield (·.crypto_mode) fun _ => rfl, hfield (·.aes_bits) fun _ => rfl,
      hfield (·.nonce_size) fun _ => rfl, hfield (·.key) fun _ => rfl]
    exact h.crypto hact

/-- What an expansion leaves of the row that it is of. -/
theorem Carries.of_fetched {row : PolicyColumns} {fetched : FetchedRow} {cp : CryptoPolicy}
    (h : Fetched sha256 row fetched) (hcp : cp ∈ expansion fetched) : Carries sha256 row cp := by
  obtain ⟨src_item, dst_item, sp_item, dp_item, rfl⟩ := mem_expansion hcp
  rcases h with ⟨hact, rfl⟩ | ⟨hact, j, rfl⟩
  · exact ⟨rfl, rfl, hact.symm, rfl, fun hne => absurd hact hne⟩
  · exact ⟨rfl, rfl, rfl, rfl, fun _ => ⟨rfl, rfl, rfl, rfl⟩⟩

/-- An expansion matches a flow if the row takes it. -/
theorem expansion_takes_iff {row : PolicyColumns} {fetched : FetchedRow}
    (h : Fetched sha256 row fetched) (f : FlowKey) :
    (∃ cp ∈ expansion fetched, crypto_policy_match_packet cp f = true) ↔ takes row f = true := by
  have hsame : ∀ base : CryptoPolicy, base.protocol = row_protocol row →
      ((∃ cp ∈ expansion (with_lists row base), crypto_policy_match_packet cp f = true) ↔
        takes row f = true) := by
    intro base hproto
    rw [expansion_matches_iff]
    unfold takes takes_address takes_port with_lists
    simp only [Bool.and_eq_true, Bool.or_eq_true, List.any_eq_true, beq_iff_eq, and_assoc, hproto]
  rcases h with ⟨-, rfl⟩ | ⟨-, j, rfl⟩
  · exact hsame _ rfl
  · exact hsame _ rfl

theorem expansion_in_pass_iff {row : PolicyColumns} {fetched : FetchedRow}
    (h : Fetched sha256 row fetched) (any : Bool) (f : FlowKey) :
    (∃ cp ∈ expansion fetched, taken_in_pass any f cp = true) ↔ row_in_pass any f row = true := by
  have hproto : ∀ cp ∈ expansion fetched, cp.protocol = row_protocol row :=
    fun cp hcp => (Carries.of_fetched h hcp).protocol
  unfold taken_in_pass row_in_pass
  rw [Bool.and_eq_true, Bool.or_eq_true, ← expansion_takes_iff h f, ← expansion_takes_iff h]
  constructor
  · rintro ⟨cp, hcp, htaken⟩
    rw [Bool.and_eq_true, Bool.or_eq_true, hproto cp hcp] at htaken
    exact ⟨htaken.1, htaken.2.imp (fun hm => ⟨cp, hcp, hm⟩) fun hm => ⟨cp, hcp, hm⟩⟩
  · rintro ⟨hany, ⟨cp, hcp, hm⟩ | ⟨cp, hcp, hm⟩⟩
    · exact ⟨cp, hcp, by rw [hproto cp hcp, hany, hm, Bool.true_or, Bool.true_and]⟩
    · exact ⟨cp, hcp, by rw [hproto cp hcp, hany, hm, Bool.or_true, Bool.true_and]⟩

/-- The first policy of a pass is one of the first row of the pass. -/
theorem find_expansion {rows : List PolicyColumns} {fs : List FetchedRow}
    (h : List.Forall₂ (Fetched sha256) rows fs) (any : Bool) (f : FlowKey) :
    Option.Rel (Carries sha256) (rows.find? (row_in_pass any f))
      ((fs.flatMap expansion).find? (taken_in_pass any f)) := by
  induction h with
  | nil => exact Option.Rel.none
  | @cons row fetched rows fs hone hall ih =>
    rw [List.find?_cons, List.flatMap_cons, List.find?_append]
    cases hrow : row_in_pass any f row with
    | true =>
      have hfound := (expansion_in_pass_iff hone any f).mpr hrow
      rw [← List.find?_isSome] at hfound
      obtain ⟨cp, hcp⟩ := Option.isSome_iff_exists.mp hfound
      rw [hcp, Option.some_or]
      exact Option.Rel.some (Carries.of_fetched hone (List.mem_of_find?_eq_some hcp))
    | false =>
      have hnone : (expansion fetched).find? (taken_in_pass any f) = none := by
        rw [List.find?_eq_none]
        intro cp hcp htaken
        have htrue := (expansion_in_pass_iff hone any f).mp ⟨cp, hcp, htaken⟩
        rw [hrow] at htrue
        exact absurd htrue Bool.false_ne_true
      rw [hnone, Option.none_or]
      exact ih

theorem rel_or {α β : Type} {r : α → β → Prop} {a a' : Option α} {b b' : Option β}
    (h : Option.Rel r a b) (h' : Option.Rel r a' b') : Option.Rel r (a.or a') (b.or b') := by
  cases h with
  | some hr => exact Option.Rel.some hr
  | none => exact h'

/-- Both passes together. -/
theorem find_row_for {rows : List PolicyColumns} {ps : List CryptoPolicy}
    (h : load_rows sha256 rows = some ps) (f : FlowKey) :
    Option.Rel (Carries sha256) (row_for rows f) (first_policy ps f) := by
  obtain ⟨fs, hfs, rfl, -⟩ := load_rows_some h
  have hall := fetch_rows_fetched hfs
  exact rel_or (find_expansion hall false f) (find_expansion hall true f)

/-! ## The policy of a packet -/

variable {tables : Int → Option ProfileColumns} {ids : List Int} {cfg : AppConfig}

theorem selects_policy {db : Db} (h : HasRows db ids cfg) {i : Nat} {loc : LocalConfig}
    (hi : cfg.locals[i]? = some loc) (f : FlowKey) :
    (crypto_select_policy_for_local cfg i f).map (policy_at cfg) =
      (((profile_of db ids loc.ifname).bind fun id =>
        first_policy (policy_rows db id) f).map without_id).map some := by
  unfold crypto_select_policy_for_local
  rcases h.profile_of_local hi with ⟨hnone, hsel⟩ | ⟨id, k, p, hid, -, hsel, hp, hreads, -⟩
  · rw [hnone, hsel]
    rfl
  · have hfind : ∀ any, ((policy_rows db id).map without_id).find? (taken_in_pass any f) =
        ((policy_rows db id).find? (taken_in_pass any f)).map without_id := by
      intro any
      rw [List.find?_map]
      rfl
    rw [hid, hsel, Option.bind_some, Option.bind_some, config_select_crypto_policy_entry hp, hreads,
      hfind, hfind, ← Option.map_or]
    rfl

theorem policies_of_loaded (h : build_merged_config (database sha256 tables) ids = some cfg)
    {id : Int} (hid : id ∈ ids) :
    load_rows sha256 (policies_of tables id) = some (policy_rows (database sha256 tables) id) := by
  rw [build_merged_config_sources] at h
  obtain ⟨sources, hsources, -⟩ := Option.bind_eq_some_iff.mp h
  obtain ⟨-, hload⟩ := loads_some hsources
  obtain ⟨p, rows, hp, hrows, hps⟩ := config_load_from_db_rows (hload id hid)
  have hof : policies_of tables id = rows := by
    unfold policies_of
    rw [hp, Option.bind_some, hrows]
    rfl
  have hexpanded : policy_rows (database sha256 tables) id =
      (loaded (database sha256 tables) id).policies := by
    unfold policy_rows database
    rw [hp, Option.map_some, Option.bind_some]
    unfold profile_rows
    dsimp only
    rw [hrows, Option.bind_some, hps]
    rfl
  rw [hof, hexpanded]
  exact hps

/-- A packet from a LAN interface gets the first row of its profile that takes its flow in either
direction, the rows for one protocol before those for any, and no policy without such a row. -/
theorem a_packet_gets_the_first_row_that_takes_it
    (h : build_merged_config (database sha256 tables) ids = some cfg) {i : Nat} {loc : LocalConfig}
    (hi : cfg.locals[i]? = some loc) (f : FlowKey) :
    Option.Rel (fun row pi => ∃ cp, cfg.policies[pi]? = some cp ∧ Carries sha256 row cp)
      ((profile_of (database sha256 tables) ids loc.ifname).bind fun id =>
        row_for (policies_of tables id) f)
      (crypto_select_policy_for_local cfg i f) := by
  have hentry := selects_policy (build_merged_config_hasRows h) hi f
  have hfound : Option.Rel (Carries sha256)
      ((profile_of (database sha256 tables) ids loc.ifname).bind fun id =>
        row_for (policies_of tables id) f)
      ((profile_of (database sha256 tables) ids loc.ifname).bind fun id =>
        first_policy (policy_rows (database sha256 tables) id) f) := by
    cases hid : profile_of (database sha256 tables) ids loc.ifname with
    | none => exact Option.Rel.none
    | some id =>
      exact find_row_for (policies_of_loaded h (List.mem_of_find?_eq_some hid)) f
  revert hentry hfound
  generalize (Option.bind _ _ : Option PolicyColumns) = row
  generalize (Option.bind _ _ : Option CryptoPolicy) = found
  intro hentry hfound
  cases hfound with
  | none =>
    rw [Option.map_none, Option.map_none, Option.map_eq_none_iff] at hentry
    rw [hentry]
    exact Option.Rel.none
  | @some row cp hcarries =>
    obtain ⟨pi, hpi, hat⟩ := Option.map_eq_some_iff.mp hentry
    obtain ⟨cp', hcp', hsame⟩ := Option.map_eq_some_iff.mp hat
    rw [hpi]
    exact Option.Rel.some ⟨cp', hcp', hcarries.congr hsame⟩

/-- Two profiles that share `lan0`; the second has `lan1` alone. -/
def sharedLan (id : Int) : Option ProfileColumns :=
  if id = 1 then some
    { lans := some [[108, 97, 110, 48]]
      wans := some [([119, 97, 110, 48], 0, 1)]
      policies := some [dnsRow] }
  else if id = 2 then some
    { lans := some [[108, 97, 110, 48], [108, 97, 110, 49]]
      wans := some [([119, 97, 110, 48], 0, 1)]
      policies := some [webRow] }
  else none

/-- TCP to port 80. -/
def toPort80 : FlowKey := ⟨0x0101000a, 0x08080808, 40000, 80, 6⟩

theorem only_the_lan_of_the_second_profile_gets_its_row : ∃ cfg,
    build_merged_config (database digests sharedLan) [1, 2] = some cfg ∧
    crypto_select_policy_for_local cfg 0 toPort80 = none ∧
    ∃ pi cp, crypto_select_policy_for_local cfg 1 toPort80 = some pi ∧
      cfg.policies[pi]? = some cp ∧ Carries digests webRow cp := by
  have hmerge : (build_merged_config (database digests sharedLan) [1, 2]).map lan_names =
      some [[108, 97, 110, 48], [108, 97, 110, 49]] := by decide +kernel
  obtain ⟨cfg, hcfg, hnames⟩ := Option.map_eq_some_iff.mp hmerge
  have hlocal : ∀ (i : Nat) (name : Bytes), (lan_names cfg)[i]? = some name →
      ∃ loc : LocalConfig, cfg.locals[i]? = some loc ∧ loc.ifname = name := by
    intro i name hi
    unfold lan_names at hi
    rw [List.getElem?_map] at hi
    exact Option.map_eq_some_iff.mp hi
  obtain ⟨lan0, h0, hname0⟩ := hlocal 0 [108, 97, 110, 48] (by rw [hnames]; rfl)
  obtain ⟨lan1, h1, hname1⟩ := hlocal 1 [108, 97, 110, 49] (by rw [hnames]; rfl)
  -- the first profile has `lan0`, and no row of it takes the flow
  have hno : ((profile_of (database digests sharedLan) [1, 2] [108, 97, 110, 48]).bind fun id =>
      row_for (policies_of sharedLan id) toPort80) = none := rfl
  have hweb : ((profile_of (database digests sharedLan) [1, 2] [108, 97, 110, 49]).bind fun id =>
      row_for (policies_of sharedLan id) toPort80) = some webRow := rfl
  have hfirst := a_packet_gets_the_first_row_that_takes_it hcfg h0 toPort80
  have hsecond := a_packet_gets_the_first_row_that_takes_it hcfg h1 toPort80
  rw [hname0, hno] at hfirst
  rw [hname1, hweb] at hsecond
  refine ⟨cfg, hcfg, ?_, ?_⟩
  · cases hsel : crypto_select_policy_for_local cfg 0 toPort80 with
    | none => rfl
    | some pi =>
      rw [hsel] at hfirst
      cases hfirst
  · cases hsel : crypto_select_policy_for_local cfg 1 toPort80 with
    | none =>
      rw [hsel] at hsecond
      cases hsecond
    | some pi =>
      rw [hsel] at hsecond
      cases hsecond with
      | some hfound =>
        obtain ⟨cp, hcp, hcarries⟩ := hfound
        exact ⟨pi, cp, rfl, hcp, hcarries⟩

end

/-! ## The WAN interface of a packet -/

section

variable {db : Db} {ids : List Int} {cfg : AppConfig}

theorem wan_entries_zip {p : ProfileConfig}
    (h : p.wan_bandwidth_weight.length = p.wan_indices.length) :
    wan_entries p = p.wan_indices.zip p.wan_bandwidth_weight := by
  unfold wan_entries
  refine List.ext_getElem ?_ fun k h1 h2 => ?_
  · rw [List.length_map, List.length_zipIdx, List.length_zip, h, Nat.min_self]
  · rw [List.length_zip] at h2
    have hk : k < p.wan_bandwidth_weight.length := by omega
    rw [List.getElem_map, List.getElem_zipIdx, List.getElem_zip, Nat.zero_add,
      List.getD_eq_getElem _ _ hk]

end

end ne_ip.row_semantics
