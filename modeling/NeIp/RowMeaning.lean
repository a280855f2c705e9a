-- What a row of ne_policies means, and what the policies that it is expanded to match: an
-- inverted list is negated item by item, not as a whole.
import Mathlib.Data.Set.Basic
import NeIp.PolicyRows
import NeIp.PolicySelect

open c_text ne_ip.config ne_ip.flow ne_ip.policy_rows ne_ip.policy_select

namespace ne_ip.row_meaning

/-- A row of `ne_policies` as it is stored: the four lists are arrays of texts. -/
structure PolicyRow where
  cp_base : CryptoPolicy
  src_ip : List Text := []
  invert_src_ip : Bool := false
  dst_ip : List Text := []
  invert_dst_ip : Bool := false
  src_port : List Text := []
  dst_port : List Text := []

/-- The row in the result of the query, which joins the arrays with `array_to_string`. -/
def PolicyRow.fetched (row : PolicyRow) : FetchedRow where
  cp_base := row.cp_base
  src_joined := join 44 row.src_ip
  invert_src := row.invert_src_ip
  dst_joined := join 44 row.dst_ip
  invert_dst := row.invert_dst_ip
  sport_joined := join 44 row.src_port
  dport_joined := join 44 row.dst_port

/-- An item as it is read: without blanks at the ends, and of a longer one the first bytes. -/
def kept (t : Text) : Text := (trim t).take (MAX_CIDR_ITEM_LEN - 1)

/-! ## The meaning of a row -/

/-- The networks of a list. -/
def networks (items : List Text) : List Cidr :=
  items.filterMap fun t => parse_cidr_any_or_negated (kept t)

/-- The port ranges of a list. -/
def ranges (items : List Text) : List (Int × Int) :=
  items.filterMap fun t => parse_port_range (kept t)

/-- The addresses of a network. -/
def network (c : Cidr) : Set UInt32 := {ip | ip &&& c.mask = c.net &&& c.mask}

/-- The addresses that a list accepts: those of one of its networks, or of none of them when it
is inverted. An item with a `!` of its own is negated once. -/
def accepted (items : List Cidr) (invert : Bool) : Set UInt32 :=
  {ip | items = [] ∨ (∃ c ∈ items, c.any = true) ∨
    if invert then ∀ c ∈ items, ip ∉ network c
    else ∃ c ∈ items, ip ∈ network c ↔ c.negate = false}

/-- The ports that a list accepts. -/
def accepted_ports (rs : List (Int × Int)) : Set Nat :=
  {port | rs = [] ∨ ∃ r ∈ rs, r = (-1, -1) ∨ (r.1 ≤ port ∧ (port : Int) ≤ r.2)}

/-- A packet satisfies a row. -/
structure PolicyRow.Satisfied (row : PolicyRow) (f : FlowKey) : Prop where
  src_ip : f.src_ip ∈ accepted (networks row.src_ip) row.invert_src_ip
  dst_ip : f.dst_ip ∈ accepted (networks row.dst_ip) row.invert_dst_ip
  src_port : f.src_port ∈ accepted_ports (ranges row.src_port)
  dst_port : f.dst_port ∈ accepted_ports (ranges row.dst_port)
  protocol : row.cp_base.protocol = POLICY_PROTO_ANY ∨ row.cp_base.protocol = f.protocol

/-- The items of a list are not too many, can stand in a list and all parse. -/
structure ListParses (parses : Text → Bool) (items : List Text) : Prop where
  count : items.length ≤ MAX_CIDR_LIST_ITEMS
  joined : (join 44 items).length < 1024
  separable : Items 44 items
  parsed : ∀ t ∈ items, parses (kept t) = true

structure PolicyRow.Parses (row : PolicyRow) : Prop where
  src_ip : ListParses (fun t => (parse_cidr_any_or_negated t).isSome) row.src_ip
  dst_ip : ListParses (fun t => (parse_cidr_any_or_negated t).isSome) row.dst_ip
  src_port : ListParses (fun t => (parse_port_range t).isSome) row.src_port
  dst_port : ListParses (fun t => (parse_port_range t).isSome) row.dst_port

/-! ## The lists are split as they were joined -/

theorem ne_fill_str_list_join {parses : Text → Bool} {items : List Text}
    (h : ListParses parses items) :
    ne_fill_str_list (join 44 items) = if items = [] then [ANY] else items.map kept := by
  by_cases hnil : items = []
  · subst hnil
    rfl
  have htrim := tokens_trim_join h.separable
  -- the text is not blank, so it is not replaced by ANY
  have hbuf : trim (join 44 items) ≠ [] := by
    intro hempty
    rw [hempty] at htrim
    exact hnil (List.map_eq_nil_iff.mp htrim.symm)
  have hjoined : join 44 items ≠ [] := by
    intro hempty
    rw [hempty] at hbuf
    exact hbuf rfl
  have hempty : ([] : Text) ∉ items.map trim := by
    intro hmem
    obtain ⟨t, ht, hblank⟩ := List.mem_map.mp hmem
    obtain ⟨b, rest, hhead, -⟩ := trim_head (h.separable t ht).2
    rw [hblank] at hhead
    exact List.cons_ne_nil b rest hhead.symm
  have hlen : ¬MAX_CIDR_LIST_ITEMS < (items.map trim).length := by
    rw [List.length_map]
    exact Nat.not_lt.mpr h.count
  unfold ne_fill_str_list split_cidr_list
  rw [if_neg hjoined, if_neg hnil, List.take_of_length_le (Nat.le_of_lt_succ h.joined),
    if_neg hbuf]
  dsimp only
  rw [htrim, if_neg]
  · rw [Option.getD_some, List.map_map]
    rfl
  · rw [List.contains_iff_mem, List.map_eq_nil_iff]
    rintro (hlong | hmem | hno)
    · exact hlen hlong
    · exact hempty hmem
    · exact hnil hno

/-! ## An item and its inverted form -/

/-- An item starts with a byte that is not blank and fits its buffer. -/
theorem kept_head {t : Text} (h : NonBlank t) :
    ∃ b rest, kept t = b :: rest ∧ isBlank b = false ∧ (b :: rest).length < MAX_CIDR_ITEM_LEN := by
  obtain ⟨b, rest, htrim, hb⟩ := trim_head h
  refine ⟨b, rest.take 94, ?_, hb, ?_⟩
  · unfold kept
    rw [htrim]
    rfl
  · rw [List.length_cons, List.length_take]
    exact Nat.lt_of_le_of_lt (Nat.succ_le_succ (Nat.min_le_left 94 _)) (by decide)

/-- An any form starts with a letter or a star. -/
theorem str_is_any_head {b : UInt8} {rest : Text} (hb : isBlank b = false)
    (h : str_is_any (b :: rest) = true) : b ≠ 33 ∧ isDigit b = false := by
  unfold str_is_any at h
  rw [ltrim_cons hb] at h
  simp only [Bool.or_eq_true, beq_iff_eq] at h
  rcases h with (h | h) | h
  · exact absurd h (List.cons_ne_nil _ _)
  · unfold same_letters at h
    have hletter := (List.cons.inj (beq_iff_eq.mp h)).1
    refine ⟨?_, ?_⟩
    · rintro rfl
      exact absurd hletter (by decide)
    · rw [Bool.eq_false_iff]
      intro hdigit
      simp only [isDigit, Bool.and_eq_true, decide_eq_true_eq] at hdigit
      dsimp only at hletter
      split at hletter
      · rename_i hupper
        simp only [Bool.and_eq_true, decide_eq_true_eq] at hupper
        exact absurd (UInt8.le_trans hupper.1 hdigit.2) (by decide)
      · subst hletter
        exact absurd hdigit.2 (by decide)
  · obtain rfl := (List.cons.inj h).1
    exact ⟨by decide, by decide⟩

/-- A network starts with a digit. -/
theorem parse_ip_cidr_head {b : UInt8} {rest : Text} {c : UInt32 × UInt32}
    (hb : isBlank b = false) (h : parse_ip_cidr (b :: rest) = some c) : isDigit b = true := by
  unfold parse_ip_cidr at h
  dsimp only at h
  split at h
  · simp at h
  rename_i ip hip
  obtain ⟨d, ds, hd, hdigit⟩ := inet_pton_head hip
  rw [List.take_succ_cons] at hd
  by_cases hslash : (b != 47) = true
  · rw [List.takeWhile_cons, if_pos hslash, ltrim_cons hb] at hd
    rw [(List.cons.inj hd).1]
    exact hdigit
  · rw [List.takeWhile_cons, if_neg hslash] at hd
    exact absurd hd (List.cons_ne_nil d ds).symm

theorem str_is_any_bang (v : Text) : str_is_any (33 :: v) = false := by
  rw [Bool.eq_false_iff]
  exact fun h => (str_is_any_head (by decide) h).1 rfl

theorem parse_bang (v : Text) : parse_cidr_any_or_negated (33 :: v) =
    (parse_ip_cidr (ltrim v)).map fun c => ⟨false, true, c.1, c.2⟩ := by
  unfold parse_cidr_any_or_negated
  rw [if_neg (by rw [str_is_any_bang]; exact Bool.false_ne_true), ltrim_cons (by decide)]
  rfl

theorem parse_plain {b : UInt8} {rest : Text} (hb : isBlank b = false) (hbang : b ≠ 33) :
    parse_cidr_any_or_negated (b :: rest) = if str_is_any (b :: rest) then some anyCidr
      else (parse_ip_cidr (b :: rest)).map fun c => ⟨false, false, c.1, c.2⟩ := by
  unfold parse_cidr_any_or_negated
  rw [ltrim_cons hb]
  split
  · rfl
  · split
    · rename_i v hv
      exact absurd (List.cons.inj hv).1 hbang
    · rfl

/-- What the inverted text of an item parses to: any stays any, a network is negated. -/
theorem parse_inverted {b : UInt8} {rest : Text} {c : Cidr} (invert : Bool)
    (hb : isBlank b = false) (hlen : (b :: rest).length < MAX_CIDR_ITEM_LEN)
    (h : parse_cidr_any_or_negated (b :: rest) = some c) :
    (parse_cidr_any_or_negated (ne_cidr_buf_with_invert (b :: rest) invert)).getD anyCidr =
      if invert = true ∧ c.any = false then { c with negate := true } else c := by
  have hall : ∀ n, MAX_CIDR_ITEM_LEN ≤ n → (b :: rest).take n = b :: rest :=
    fun n hn => List.take_of_length_le (hlen.le.trans hn)
  unfold ne_cidr_buf_with_invert
  rw [hall _ (Nat.le_refl _), hall _ (Nat.le_succ _), List.head?_cons]
  cases invert with
  | false =>
    rw [if_neg (by simp), if_neg (by simp), h]
    rfl
  | true =>
    by_cases hbang : b = 33
    · subst hbang
      rw [if_neg (by simp), h]
      rw [parse_bang] at h
      obtain ⟨d, -, rfl⟩ := Option.map_eq_some_iff.mp h
      rfl
    · rw [if_pos ⟨rfl, by simpa using hbang⟩, parse_bang, ltrim_cons hb]
      rw [parse_plain hb hbang] at h
      split at h
      · rename_i hany
        obtain rfl := Option.some.inj h
        cases hcidr : parse_ip_cidr (b :: rest) with
        | none => rfl
        | some d =>
          have hdigit := parse_ip_cidr_head hb hcidr
          rw [(str_is_any_head hb hany).2] at hdigit
          exact absurd hdigit Bool.false_ne_true
      · obtain ⟨d, hd, rfl⟩ := Option.map_eq_some_iff.mp h
        rw [hd]
        rfl

/-! ## What the expanded policies match -/

/-- The addresses that the policies of a list match: an inverted list matches outside of any one
of its networks. -/
def matched (items : List Cidr) (invert : Bool) : Set UInt32 :=
  {ip | items = [] ∨ (∃ c ∈ items, c.any = true) ∨
    if invert then ∃ c ∈ items, ip ∉ network c
    else ∃ c ∈ items, ip ∈ network c ↔ c.negate = false}

/-- The test of an address against one parsed item. -/
def cidr_matches (c : Cidr) (ip : UInt32) : Bool :=
  cidr_match_with_negate c.any c.negate ip c.net c.mask

theorem cidr_matches_iff (c : Cidr) (ip : UInt32) :
    cidr_matches c ip = true ↔ c.any = true ∨ (ip ∈ network c ↔ c.negate = false) := by
  unfold cidr_matches cidr_match_with_negate network
  rw [Set.mem_ofPred_eq]
  by_cases hany : c.any = true
  · rw [if_pos hany]
    exact ⟨fun _ => Or.inl hany, fun _ => rfl⟩
  · rw [if_neg hany]
    cases c.negate <;> simp [hany]

/-- The parsed text of an item in the list of a row. -/
def item_cidr (t : Text) (invert : Bool) : Cidr :=
  (parse_cidr_any_or_negated (ne_cidr_buf_with_invert t invert)).getD anyCidr

def item_ports (t : Text) : Int × Int := (parse_port_range t).getD (-1, -1)

/-- A tuple is matched by a policy of the expansion if each side matches an item of its list. -/
theorem expansion_matches_iff (row : FetchedRow) (f : FlowKey) :
    (∃ cp ∈ expansion row, crypto_policy_match_packet cp f = true) ↔
      (∃ t ∈ ne_fill_str_list row.src_joined,
        cidr_matches (item_cidr t row.invert_src) f.src_ip = true) ∧
      (∃ t ∈ ne_fill_str_list row.dst_joined,
        cidr_matches (item_cidr t row.invert_dst) f.dst_ip = true) ∧
      (∃ t ∈ ne_fill_str_list row.sport_joined,
        port_match (item_ports t).1 (item_ports t).2 f.src_port = true) ∧
      (∃ t ∈ ne_fill_str_list row.dport_joined,
        port_match (item_ports t).1 (item_ports t).2 f.dst_port = true) ∧
      (row.cp_base.protocol = POLICY_PROTO_ANY ∨ row.cp_base.protocol = f.protocol) := by
  have hmatch : ∀ s d sp dp,
      crypto_policy_match_packet (expanded_policy row s d sp dp) f = true ↔
        cidr_matches (item_cidr s row.invert_src) f.src_ip = true ∧
        cidr_matches (item_cidr d row.invert_dst) f.dst_ip = true ∧
        port_match (item_ports sp).1 (item_ports sp).2 f.src_port = true ∧
        port_match (item_ports dp).1 (item_ports dp).2 f.dst_port = true ∧
        (row.cp_base.protocol = POLICY_PROTO_ANY ∨ row.cp_base.protocol = f.protocol) := by
    intro s d sp dp
    unfold crypto_policy_match_packet
    simp only [Bool.and_eq_true, Bool.or_eq_true, beq_iff_eq, and_assoc]
    exact Iff.rfl
  constructor
  · rintro ⟨cp, hcp, hm⟩
    obtain ⟨s, hs, hcp⟩ := List.mem_flatMap.mp hcp
    obtain ⟨d, hd, hcp⟩ := List.mem_flatMap.mp hcp
    obtain ⟨sp, hsp, hcp⟩ := List.mem_flatMap.mp hcp
    obtain ⟨dp, hdp, rfl⟩ := List.mem_map.mp hcp
    obtain ⟨hms, hmd, hmsp, hmdp, hproto⟩ := (hmatch s d sp dp).mp hm
    exact ⟨⟨s, hs, hms⟩, ⟨d, hd, hmd⟩, ⟨sp, hsp, hmsp⟩, ⟨dp, hdp, hmdp⟩, hproto⟩
  · rintro ⟨⟨s, hs, hms⟩, ⟨d, hd, hmd⟩, ⟨sp, hsp, hmsp⟩, ⟨dp, hdp, hmdp⟩, hproto⟩
    refine ⟨expanded_policy row s d sp dp, ?_, (hmatch s d sp dp).mpr
      ⟨hms, hmd, hmsp, hmdp, hproto⟩⟩
    exact List.mem_flatMap.mpr ⟨s, hs, List.mem_flatMap.mpr ⟨d, hd, List.mem_flatMap.mpr
      ⟨sp, hsp, List.mem_map.mpr ⟨dp, hdp, rfl⟩⟩⟩⟩

/-- One item of a list, with the inversion of the row. -/
theorem item_matches_iff {t : Text} {c : Cidr} {invert : Bool} (ht : NonBlank t)
    (hc : parse_cidr_any_or_negated (kept t) = some c) (ip : UInt32) :
    cidr_matches (item_cidr (kept t) invert) ip = true ↔
      c.any = true ∨ if invert = true then ip ∉ network c
        else (ip ∈ network c ↔ c.negate = false) := by
  obtain ⟨b, rest, hkept, hb, hlen⟩ := kept_head ht
  rw [hkept] at hc ⊢
  unfold item_cidr
  rw [parse_inverted invert hb hlen hc]
  by_cases hany : c.any = true
  · rw [if_neg (by simp [hany]), cidr_matches_iff]
    simp [hany]
  · rw [cidr_matches_iff]
    cases invert with
    | false => simp [hany]
    | true =>
      have hnot : c.any = false := Bool.eq_false_iff.mpr hany
      rw [if_pos ⟨rfl, hnot⟩, if_pos rfl]
      simp only [hnot, Bool.true_eq_false, iff_false]
      exact Iff.rfl

theorem matched_iff {items : List Text} {invert : Bool}
    (h : ListParses (fun t => (parse_cidr_any_or_negated t).isSome) items) (ip : UInt32) :
    (∃ t ∈ ne_fill_str_list (join 44 items), cidr_matches (item_cidr t invert) ip = true) ↔
      ip ∈ matched (networks items) invert := by
  rw [ne_fill_str_list_join h]
  by_cases hnil : items = []
  · subst hnil
    rw [if_pos rfl]
    refine ⟨fun _ => Or.inl rfl, fun _ => ⟨ANY, List.mem_singleton_self _, ?_⟩⟩
    have hany : item_cidr ANY invert = anyCidr := by cases invert <;> decide +kernel
    rw [hany]
    rfl
  rw [if_neg hnil]
  have hparse : ∀ t ∈ items, ∃ c, parse_cidr_any_or_negated (kept t) = some c :=
    fun t ht => Option.isSome_iff_exists.mp (h.parsed t ht)
  have hmem : ∀ t ∈ items, ∀ c, parse_cidr_any_or_negated (kept t) = some c →
      c ∈ networks items := fun t ht c hc => List.mem_filterMap.mpr ⟨t, ht, hc⟩
  constructor
  · rintro ⟨v, hv, hm⟩
    obtain ⟨t, ht, rfl⟩ := List.mem_map.mp hv
    obtain ⟨c, hc⟩ := hparse t ht
    rcases (item_matches_iff (h.separable t ht).2 hc ip).mp hm with hany | hin
    · exact Or.inr (Or.inl ⟨c, hmem t ht c hc, hany⟩)
    · refine Or.inr (Or.inr ?_)
      cases invert with
      | false => exact ⟨c, hmem t ht c hc, hin⟩
      | true => exact ⟨c, hmem t ht c hc, hin⟩
  · intro hm
    have hone : ∃ c ∈ networks items, c.any = true ∨ if invert = true then ip ∉ network c
        else (ip ∈ network c ↔ c.negate = false) := by
      rcases hm with hempty | ⟨c, hc, hany⟩ | hin
      · obtain ⟨t, ht⟩ := List.exists_mem_of_ne_nil items hnil
        obtain ⟨c, hc⟩ := hparse t ht
        have hno := hmem t ht c hc
        rw [hempty] at hno
        exact absurd hno List.not_mem_nil
      · exact ⟨c, hc, Or.inl hany⟩
      · cases invert with
        | false =>
          obtain ⟨c, hc, hin⟩ := hin
          exact ⟨c, hc, Or.inr hin⟩
        | true =>
          obtain ⟨c, hc, hin⟩ := hin
          exact ⟨c, hc, Or.inr hin⟩
    obtain ⟨c, hc, hin⟩ := hone
    obtain ⟨t, ht, hparsed⟩ := List.mem_filterMap.mp hc
    exact ⟨kept t, List.mem_map_of_mem ht,
      (item_matches_iff (h.separable t ht).2 hparsed ip).mpr hin⟩

theorem parse_port_some {v : Text} {r : Int × Int} (h : parse_port v = some r) :
    0 ≤ r.1 ∧ r.1 ≤ r.2 ∧ r.2 ≤ 65535 := by
  unfold parse_port at h
  split at h
  · split at h
    · rename_i hrange
      rw [← Option.some.inj h]
      exact ⟨hrange.1, Int.le_refl _, hrange.2⟩
    · simp at h
  · simp at h

/-- A range that parses is any, or it lies within the ports. -/
theorem parse_port_range_some {v : Text} {r : Int × Int} (h : parse_port_range v = some r) :
    r = (-1, -1) ∨ (0 ≤ r.1 ∧ r.1 ≤ r.2 ∧ r.2 ≤ 65535) := by
  unfold parse_port_range at h
  split at h
  · exact Or.inl (Option.some.inj h).symm
  · refine Or.inr ?_
    split at h
    · split at h
      · rename_i hrange
        rw [← Option.some.inj h]
        exact hrange
      · exact parse_port_some h
    · exact parse_port_some h

theorem port_match_iff {v : Text} {r : Int × Int} (h : parse_port_range v = some r) (port : Nat) :
    port_match r.1 r.2 port = true ↔ r = (-1, -1) ∨ (r.1 ≤ port ∧ (port : Int) ≤ r.2) := by
  unfold port_match
  rcases parse_port_range_some h with rfl | ⟨hfrom, hle, hto⟩
  · exact ⟨fun _ => Or.inl rfl, fun _ => rfl⟩
  · rw [if_pos ⟨hfrom, hfrom.trans hle⟩, decide_eq_true_eq]
    refine ⟨Or.inr, fun hin => hin.resolve_left ?_⟩
    rintro rfl
    exact absurd hfrom (by decide)

theorem ports_matched_iff {items : List Text}
    (h : ListParses (fun t => (parse_port_range t).isSome) items) (port : Nat) :
    (∃ t ∈ ne_fill_str_list (join 44 items),
        port_match (item_ports t).1 (item_ports t).2 port = true) ↔
      port ∈ accepted_ports (ranges items) := by
  rw [ne_fill_str_list_join h]
  by_cases hnil : items = []
  · subst hnil
    rw [if_pos rfl]
    refine ⟨fun _ => Or.inl rfl, fun _ => ⟨ANY, List.mem_singleton_self _, ?_⟩⟩
    have hany : item_ports ANY = (-1, -1) := by decide +kernel
    rw [hany]
    rfl
  rw [if_neg hnil]
  have hparse : ∀ t ∈ items, ∃ r, parse_port_range (kept t) = some r :=
    fun t ht => Option.isSome_iff_exists.mp (h.parsed t ht)
  have hitem : ∀ t r, parse_port_range (kept t) = some r → item_ports (kept t) = r := by
    intro t r hr
    unfold item_ports
    rw [hr]
    rfl
  constructor
  · rintro ⟨v, hv, hm⟩
    obtain ⟨t, ht, rfl⟩ := List.mem_map.mp hv
    obtain ⟨r, hr⟩ := hparse t ht
    rw [hitem t r hr, port_match_iff hr] at hm
    exact Or.inr ⟨r, List.mem_filterMap.mpr ⟨t, ht, hr⟩, hm⟩
  · rintro (hempty | ⟨r, hr, hm⟩)
    · obtain ⟨t, ht⟩ := List.exists_mem_of_ne_nil items hnil
      obtain ⟨r, hr⟩ := hparse t ht
      have hmem : r ∈ ranges items := List.mem_filterMap.mpr ⟨t, ht, hr⟩
      rw [hempty] at hmem
      exact absurd hmem List.not_mem_nil
    · obtain ⟨t, ht, hparsed⟩ := List.mem_filterMap.mp hr
      refine ⟨kept t, List.mem_map_of_mem ht, ?_⟩
      rw [hitem t r hparsed, port_match_iff hparsed]
      exact hm

/-- Every list of ports accepts one. -/
theorem accepted_ports_nonempty (items : List Text) : (accepted_ports (ranges items)).Nonempty := by
  by_cases hnil : ranges items = []
  · exact ⟨0, Or.inl hnil⟩
  obtain ⟨r, hr⟩ := List.exists_mem_of_ne_nil _ hnil
  obtain ⟨t, -, hparsed⟩ := List.mem_filterMap.mp hr
  rcases parse_port_range_some hparsed with hany | ⟨hfrom, hle, -⟩
  · exact ⟨0, Or.inr ⟨r, hr, Or.inl hany⟩⟩
  · exact ⟨r.1.toNat, Or.inr ⟨r, hr, Or.inr ⟨by omega, by omega⟩⟩⟩

/-- What the expansion of a row matches. -/
theorem row_matched_iff {row : PolicyRow} (h : row.Parses) (f : FlowKey) :
    (∃ cp ∈ expansion row.fetched, crypto_policy_match_packet cp f = true) ↔
      f.src_ip ∈ matched (networks row.src_ip) row.invert_src_ip ∧
      f.dst_ip ∈ matched (networks row.dst_ip) row.invert_dst_ip ∧
      f.src_port ∈ accepted_ports (ranges row.src_port) ∧
      f.dst_port ∈ accepted_ports (ranges row.dst_port) ∧
      (row.cp_base.protocol = POLICY_PROTO_ANY ∨ row.cp_base.protocol = f.protocol) := by
  rw [expansion_matches_iff]
  exact and_congr (matched_iff h.src_ip f.src_ip) (and_congr (matched_iff h.dst_ip f.dst_ip)
    (and_congr (ports_matched_iff h.src_port f.src_port)
      (and_congr (ports_matched_iff h.dst_port f.dst_port) Iff.rfl)))

/-! ## When the two agree -/

/-- An inverted list has one network, or it has an item for any. -/
def OneNetwork (items : List Cidr) (invert : Bool) : Prop :=
  invert = true → (∃ c ∈ items, c.any = true) ∨
    ∀ a ∈ items, ∀ b ∈ items, a.mask = b.mask ∧ a.net = b.net

/-- Every item is `0.0.0.0/0` and is negated. -/
def NoAddress (items : List Cidr) (invert : Bool) : Prop :=
  items ≠ [] ∧ ∀ c ∈ items, c.any = false ∧ c.mask = 0 ∧ (invert = true ∨ c.negate = true)

/-! ### Networks as sets of addresses -/

theorem eq_of_bits {x y : UInt32}
    (h : ∀ i < 32, x.toBitVec.getLsbD i = y.toBitVec.getLsbD i) : x = y :=
  UInt32.eq_of_toBitVec_eq (BitVec.eq_of_getLsbD_eq h)

/-- A network inside another has every bit of the other's mask in its own. -/
theorem mask_bits {n m m' : UInt32} (h : ∀ ip, ip &&& m = n &&& m → ip &&& m' = n &&& m') {i : Nat}
    (hi : i < 32) (hbit : m'.toBitVec.getLsbD i = true) : m.toBitVec.getLsbD i = true := by
  -- an address that differs from the network's in all the bits outside of its mask
  have hin : (n ^^^ ~~~m) &&& m = n &&& m := by
    refine eq_of_bits fun j hj => ?_
    simp only [UInt32.toBitVec_and, UInt32.toBitVec_xor, UInt32.toBitVec_not, BitVec.getLsbD_and,
      BitVec.getLsbD_xor, BitVec.getLsbD_not]
    cases m.toBitVec.getLsbD j <;> simp
  have hbits := congrArg (fun x : UInt32 => x.toBitVec.getLsbD i) (h _ hin)
  simp only [UInt32.toBitVec_and, UInt32.toBitVec_xor, UInt32.toBitVec_not, BitVec.getLsbD_and,
    BitVec.getLsbD_xor, BitVec.getLsbD_not, hbit, hi] at hbits
  cases hm : m.toBitVec.getLsbD i with
  | true => rfl
  | false =>
    rw [hm] at hbits
    simp at hbits

/-- Only the mask of everything has no address outside. -/
theorem outside_of_mask {n m : UInt32} (h : ~~~n &&& m = n &&& m) : m = 0 := by
  refine eq_of_bits fun i hi => ?_
  have hbits := congrArg (fun x : UInt32 => x.toBitVec.getLsbD i) h
  simp only [UInt32.toBitVec_and, UInt32.toBitVec_not, BitVec.getLsbD_and, BitVec.getLsbD_not,
    hi] at hbits
  cases hm : m.toBitVec.getLsbD i with
  | false => simp
  | true =>
    rw [hm] at hbits
    simp at hbits

/-- A network determines its mask and its address. -/
theorem network_injective {a b : Cidr} (ha : a.net &&& a.mask = a.net)
    (hb : b.net &&& b.mask = b.net) (h : network a = network b) :
    a.mask = b.mask ∧ a.net = b.net := by
  have hmem : ∀ ip, ip &&& a.mask = a.net &&& a.mask ↔ ip &&& b.mask = b.net &&& b.mask :=
    fun ip => Set.ext_iff.mp h ip
  have hanet : a.net &&& b.mask = b.net &&& b.mask := (hmem a.net).mp rfl
  have hbnet : b.net &&& a.mask = a.net &&& a.mask := (hmem b.net).mpr rfl
  have hmask : a.mask = b.mask := by
    refine eq_of_bits fun i hi => Bool.eq_iff_iff.mpr ⟨?_, ?_⟩
    · exact mask_bits (n := b.net) (fun ip hip => by rw [hbnet]; exact (hmem ip).mpr hip) hi
    · exact mask_bits (n := a.net) (fun ip hip => by rw [hanet]; exact (hmem ip).mp hip) hi
  refine ⟨hmask, ?_⟩
  rw [← ha, ← hb, ← hanet, hmask]

theorem networks_masked {items : List Text} {c : Cidr} (h : c ∈ networks items) :
    c.net &&& c.mask = c.net := by
  obtain ⟨t, -, hparsed⟩ := List.mem_filterMap.mp h
  have hcidr : ∀ v d, parse_ip_cidr v = some d → d.1 &&& d.2 = d.1 := by
    intro v d hd
    unfold parse_ip_cidr at hd
    dsimp only at hd
    split at hd
    · simp at hd
    · obtain ⟨mask, -, rfl⟩ := Option.map_eq_some_iff.mp hd
      dsimp only
      rw [UInt32.and_assoc, UInt32.and_self]
  unfold parse_cidr_any_or_negated at hparsed
  split at hparsed
  · rw [← Option.some.inj hparsed]
    rfl
  · split at hparsed
    · obtain ⟨d, hd, rfl⟩ := Option.map_eq_some_iff.mp hparsed
      exact hcidr _ d hd
    · obtain ⟨d, hd, rfl⟩ := Option.map_eq_some_iff.mp hparsed
      exact hcidr _ d hd

/-! ### The two readings of a list -/

/-- With one network the item by item negation is the negation of the whole. -/
theorem OneNetwork.agree {items : List Cidr} {invert : Bool} (h : OneNetwork items invert) :
    matched items invert = accepted items invert := by
  cases invert with
  | false => rfl
  | true =>
    ext ip
    by_cases hany : ∃ c ∈ items, c.any = true
    · exact ⟨fun _ => Or.inr (Or.inl hany), fun _ => Or.inr (Or.inl hany)⟩
    · have hone := (h rfl).resolve_left hany
      have hsame : ∀ a ∈ items, ∀ b ∈ items, network a = network b := by
        intro a ha b hb
        unfold network
        rw [(hone a ha b hb).1, (hone a ha b hb).2]
      constructor
      · rintro (hnil | hex | ⟨c, hc, hout⟩)
        · exact Or.inl hnil
        · exact absurd hex hany
        · refine Or.inr (Or.inr fun d hd => ?_)
          rw [hsame d hd c hc]
          exact hout
      · rintro (hnil | hex | hall)
        · exact Or.inl hnil
        · exact absurd hex hany
        · by_cases hnil : items = []
          · exact Or.inl hnil
          · obtain ⟨c, hc⟩ := List.exists_mem_of_ne_nil items hnil
            exact Or.inr (Or.inr ⟨c, hc, hall c hc⟩)

/-- Otherwise an address inside of one network and outside of another is matched but not
accepted. -/
theorem matched_not_accepted {items : List Text} {invert : Bool}
    (h : ¬OneNetwork (networks items) invert) :
    ∃ ip, ip ∈ matched (networks items) invert ∧ ip ∉ accepted (networks items) invert := by
  unfold OneNetwork at h
  push Not at h
  obtain ⟨rfl, hany, a, ha, b, hb, hne⟩ := h
  have hdiff : network a ≠ network b := by
    intro heq
    obtain ⟨hmask, hnet⟩ := network_injective (networks_masked ha) (networks_masked hb) heq
    exact hne hmask hnet
  have hapart : ∃ ip, ∃ c ∈ networks items, ∃ d ∈ networks items,
      ip ∈ network c ∧ ip ∉ network d := by
    by_contra hno
    push Not at hno
    exact hdiff (Set.Subset.antisymm (fun ip hip => hno ip a ha b hb hip)
      fun ip hip => hno ip b hb a ha hip)
  obtain ⟨ip, c, hc, d, hd, hin, hout⟩ := hapart
  refine ⟨ip, Or.inr (Or.inr ⟨d, hd, hout⟩), ?_⟩
  rintro (hnil | ⟨e, he, hea⟩ | hall)
  · rw [hnil] at hc
    exact List.not_mem_nil hc
  · exact hany e he hea
  · exact hall c hc hin

theorem NoAddress.accepted_empty {items : List Cidr} {invert : Bool} (h : NoAddress items invert)
    (ip : UInt32) : ip ∉ accepted items invert := by
  obtain ⟨hne, hall⟩ := h
  have hin : ∀ c ∈ items, ip ∈ network c := by
    intro c hc
    unfold network
    rw [Set.mem_ofPred_eq, (hall c hc).2.1, UInt32.and_zero, UInt32.and_zero]
  rintro (hnil | ⟨c, hc, hany⟩ | hrest)
  · exact hne hnil
  · rw [(hall c hc).1] at hany
    exact Bool.false_ne_true hany
  · cases invert with
    | false =>
      obtain ⟨c, hc, hiff⟩ := hrest
      have hneg := (hall c hc).2.2.resolve_left Bool.false_ne_true
      rw [hiff.mp (hin c hc)] at hneg
      exact Bool.false_ne_true hneg
    | true =>
      obtain ⟨c, hc⟩ := List.exists_mem_of_ne_nil items hne
      exact hrest c hc (hin c hc)

theorem NoAddress.matched_empty {items : List Cidr} {invert : Bool} (h : NoAddress items invert)
    (ip : UInt32) : ip ∉ matched items invert := by
  cases invert with
  | false =>
    have hone : OneNetwork items false := fun hno => absurd hno Bool.false_ne_true
    rw [hone.agree]
    exact h.accepted_empty ip
  | true =>
    rintro (hnil | ⟨c, hc, hany⟩ | ⟨c, hc, hout⟩)
    · exact h.1 hnil
    · rw [(h.2 c hc).1] at hany
      exact Bool.false_ne_true hany
    · refine hout ?_
      unfold network
      rw [Set.mem_ofPred_eq, (h.2 c hc).2.1, UInt32.and_zero, UInt32.and_zero]

/-- Every other list matches an address. -/
theorem matched_nonempty {items : List Cidr} {invert : Bool} (h : ¬NoAddress items invert) :
    (matched items invert).Nonempty := by
  by_cases hnil : items = []
  · exact ⟨0, Or.inl hnil⟩
  have hitem : ∃ c ∈ items, ¬(c.any = false ∧ c.mask = 0 ∧ (invert = true ∨ c.negate = true)) := by
    by_contra hno
    push Not at hno
    exact h ⟨hnil, fun c hc => by
      by_contra hbad
      obtain ⟨hany, hmask, hneg⟩ := hno c hc
      exact hbad ⟨hany, hmask, hneg⟩⟩
  obtain ⟨c, hc, hbad⟩ := hitem
  by_cases hany : c.any = true
  · exact ⟨0, Or.inr (Or.inl ⟨c, hc, hany⟩)⟩
  have hself : c.net ∈ network c := rfl
  by_cases hplain : invert = false ∧ c.negate = false
  · obtain ⟨rfl, hneg⟩ := hplain
    exact ⟨c.net, Or.inr (Or.inr ⟨c, hc, fun _ => hneg, fun _ => hself⟩)⟩
  · have hmask : c.mask ≠ 0 := by
      intro hzero
      refine hbad ⟨Bool.eq_false_iff.mpr hany, hzero, ?_⟩
      cases invert with
      | true => exact Or.inl rfl
      | false => exact Or.inr (by simpa using hplain)
    have hout : ~~~c.net ∉ network c := fun hin => hmask (outside_of_mask hin)
    refine ⟨~~~c.net, Or.inr (Or.inr ?_)⟩
    cases invert with
    | true => exact ⟨c, hc, hout⟩
    | false =>
      refine ⟨c, hc, fun hin => absurd hin hout, fun hneg => ?_⟩
      exact absurd ⟨rfl, hneg⟩ hplain

/-! ## The law -/

/-- The policies that a row is expanded to mean what the row means exactly if an inverted list
has one network, or one of the sides accepts no address at all. -/
theorem expansion_keeps_the_meaning_iff {row : PolicyRow} (hparse : row.Parses)
    {policies policies' : List CryptoPolicy}
    (h : expand_row policies row.fetched = some policies') :
    (∀ f, (∃ cp ∈ policies'.drop policies.length, crypto_policy_match_packet cp f = true) ↔
        row.Satisfied f) ↔
      (OneNetwork (networks row.src_ip) row.invert_src_ip ∧
        OneNetwork (networks row.dst_ip) row.invert_dst_ip) ∨
      NoAddress (networks row.src_ip) row.invert_src_ip ∨
      NoAddress (networks row.dst_ip) row.invert_dst_ip := by
  rw [expand_row_some h, List.drop_left]
  constructor
  · intro hkeeps
    by_contra hbad
    rw [not_or, not_or] at hbad
    obtain ⟨hone, hsrc, hdst⟩ := hbad
    obtain ⟨sport, hsport⟩ := accepted_ports_nonempty row.src_port
    obtain ⟨dport, hdport⟩ := accepted_ports_nonempty row.dst_port
    -- a packet whose addresses are matched, with ports and a protocol that the row takes
    have hmatched : ∀ src dst, src ∈ matched (networks row.src_ip) row.invert_src_ip →
        dst ∈ matched (networks row.dst_ip) row.invert_dst_ip →
        row.Satisfied ⟨src, dst, sport, dport, row.cp_base.protocol⟩ := by
      intro src dst hs hd
      exact (hkeeps _).mp ((row_matched_iff hparse _).mpr ⟨hs, hd, hsport, hdport, Or.inr rfl⟩)
    by_cases hsrc_one : OneNetwork (networks row.src_ip) row.invert_src_ip
    · have hdst_two : ¬OneNetwork (networks row.dst_ip) row.invert_dst_ip :=
        fun hdst_one => hone ⟨hsrc_one, hdst_one⟩
      obtain ⟨dst, hd, hout⟩ := matched_not_accepted hdst_two
      obtain ⟨src, hs⟩ := matched_nonempty hsrc
      exact hout (hmatched src dst hs hd).dst_ip
    · obtain ⟨src, hs, hout⟩ := matched_not_accepted hsrc_one
      obtain ⟨dst, hd⟩ := matched_nonempty hdst
      exact hout (hmatched src dst hs hd).src_ip
  · intro hcond f
    rw [row_matched_iff hparse]
    rcases hcond with ⟨hsrc, hdst⟩ | hsrc | hdst
    · rw [hsrc.agree, hdst.agree]
      exact ⟨fun ⟨hs, hd, hsp, hdp, hp⟩ => ⟨hs, hd, hsp, hdp, hp⟩,
        fun ⟨hs, hd, hsp, hdp, hp⟩ => ⟨hs, hd, hsp, hdp, hp⟩⟩
    · exact ⟨fun hm => absurd hm.1 (hsrc.matched_empty _),
        fun hs => absurd hs.src_ip (hsrc.accepted_empty _)⟩
    · exact ⟨fun hm => absurd hm.2.1 (hdst.matched_empty _),
        fun hs => absurd hs.dst_ip (hdst.accepted_empty _)⟩

/-- `10.0.0.0/8` -/
def net10 : Text := [49, 48, 46, 48, 46, 48, 46, 48, 47, 56]

/-- `192.168.0.0/16` -/
def net192 : Text := [49, 57, 50, 46, 49, 54, 56, 46, 48, 46, 48, 47, 49, 54]

/-- An encryption policy for all sources outside of the networks. -/
def outsideOf (src_ip : List Text) : PolicyRow where
  cp_base := ⟨1, 1, 0, .encrypt_l3, 0, -1, -1, -1, -1, true, true, false, false, 0, 0, 0, 0, .gcm, 128,
    12, Vector.replicate AES_KEY_LEN 7⟩
  src_ip := src_ip
  invert_src_ip := true

theorem ListParses.nil (parses : Text → Bool) : ListParses parses [] :=
  ⟨Nat.zero_le _, by decide, fun t ht => absurd ht List.not_mem_nil,
    fun t ht => absurd ht List.not_mem_nil⟩

theorem outsideOf_parses {src_ip : List Text}
    (h : ListParses (fun t => (parse_cidr_any_or_negated t).isSome) src_ip) :
    (outsideOf src_ip).Parses :=
  ⟨h, ListParses.nil _, ListParses.nil _, ListParses.nil _⟩

theorem outside_of_one_network_is_kept :
    ∃ policies, expand_row [] (outsideOf [net10]).fetched = some policies ∧
      ∀ f, (∃ cp ∈ policies, crypto_policy_match_packet cp f = true) ↔
        (outsideOf [net10]).Satisfied f := by
  have hexp : (expand_row [] (outsideOf [net10]).fetched).isSome := by decide +kernel
  obtain ⟨policies, hpolicies⟩ := Option.isSome_iff_exists.mp hexp
  have hparses : (outsideOf [net10]).Parses := by
    refine outsideOf_parses ⟨by decide, by decide +kernel, ?_, by decide +kernel⟩
    unfold Items NonBlank
    decide +kernel
  have hnets : networks (outsideOf [net10]).src_ip = [⟨false, false, 0x0a, 0xff⟩] := by
    decide +kernel
  refine ⟨policies, hpolicies, (expansion_keeps_the_meaning_iff hparses hpolicies).mpr
    (Or.inl ⟨fun _ => Or.inr ?_, fun hno => absurd hno (by decide)⟩)⟩
  rw [hnets]
  decide

/-- Of `10.0.0.0/8` and `192.168.0.0/16`, inverted, a packet from the first matches the policy
that is made for the second. -/
theorem a_source_inside_of_the_inverted_list_matches :
    ∃ policies, expand_row [] (outsideOf [net10, net192]).fetched = some policies ∧
      (outsideOf [net10, net192]).Parses ∧
      (∃ cp ∈ policies, crypto_policy_match_packet cp ⟨0x0100000a, 0, 0, 0, 6⟩ = true) ∧
      ¬(outsideOf [net10, net192]).Satisfied ⟨0x0100000a, 0, 0, 0, 6⟩ := by
  have hexp : (expand_row [] (outsideOf [net10, net192]).fetched).map (fun policies =>
      policies.any (crypto_policy_match_packet · ⟨0x0100000a, 0, 0, 0, 6⟩)) = some true := by
    decide +kernel
  obtain ⟨policies, hpolicies, hany⟩ := Option.map_eq_some_iff.mp hexp
  have hparses : (outsideOf [net10, net192]).Parses := by
    refine outsideOf_parses ⟨by decide, by decide +kernel, ?_, by decide +kernel⟩
    unfold Items NonBlank
    decide +kernel
  refine ⟨policies, hpolicies, hparses, List.any_eq_true.mp hany, fun hsat => ?_⟩
  have hnets : networks (outsideOf [net10, net192]).src_ip =
      [⟨false, false, 0x0a, 0xff⟩, ⟨false, false, 0xa8c0, 0xffff⟩] := by decide +kernel
  have hsrc := hsat.src_ip
  rw [hnets] at hsrc
  rcases hsrc with hnil | hany | hout
  · exact absurd hnil (List.cons_ne_nil _ _)
  · exact absurd hany (by decide)
  · exact hout _ List.mem_cons_self (by unfold network; decide)

end ne_ip.row_meaning
