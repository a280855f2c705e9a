-- The rows of ne_policies (load_profiles_and_policies, db_config.c): how the lists of a
-- row are split and parsed, and the policies that a row is expanded to.
import NeIp.CText
import NeIp.DbRuntime
import NeIp.FlowTable

open byte_buf c_text ne_ip.config ne_ip.db_runtime ne_ip.flow_table

namespace ne_ip.policy_rows

def MAX_CIDR_LIST_ITEMS : Nat := 32
def MAX_CIDR_ITEM_LEN : Nat := 96

/-- The text `ANY`. -/
def ANY : Text := [65, 78, 89]

/-! ## Items -/

def str_is_any (v : Text) : Bool :=
  let v := ltrim v
  v == [] || same_letters v [97, 110, 121] || v == [42]

/-- `sscanf` with `%d-%d`, when both are read. -/
def scan_range (v : Text) : Option (Int × Int) :=
  match scan_int v with
  | some (a, 45 :: rest) => (scan_int rest).map fun b => (a, b.1)
  | _ => none

/-- The second attempt of `parse_port_range`: one number. -/
def parse_port (v : Text) : Option (Int × Int) :=
  match scan_int v with
  | some (a, _) => if 0 ≤ a ∧ a ≤ 65535 then some (a, a) else none
  | none => none

def parse_port_range (v : Text) : Option (Int × Int) :=
  if str_is_any v then some (-1, -1)
  else
    match scan_range v with
    | some (a, b) => if 0 ≤ a ∧ a ≤ b ∧ b ≤ 65535 then some (a, b) else parse_port v
    | none => parse_port v

/-- `htonl` swaps the bytes as `ntohl` does. -/
def ipv4_prefix_to_mask_be (prefix_len : Int) : UInt32 :=
  if prefix_len ≤ 0 then 0
  else if 32 ≤ prefix_len then ntohl 0xFFFFFFFF
  else ntohl (0xFFFFFFFF <<< UInt32.ofNat (32 - prefix_len).toNat)

def ipv4_mask_be_is_contiguous (mask_be : UInt32) : Bool :=
  let m := ntohl mask_be
  if m == 0 then true
  else
    let inv := ~~~m
    inv &&& (inv + 1) == 0

def parse_ipv4_netmask_be (s : Text) : Option UInt32 :=
  match inet_pton s with
  | none => none
  | some mask => if ipv4_mask_be_is_contiguous mask then some mask else none

/-- What follows the slash of `parse_ip_cidr`, a mask or a length, or that there is no slash. -/
def parse_netmask (rest : Text) : Option UInt32 :=
  match rest with
  | [] => some (ipv4_prefix_to_mask_be 32)
  | _ :: suffix =>
    let suffix := ltrim suffix
    if suffix = [] then none
    else if suffix.contains 46 then parse_ipv4_netmask_be suffix
    else
      match strtol suffix with
      | some (plen, []) =>
        if plen < 0 ∨ 32 < plen then none else some (ipv4_prefix_to_mask_be plen)
      | _ => none

/-- `parse_ip_cidr`: the network and its mask. -/
def parse_ip_cidr (str : Text) : Option (UInt32 × UInt32) :=
  let buf := str.take 127
  match inet_pton (ltrim (buf.takeWhile (· != 47))) with
  | none => none
  | some ip => (parse_netmask (buf.dropWhile (· != 47))).map fun netmask => (ip &&& netmask, netmask)

/-- What `parse_cidr_any_or_negated` gives out. -/
structure Cidr where
  any : Bool
  negate : Bool
  net : UInt32
  mask : UInt32
  deriving DecidableEq, Repr

def anyCidr : Cidr := ⟨true, false, 0, 0⟩

def parse_cidr_any_or_negated (v_in : Text) : Option Cidr :=
  if str_is_any v_in then some anyCidr
  else
    match ltrim v_in with
    | 33 :: v => (parse_ip_cidr (ltrim v)).map fun c => ⟨false, true, c.1, c.2⟩
    | v => (parse_ip_cidr v).map fun c => ⟨false, false, c.1, c.2⟩

/-! ## Lists -/

/-- `split_cidr_list`; -1 is `none`. -/
def split_cidr_list (input : Text) : Option (List Text) :=
  let buf := trim (input.take 1023)
  if buf = [] then none
  else
    let toks := (tokens 44 buf).map trim
    if MAX_CIDR_LIST_ITEMS < toks.length ∨ toks.contains [] ∨ toks = [] then none
    else some (toks.map (·.take (MAX_CIDR_ITEM_LEN - 1)))

def ne_fill_str_list (joined : Text) : List Text :=
  if joined = [] then [ANY] else (split_cidr_list joined).getD [ANY]

/-- `ne_cidr_buf_with_invert` for a buffer of `MAX_CIDR_ITEM_LEN + 2` bytes. -/
def ne_cidr_buf_with_invert (tok : Text) (invert_db : Bool) : Text :=
  if invert_db ∧ tok.head? ≠ some 33 then 33 :: tok.take MAX_CIDR_ITEM_LEN
  else tok.take (MAX_CIDR_ITEM_LEN + 1)

/-! ## The expansion of a row -/

/-- A row as the query returns it. `cp_base` is what the columns other than the four lists
give. -/
structure FetchedRow where
  cp_base : CryptoPolicy
  src_joined : Text
  invert_src : Bool
  dst_joined : Text
  invert_dst : Bool
  sport_joined : Text
  dport_joined : Text

/-- The policy for one item of each list. An item that does not parse counts as any. -/
def expanded_policy (row : FetchedRow) (src_item dst_item sp_item dp_item : Text) : CryptoPolicy :=
  let sport := (parse_port_range sp_item).getD (-1, -1)
  let dport := (parse_port_range dp_item).getD (-1, -1)
  let src := (parse_cidr_any_or_negated
    (ne_cidr_buf_with_invert src_item row.invert_src)).getD anyCidr
  let dst := (parse_cidr_any_or_negated
    (ne_cidr_buf_with_invert dst_item row.invert_dst)).getD anyCidr
  { row.cp_base with
    src_port_from := sport.1
    src_port_to := sport.2
    dst_port_from := dport.1
    dst_port_to := dport.2
    src_any := src.any
    src_negate := src.negate
    src_net := src.net
    src_mask := src.mask
    dst_any := dst.any
    dst_negate := dst.negate
    dst_net := dst.net
    dst_mask := dst.mask }

/-- The array takes a policy as long as it has room. -/
def add_policy (policies : List CryptoPolicy) (cp : CryptoPolicy) : Option (List CryptoPolicy) :=
  if MAX_CRYPTO_POLICIES ≤ policies.length then none else some (policies ++ [cp])

/-- The four nested loops over the items of a row. -/
def expand_row (policies : List CryptoPolicy) (row : FetchedRow) : Option (List CryptoPolicy) :=
  (ne_fill_str_list row.src_joined).foldlM (fun policies src_item =>
    (ne_fill_str_list row.dst_joined).foldlM (fun policies dst_item =>
      (ne_fill_str_list row.sport_joined).foldlM (fun policies sp_item =>
        (ne_fill_str_list row.dport_joined).foldlM (fun policies dp_item =>
          add_policy policies (expanded_policy row src_item dst_item sp_item dp_item))
          policies) policies) policies) policies

/-- The loop over the rows. -/
def load_policy_rows (rows : List FetchedRow) : Option (List CryptoPolicy) :=
  rows.foldlM expand_row []

/-! ## What the loops add -/

/-- The policies that a row is expanded to, in the order of the loops. -/
def expansion (row : FetchedRow) : List CryptoPolicy :=
  (ne_fill_str_list row.src_joined).flatMap fun src_item =>
    (ne_fill_str_list row.dst_joined).flatMap fun dst_item =>
      (ne_fill_str_list row.sport_joined).flatMap fun sp_item =>
        (ne_fill_str_list row.dport_joined).map fun dp_item =>
          expanded_policy row src_item dst_item sp_item dp_item

/-- A loop whose rounds each add something adds all of it, when there is room. -/
theorem foldlM_adds {α : Type} {f : List CryptoPolicy → α → Option (List CryptoPolicy)}
    {g : α → List CryptoPolicy} {l : List α}
    (hf : ∀ a ps, f ps a = some (ps ++ g a) ∨ f ps a = none)
    {ps ps' : List CryptoPolicy} (h : l.foldlM f ps = some ps') : ps' = ps ++ l.flatMap g := by
  induction l generalizing ps with
  | nil =>
    rw [← Option.some.inj h, List.flatMap_nil, List.append_nil]
  | cons a l ih =>
    rw [List.foldlM_cons] at h
    obtain ⟨ps1, hone, hrest⟩ := Option.bind_eq_some_iff.mp h
    rcases hf a ps with hadd | hno
    · rw [hadd] at hone
      obtain rfl := Option.some.inj hone
      rw [ih hrest, List.flatMap_cons, List.append_assoc]
    · rw [hno] at hone
      simp at hone

theorem foldlM_adds_or_none {α : Type} {f : List CryptoPolicy → α → Option (List CryptoPolicy)}
    {g : α → List CryptoPolicy} (hf : ∀ a ps, f ps a = some (ps ++ g a) ∨ f ps a = none)
    (l : List α) (ps : List CryptoPolicy) :
    l.foldlM f ps = some (ps ++ l.flatMap g) ∨ l.foldlM f ps = none := by
  cases h : l.foldlM f ps with
  | none => exact Or.inr rfl
  | some ps' => exact Or.inl (congrArg some (foldlM_adds hf h))

/-- The loops add the expansion of the row, or the array overflows. -/
theorem expand_row_some {policies policies' : List CryptoPolicy} {row : FetchedRow}
    (h : expand_row policies row = some policies') : policies' = policies ++ expansion row := by
  refine foldlM_adds (fun src_item ps => ?_) h
  refine foldlM_adds_or_none (fun dst_item ps => ?_) _ ps
  refine foldlM_adds_or_none (fun sp_item ps => ?_) _ ps
  rw [List.map_eq_flatMap]
  refine foldlM_adds_or_none (fun dp_item ps => ?_) _ ps
  unfold add_policy
  split
  · exact Or.inr rfl
  · exact Or.inl rfl

end ne_ip.policy_rows
