-- The windows that the flow table starts with (forwarder_init in forwarder.c): every interface has
-- a part of the base window, by the weights in the rows of the profiles.
import Mathlib.Algebra.Order.BigOperators.Group.List
import NeIp.RowSemantics
import NeIp.WanBalance
import NeIp.WindowRotation

open byte_buf index_list ne_ip.config ne_ip.db_runtime ne_ip.flow_table ne_ip.hex_key
open ne_ip.merge_order ne_ip.merge_sources ne_ip.merged_rows ne_ip.policy_load ne_ip.row_semantics
open ne_ip.wan_balance ne_ip.wan_peers ne_ip.wan_select ne_ip.window_rotation

namespace ne_ip.wan_windows

/-- 10240 KiB, which is also the `window_size` of every entry that is loaded. -/
def base_bytes : UInt32 := 10485760
def min_bytes : UInt32 := 524288

def clamp_u32 (v lo hi : UInt32) : UInt32 := if v < lo then lo else if hi < v then hi else v

/-- `sumw`, by the same loop as in `weights_sum_positive`. -/
def sumw (p : ProfileConfig) : Int := weights_sum_positive true (wan_entries p)

/-- `win` of an interface with the weight `w`. -/
def win (sumw w : Int) : UInt32 :=
  let scaled := base_bytes.toUInt64 * UInt64.ofNat w.toNat / UInt64.ofNat sumw.toNat
  clamp_u32 (if 0xFFFFFFFF < scaled then 0xFFFFFFFF else scaled.toUInt32) min_bytes base_bytes

/-- One turn of the loop that writes the windows of a profile. -/
def set_window (max_wans : Nat) (sumw : Int) (out : List UInt32) (a : Nat × Int) : List UInt32 :=
  if max_wans ≤ a.1 ∨ a.2 ≤ 0 then out else out.set a.1 (win sumw a.2)

/-- One turn of the loop over the profiles. -/
def profile_windows (max_wans : Nat) (out : List UInt32) (p : ProfileConfig) : List UInt32 :=
  if p.enabled = false ∨ p.wan_indices = [] then out
  else if sumw p ≤ 0 then out
  else (wan_entries p).foldl (set_window max_wans (sumw p)) out

def compute_profile_weighted_wan_windows (cfg : AppConfig) (out : List UInt32) (max_wans : Nat) :
    List UInt32 :=
  if max_wans = 0 then out else cfg.profiles.foldl (profile_windows max_wans) out

/-- The windows that `forwarder_init` gives to `flow_table_init`. -/
def wan_window_sizes (cfg : AppConfig) : List UInt32 :=
  let sizes := (List.range MAX_INTERFACES).map fun i =>
    ((cfg.wans[i]?).map fun wan => UInt32.ofNat wan.window_size).getD 0
  compute_profile_weighted_wan_windows cfg sizes cfg.wans.length

/-! ## What the rows say -/

/-- The rows of a profile that have a weight. -/
def weighted (rows : List (Bytes × UInt32 × Int)) : List (Bytes × UInt32 × Int) :=
  (rows.filter name_fits).filter fun row => decide (0 < row.2.2)

/-- The part of the base that a weight has of the sum of all, but no less than the minimum. -/
def share (sum weight : Nat) : Nat :=
  max min_bytes.toNat (base_bytes.toNat * weight / sum)

/-- The windows that the rows of a profile give to an interface. -/
def row_windows (rows : List (Bytes × UInt32 × Int)) (ifname : Bytes) : List Nat :=
  ((weighted rows).filter (·.1 == ifname)).map fun row =>
    share ((weighted rows).map (·.2.2.toNat)).sum row.2.2.toNat

/-- The last row with a weight has its say; without one the window is the base. -/
def window_for (db : Db) (ids : List Int) (ifname : Bytes) : Nat :=
  ((ids.flatMap fun id => row_windows (wan_rows db id) ifname).getLast?).getD base_bytes.toNat

/-! ## One window -/

theorem share_le {sum weight : Nat} (h : weight ≤ sum) : share sum weight ≤ base_bytes.toNat := by
  refine max_le (by decide) (Nat.div_le_of_le_mul ?_)
  rw [Nat.mul_comm sum]
  exact Nat.mul_le_mul_left _ h

/-- The arithmetic of 64 bits does not wrap. -/
theorem win_toNat {sum w : Int} (hw : 0 < w) (hle : w ≤ sum) (hsum : sum ≤ 2 ^ 30) :
    (win sum w).toNat = share sum.toNat w.toNat := by
  have hscaled : (base_bytes.toUInt64 * UInt64.ofNat w.toNat / UInt64.ofNat sum.toNat).toNat =
      base_bytes.toNat * w.toNat / sum.toNat := by
    rw [UInt64.toNat_div, UInt64.toNat_mul, UInt64.toNat_ofNat_of_lt' (by
      rw [show UInt64.size = 2 ^ 64 from rfl]; omega), UInt64.toNat_ofNat_of_lt' (by
      rw [show UInt64.size = 2 ^ 64 from rfl]; omega), UInt32.toNat_toUInt64, Nat.mod_eq_of_lt]
    unfold base_bytes
    simp only [UInt32.reduceToNat]
    omega
  have hbase : base_bytes.toNat * w.toNat / sum.toNat ≤ base_bytes.toNat := by
    refine Nat.div_le_of_le_mul ?_
    rw [Nat.mul_comm sum.toNat]
    exact Nat.mul_le_mul_left _ (Int.toNat_le_toNat hle)
  unfold win share
  dsimp only
  generalize base_bytes.toUInt64 * UInt64.ofNat w.toNat / UInt64.ofNat sum.toNat = scaled at hscaled
  rw [← hscaled] at hbase ⊢
  have hfits : ¬(0xFFFFFFFF < scaled) := by
    rw [UInt64.lt_iff_toNat_lt]
    exact Nat.not_lt.mpr (hbase.trans (by decide))
  have hval : scaled.toUInt32.toNat = scaled.toNat := by
    rw [UInt64.toNat_toUInt32, Nat.mod_eq_of_lt]
    exact hbase.trans_lt (by decide)
  rw [if_neg hfits]
  unfold clamp_u32
  split
  · rename_i hlow
    rw [UInt32.lt_iff_toNat_lt, hval] at hlow
    exact (max_eq_left hlow.le).symm
  · rename_i hlow
    rw [UInt32.lt_iff_toNat_lt, hval, Nat.not_lt] at hlow
    rw [if_neg, hval, max_eq_right hlow]
    rw [UInt32.lt_iff_toNat_lt, hval]
    exact Nat.not_lt.mpr hbase

/-! ## What a profile writes -/

/-- The windows of a profile, each with its interface. -/
def window_writes (max_wans : Nat) (p : ProfileConfig) : List (Nat × UInt32) :=
  if p.enabled = false ∨ sumw p ≤ 0 then []
  else ((wan_entries p).filter fun a => decide (a.1 < max_wans) && decide (0 < a.2)).map fun a =>
    (a.1, win (sumw p) a.2)

theorem set_windows_eq (max_wans : Nat) (sum : Int) (out : List UInt32)
    (entries : List (Nat × Int)) :
    entries.foldl (set_window max_wans sum) out =
      write_all out ((entries.filter fun a => decide (a.1 < max_wans) && decide (0 < a.2)).map
        fun a => (a.1, win sum a.2)) := by
  induction entries generalizing out with
  | nil => rfl
  | cons a entries ih =>
    rw [List.foldl_cons, ih]
    unfold set_window
    by_cases ha : max_wans ≤ a.1 ∨ a.2 ≤ 0
    · rw [if_pos ha, List.filter_cons_of_neg]
      simp only [Bool.and_eq_true, decide_eq_true_eq, not_and]
      omega
    · rw [if_neg ha, List.filter_cons_of_pos]
      · rfl
      · simp only [Bool.and_eq_true, decide_eq_true_eq]
        omega

theorem profile_windows_eq (max_wans : Nat) (out : List UInt32) (p : ProfileConfig) :
    profile_windows max_wans out p = write_all out (window_writes max_wans p) := by
  unfold profile_windows window_writes
  by_cases hen : p.enabled = false
  · rw [if_pos (Or.inl hen), if_pos (Or.inl hen)]
    rfl
  by_cases hnone : p.wan_indices = []
  · have hentries : wan_entries p = [] := by
      rw [← List.length_eq_zero_iff, length_wan_entries, hnone]
      rfl
    rw [if_pos (Or.inr hnone)]
    split
    · rfl
    · rw [hentries]
      rfl
  rw [if_neg (by tauto)]
  by_cases hsum : sumw p ≤ 0
  · rw [if_pos hsum, if_pos (Or.inr hsum)]
    rfl
  · rw [if_neg hsum, if_neg (by tauto), set_windows_eq]

theorem compute_windows_eq (cfg : AppConfig) (out : List UInt32) {max_wans : Nat}
    (hmax : max_wans ≠ 0) : compute_profile_weighted_wan_windows cfg out max_wans =
      write_all out (cfg.profiles.flatMap (window_writes max_wans)) := by
  unfold compute_profile_weighted_wan_windows
  rw [if_neg hmax]
  generalize cfg.profiles = ps
  induction ps generalizing out with
  | nil => rfl
  | cons p ps ih =>
    rw [List.foldl_cons, ih, profile_windows_eq, List.flatMap_cons, write_all_append]

/-! ## The entries of a profile and its rows -/

section

variable {db : Db} {ids : List Int} {cfg : AppConfig}

/-- The names and weights of the entries are those of the rows whose names fit. -/
theorem entries_named (h : HasRows db ids cfg) {id : Int} (hid : id ∈ ids) {p : ProfileConfig}
    (hp : p ∈ cfg.profiles)
    (hlinks : wan_links cfg p = rows_by (first_peer (ids.flatMap (wan_rows db))) (wan_rows db id)) :
    (wan_entries p).map (fun a => ((cfg.wans[a.1]?).map (·.ifname), a.2)) =
      ((wan_rows db id).filter name_fits).map fun row => (some row.1, row.2.2) := by
  have hpeer : ∀ row ∈ wan_rows db id,
      (first_peer (ids.flatMap (wan_rows db)) row.1).isSome = name_fits row :=
    fun row hrow => first_peer_isSome hrow fun r hr => List.mem_flatMap.mpr ⟨id, hid, hr⟩
  have hsame := congrArg (List.map fun l : Bytes × UInt32 × Int => (some l.1, l.2.2)) hlinks
  rw [rows_by_lookup hpeer] at hsame
  unfold wan_links at hsame
  rw [← wan_entries_zip (h.weights p hp), List.map_filterMap, List.map_filterMap] at hsame
  rw [← List.filterMap_eq_map, ← List.filterMap_eq_map, List.filterMap_filter]
  refine (Eq.trans ?_ hsame).trans ?_
  · refine List.filterMap_congr fun a ha => ?_
    have hmem : a.1 ∈ p.wan_indices := by
      rw [← wan_entries_fst p]
      exact List.mem_map_of_mem ha
    have hwan := List.getElem?_eq_getElem (h.wans p hp a.1 hmem)
    simp only [Function.comp_apply, hwan, Option.map_some]
  · refine List.filterMap_congr fun row hrow => ?_
    rw [← hpeer row hrow]
    cases first_peer (ids.flatMap (wan_rows db)) row.1 with
    | none => rfl
    | some dst_ip => rfl

/-- The weights of the entries are those of the rows. -/
theorem entry_weights {p : ProfileConfig} {rows : List (Bytes × UInt32 × Int)}
    (h : (wan_entries p).map (fun a => ((cfg.wans[a.1]?).map (·.ifname), a.2)) =
      (rows.filter name_fits).map fun row => (some row.1, row.2.2)) :
    ((wan_entries p).map (·.2.toNat)).sum = ((weighted rows).map (·.2.2.toNat)).sum := by
  have hsame := congrArg (fun l => (l.map (fun x : Option Bytes × Int => x.2.toNat)).sum) h
  simp only [List.map_map] at hsame
  refine hsame.trans ?_
  unfold weighted
  generalize rows.filter name_fits = named
  -- a row without a weight adds nothing
  induction named with
  | nil => rfl
  | cons row named ih =>
    rw [List.map_cons, List.sum_cons, ih]
    by_cases hw : 0 < row.2.2
    · rw [List.filter_cons, if_pos (decide_eq_true hw), List.map_cons, List.sum_cons]
      rfl
    · rw [List.filter_cons, if_neg (by rw [decide_eq_true_eq]; exact hw)]
      show row.2.2.toNat + _ = _
      omega

/-- The weights of at most 16 rows, none of which is over 100. -/
theorem weights_small {rows : List (Bytes × UInt32 × Int)} (hlen : rows.length ≤ MAX_INTERFACES)
    (hweights : ∀ row ∈ rows, row.2.2 ≤ 100) :
    ((weighted rows).map (·.2.2.toNat)).sum ≤ 1600 := by
  have hshort : (weighted rows).length ≤ rows.length :=
    (List.length_filter_le _ _).trans (List.length_filter_le _ _)
  refine (List.sum_le_card_nsmul _ 100 fun w hw => ?_).trans ?_
  · obtain ⟨row, hrow, rfl⟩ := List.mem_map.mp hw
    have hle := hweights row (List.mem_of_mem_filter (List.mem_of_mem_filter hrow))
    omega
  · rw [List.length_map, smul_eq_mul]
    unfold MAX_INTERFACES at hlen
    omega

/-- An entry leads to an interface exactly if it leads to its name. -/
theorem entry_at_iff (h : HasRows db ids cfg) (hnames : (wan_names cfg).Nodup) {p : ProfileConfig}
    (hp : p ∈ cfg.profiles) {i : Nat} {wan : WanConfig} (hi : cfg.wans[i]? = some wan)
    {a : Nat × Int} (ha : a ∈ wan_entries p) :
    a.1 = i ↔ (cfg.wans[a.1]?).map (fun w => w.ifname) = some wan.ifname := by
  have hmem : a.1 ∈ p.wan_indices := by
    rw [← wan_entries_fst p]
    exact List.mem_map_of_mem ha
  have hlt : a.1 < (wan_names cfg).length := by
    unfold wan_names
    rw [List.length_map]
    exact h.wans p hp a.1 hmem
  constructor
  · rintro rfl
    rw [hi, Option.map_some]
  · intro hname
    refine (List.getElem?_inj hlt hnames).mp ?_
    unfold wan_names
    rw [List.getElem?_map, List.getElem?_map, hname, hi, Option.map_some]

/-- The windows that a profile writes for an interface. -/
theorem window_writes_at (h : HasRows db ids cfg) (hnames : (wan_names cfg).Nodup)
    {p : ProfileConfig} (hp : p ∈ cfg.profiles) {i : Nat} {wan : WanConfig}
    (hi : cfg.wans[i]? = some wan) (hsmall : ((wan_entries p).map (·.2.toNat)).sum ≤ 1600) :
    ((window_writes cfg.wans.length p).filter (·.1 == i)).map (·.2.toNat) =
      (wan_entries p).filterMap fun a =>
        if 0 < a.2 ∧ (cfg.wans[a.1]?).map (fun w => w.ifname) = some wan.ifname then
          some (share ((wan_entries p).map (·.2.toNat)).sum a.2.toNat) else none := by
  have hsum : sumw p = (((wan_entries p).map (·.2.toNat)).sum : Nat) := by
    unfold sumw
    rw [weights_sum_positive_eq true (by omega), if_pos rfl]
  have hle : ∀ a ∈ wan_entries p, a.2.toNat ≤ ((wan_entries p).map (·.2.toNat)).sum :=
    fun a ha => List.le_sum_of_mem (List.mem_map_of_mem ha)
  generalize ((wan_entries p).map (·.2.toNat)).sum = sum at hsum hle hsmall
  have hlt : ∀ a ∈ wan_entries p, a.1 = i → a.1 < cfg.wans.length := by
    rintro a - rfl
    exact (List.getElem?_eq_some_iff.mp hi).1
  unfold window_writes
  rw [h.enabled p hp]
  by_cases hnone : sumw p ≤ 0
  · -- without a weight there is nothing to write
    rw [if_pos (Or.inr hnone)]
    symm
    refine List.filterMap_eq_nil_iff.mpr fun a ha => if_neg ?_
    have hzero := hle a ha
    omega
  · rw [if_neg (by rintro (hen | hle); exacts [Bool.noConfusion hen, hnone hle])]
    rw [List.filter_map, List.map_map, List.filter_filter, ← List.filterMap_eq_map,
      List.filterMap_filter]
    refine List.filterMap_congr fun a ha => ?_
    have hiff := entry_at_iff h hnames hp hi ha
    have hwritten : ((a.1 == i) && (decide (a.1 < cfg.wans.length) && decide (0 < a.2))) = true ↔
        0 < a.2 ∧ a.1 = i := by
      rw [Bool.and_eq_true, Bool.and_eq_true, beq_iff_eq, decide_eq_true_eq, decide_eq_true_eq]
      exact ⟨fun hc => ⟨hc.2.2, hc.1⟩, fun hc => ⟨hc.2, hlt a ha hc.2, hc.1⟩⟩
    dsimp only [Function.comp_apply]
    by_cases hat : 0 < a.2 ∧ a.1 = i
    · have hbound := hle a ha
      have hwin := win_toNat hat.1 (show a.2 ≤ sumw p by omega) (by omega)
      rw [if_pos (hwritten.mpr hat), if_pos ⟨hat.1, hiff.mp hat.2⟩, hwin, hsum]
      rfl
    · rw [if_neg fun hc => hat (hwritten.mp hc), if_neg fun hc => hat ⟨hc.1, hiff.mpr hc.2⟩]

/-- What a profile writes for an interface is what its rows give to the name. -/
theorem window_writes_rows (h : HasRows db ids cfg) (hnames : (wan_names cfg).Nodup)
    {rows : List (Bytes × UInt32 × Int)} {p : ProfileConfig} (hp : p ∈ cfg.profiles)
    (hnamed : (wan_entries p).map (fun a => ((cfg.wans[a.1]?).map (·.ifname), a.2)) =
      (rows.filter name_fits).map fun row => (some row.1, row.2.2))
    (hsmall : ((weighted rows).map (·.2.2.toNat)).sum ≤ 1600) {i : Nat} {wan : WanConfig}
    (hi : cfg.wans[i]? = some wan) :
    ((window_writes cfg.wans.length p).filter (·.1 == i)).map (·.2.toNat) =
      row_windows rows wan.ifname := by
  have hsums := entry_weights hnamed
  rw [window_writes_at h hnames hp hi (by rw [hsums]; exact hsmall), hsums]
  unfold row_windows
  generalize ((weighted rows).map (·.2.2.toNat)).sum = sum
  have hsame := congrArg (List.filterMap fun x : Option Bytes × Int =>
    if 0 < x.2 ∧ x.1 = some wan.ifname then some (share sum x.2.toNat) else none) hnamed
  rw [List.filterMap_map, List.filterMap_map] at hsame
  refine hsame.trans ?_
  unfold weighted
  generalize rows.filter name_fits = named
  rw [List.filter_filter, ← List.filterMap_eq_map, List.filterMap_filter]
  refine List.filterMap_congr fun row _ => ?_
  simp only [Function.comp_apply, Option.some.injEq, Bool.and_eq_true, beq_iff_eq,
    decide_eq_true_eq, and_comm]

/-! ## All the profiles -/

theorem length_wan_rows {id : Int} {tmp : AppConfig} (h : config_load_from_db db id = some tmp) :
    (wan_rows db id).length ≤ MAX_INTERFACES := by
  obtain ⟨cfg, -, hwans, -⟩ := config_load_from_db_wans h
  have hle := tmp.wans_le
  rw [hwans, List.length_map] at hle
  exact hle

/-- Every profile writes what its rows give, in the order of the profiles. -/
theorem all_writes (h : HasRows db ids cfg) (hnames : (wan_names cfg).Nodup)
    (hsmall : ∀ id ∈ ids, ((weighted (wan_rows db id)).map (·.2.2.toNat)).sum ≤ 1600) {i : Nat}
    {wan : WanConfig} (hi : cfg.wans[i]? = some wan) :
    (((cfg.profiles.flatMap (window_writes cfg.wans.length)).filter (·.1 == i)).map (·.2.toNat)) =
      ids.flatMap fun id => row_windows (wan_rows db id) wan.ifname := by
  rw [List.filter_flatMap, List.map_flatMap, List.flatMap_def, List.flatMap_def]
  refine congrArg List.flatten (List.ext_getElem? fun k => ?_)
  rw [List.getElem?_map, List.getElem?_map]
  cases hk : ids[k]? with
  | none =>
    rw [List.getElem?_eq_none_iff] at hk
    rw [List.getElem?_eq_none (by rw [h.length]; exact hk)]
    rfl
  | some id =>
    obtain ⟨p, hp, -, hlinks⟩ := h.profile hk
    have hid := List.mem_of_getElem? hk
    have hmem := List.mem_of_getElem? hp
    rw [hp, Option.map_some, Option.map_some]
    exact congrArg some (window_writes_rows h hnames hmem (entries_named h hid hmem hlinks)
      (hsmall id hid) hi)

/-- The entries keep the window that they are loaded with. -/
theorem merge_one_config_windows {dst src dst' : AppConfig}
    (hd : ∀ w ∈ dst.wans, w.window_size = base_bytes.toNat)
    (hs : ∀ w ∈ src.wans, w.window_size = base_bytes.toNat)
    (h : merge_one_config dst src = some dst') :
    ∀ w ∈ dst'.wans, w.window_size = base_bytes.toNat := by
  obtain ⟨dst1, dst2, dst3, lm, wm, pm, map, h1, h2, h3, h4⟩ := merge_one_config_some h
  rw [(append_all_profile_frame h4).2.1, (append_all_policy_frame h3).2.1]
  refine append_all_keeps (P := fun c => ∀ w ∈ c.wans, w.window_size = base_bytes.toNat)
    (fun w hw d d' idx hd happ => ?_) ?_ h2
  · rcases append_wan_unique_some happ with rfl | ⟨hle, rfl⟩
    · exact hd
    · intro v hv
      rcases List.mem_append.mp hv with hv | hv
      · exact hd v hv
      · rw [List.mem_singleton.mp hv]
        exact hs w hw
  · rw [(append_all_local_frame h1).1]
    exact hd

theorem merge_all_windows {dst dst' : AppConfig}
    (hd : ∀ w ∈ dst.wans, w.window_size = base_bytes.toNat)
    (h : merge_all db dst ids = some dst') :
    ∀ w ∈ dst'.wans, w.window_size = base_bytes.toNat := by
  induction ids generalizing dst with
  | nil =>
    obtain rfl := Option.some.inj h
    exact hd
  | cons id ids ih =>
    obtain ⟨tmp, dst1, hload, hone, hrest⟩ := merge_all_cons_some h
    refine ih (merge_one_config_windows hd (fun w hw => ?_) hone) hrest
    obtain ⟨cfg, -, hwans, -⟩ := config_load_from_db_wans hload
    rw [hwans] at hw
    obtain ⟨row, -, rfl⟩ := List.mem_map.mp hw
    rfl

/-- The name of every entry is there once, and each has the base window. -/
theorem merged_wans (h : build_merged_config db ids = some cfg) :
    (wan_names cfg).Nodup ∧ ∀ w ∈ cfg.wans, w.window_size = base_bytes.toNat := by
  obtain ⟨merged, hall, rfl⟩ := build_merged_config_some h
  have hsame : (merged_crypto merged).wans = merged.wans := by
    unfold merged_crypto
    split <;> rfl
  have hdistinct := (@merge_all_names db ids {} merged ⟨List.nodup_nil, List.nodup_nil⟩ hall).1.wans
  have hwindows := @merge_all_windows db ids {} merged (fun w hw => absurd hw List.not_mem_nil) hall
  unfold wan_names at hdistinct ⊢
  rw [hsame]
  exact ⟨hdistinct, hwindows⟩

/-! ## The law -/

theorem window_for_bounds (db : Db) (ids : List Int) (ifname : Bytes) :
    min_bytes.toNat ≤ window_for db ids ifname ∧
      window_for db ids ifname ≤ base_bytes.toNat := by
  unfold window_for
  cases hlast : (ids.flatMap fun id => row_windows (wan_rows db id) ifname).getLast? with
  | none => exact ⟨by decide, le_refl _⟩
  | some win =>
    obtain ⟨id, hid, hwin⟩ := List.mem_flatMap.mp (List.mem_of_getLast? hlast)
    obtain ⟨row, hrow, rfl⟩ := List.mem_map.mp hwin
    rw [Option.getD_some]
    refine ⟨le_max_left _ _, share_le (List.le_sum_of_mem ?_)⟩
    exact List.mem_map_of_mem (List.mem_of_mem_filter hrow)

/-- The window of an interface, of which the name is all that counts. -/
theorem window_at (h : HasRows db ids cfg) (hnames : (wan_names cfg).Nodup)
    (hwindows : ∀ w ∈ cfg.wans, w.window_size = base_bytes.toNat)
    (hsmall : ∀ id ∈ ids, ((weighted (wan_rows db id)).map (·.2.2.toNat)).sum ≤ 1600) {i : Nat}
    {wan : WanConfig} (hi : cfg.wans[i]? = some wan) :
    ((wan_window_sizes cfg)[i]?).map UInt32.toNat = some (window_for db ids wan.ifname) := by
  obtain ⟨hlt, -⟩ := List.getElem?_eq_some_iff.mp hi
  have hmax : i < MAX_INTERFACES := hlt.trans_le cfg.wans_le
  have hstart : ((cfg.wans[i]?).map fun wan => UInt32.ofNat wan.window_size).getD 0 =
      base_bytes := by
    rw [hi, Option.map_some, Option.getD_some, hwindows wan (List.mem_of_getElem? hi)]
    rfl
  unfold wan_window_sizes window_for
  dsimp only
  rw [compute_windows_eq _ _ (by omega), getElem?_write_all, List.getElem?_map,
    List.getElem?_range hmax, Option.map_some, Option.map_some, hstart, Option.map_some,
    ← all_writes h hnames hsmall hi]
  refine congrArg some ?_
  generalize (cfg.profiles.flatMap (window_writes cfg.wans.length)).filter (·.1 == i) = writes
  rw [List.getLast?_map, List.getLast?_map]
  cases writes.getLast? with
  | none => rfl
  | some w => rfl

/-- A window between the minimum and the base fits every packet under the minimum. -/
theorem windows_fit {P : Nat} (hP : P < min_bytes.toNat)
    (hwindow : ∀ (i : Nat) (wan : WanConfig), cfg.wans[i]? = some wan →
      ((wan_window_sizes cfg)[i]?).map UInt32.toNat = some (window_for db ids wan.ifname)) :
    WindowsFit (wan_window_sizes cfg) cfg.wans.length P := by
  intro i hi
  have hat := hwindow i cfg.wans[i] (List.getElem?_eq_getElem hi)
  obtain ⟨win, hwin, hval⟩ := Option.map_eq_some_iff.mp hat
  have hbounds := window_for_bounds db ids cfg.wans[i].ifname
  rw [← hval] at hbounds
  rw [List.getD_eq_getElem?_getD, hwin, Option.getD_some]
  unfold min_bytes base_bytes at hbounds
  unfold min_bytes at hP
  simp only [UInt32.reduceToNat] at hbounds hP
  omega

/-- Every interface starts with the part of the base window that the last of its rows with a weight
gives it, be they of one profile or of several, and every packet under 512 KiB is less than a
window. The `weight` of a row of `ne_wan` is at most 100. -/
theorem every_wan_starts_with_the_window_of_its_last_weighted_row
    (h : build_merged_config db ids = some cfg)
    (hweights : ∀ id ∈ ids, ∀ row ∈ wan_rows db id, row.2.2 ≤ 100) :
    (∀ (i : Nat) (wan : WanConfig), cfg.wans[i]? = some wan →
      ((wan_window_sizes cfg)[i]?).map UInt32.toNat = some (window_for db ids wan.ifname)) ∧
    ∀ P < min_bytes.toNat, WindowsFit (wan_window_sizes cfg) cfg.wans.length P := by
  have hrows := build_merged_config_hasRows h
  obtain ⟨hnames, hwindows⟩ := merged_wans h
  have hsmall : ∀ id ∈ ids, ((weighted (wan_rows db id)).map (·.2.2.toNat)).sum ≤ 1600 := by
    rw [build_merged_config_sources] at h
    obtain ⟨sources, hsources, -⟩ := Option.bind_eq_some_iff.mp h
    exact fun id hid => weights_small (length_wan_rows ((loads_some hsources).2 id hid))
      (hweights id hid)
  have hwindow : ∀ (i : Nat) (wan : WanConfig), cfg.wans[i]? = some wan →
      ((wan_window_sizes cfg)[i]?).map UInt32.toNat = some (window_for db ids wan.ifname) :=
    fun i wan hi => window_at hrows hnames hwindows hsmall hi
  exact ⟨hwindow, fun P hP => windows_fit hP hwindow⟩

end

/-- Two profiles that share `wan0`, which has 60 of the 100 in the first and 1 in the second. -/
def sharedWan (id : Int) : Option ProfileColumns :=
  if id = 1 then some
    { lans := some [[108, 97, 110, 48]]
      wans := some [([119, 97, 110, 48], 0, 60), ([119, 97, 110, 49], 0, 40)]
      policies := some [dnsRow] }
  else if id = 2 then some
    { lans := some [[108, 97, 110, 49]]
      wans := some [([119, 97, 110, 48], 0, 1), ([119, 97, 110, 50], 0, 99)]
      policies := some [webRow] }
  else none

theorem the_second_profile_narrows_the_window_of_wan0 : ∃ cfg,
    build_merged_config (database digests sharedWan) [1, 2] = some cfg ∧
    (wan_window_sizes cfg)[0]?.map UInt32.toNat = some 524288 ∧
    (wan_window_sizes cfg)[1]?.map UInt32.toNat = some 4194304 ∧
    WindowsFit (wan_window_sizes cfg) cfg.wans.length 1514 := by
  have hmerge : (build_merged_config (database digests sharedWan) [1, 2]).map wan_names =
      some [[119, 97, 110, 48], [119, 97, 110, 49], [119, 97, 110, 50]] := by decide +kernel
  obtain ⟨cfg, hcfg, hnames⟩ := Option.map_eq_some_iff.mp hmerge
  have hwan : ∀ (i : Nat) (name : Bytes), (wan_names cfg)[i]? = some name →
      ∃ wan : WanConfig, cfg.wans[i]? = some wan ∧ wan.ifname = name := by
    intro i name hi
    unfold wan_names at hi
    rw [List.getElem?_map] at hi
    exact Option.map_eq_some_iff.mp hi
  obtain ⟨wan0, h0, hname0⟩ := hwan 0 [119, 97, 110, 48] (by rw [hnames]; rfl)
  obtain ⟨wan1, h1, hname1⟩ := hwan 1 [119, 97, 110, 49] (by rw [hnames]; rfl)
  have hweights : ∀ id ∈ [1, 2], ∀ row ∈ wan_rows (database digests sharedWan) id,
      row.2.2 ≤ 100 := by decide +kernel
  obtain ⟨hwindow, hfit⟩ :=
    every_wan_starts_with_the_window_of_its_last_weighted_row hcfg hweights
  refine ⟨cfg, hcfg, ?_, ?_, hfit 1514 (by decide)⟩
  · rw [hwindow 0 wan0 h0, hname0]
    rfl
  · rw [hwindow 1 wan1 h1, hname1]
    rfl

end ne_ip.wan_windows
