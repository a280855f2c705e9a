-- The file in which the ARP cache of an interface outlives the process (wan_arp.c): one line an
-- entry, written in the order of the table and inserted one by one when it is loaded.
import NeIp.ArpCache
import NeIp.FlowTable
import NeIp.ScanText

open c_text linear_probing scan_text ne_ip.flow_table

namespace ne_ip.arp_cache

/-- The line of an entry, `"%u %02x:%02x:%02x:%02x:%02x:%02x\n"`. -/
def print_entry (ip : UInt32) (mac : Mac) : Text :=
  print_unsigned (ntohl ip) ++ 32 :: print_hex_byte mac[0] ++ 58 :: print_hex_byte mac[1] ++
    58 :: print_hex_byte mac[2] ++ 58 :: print_hex_byte mac[3] ++ 58 :: print_hex_byte mac[4] ++
    58 :: print_hex_byte mac[5] ++ [10]

/-- The text of the file, or none where it is left as it is. -/
def arp_cache_save (c : ArpCache) : Option Text × ArpCache :=
  if c.persist_dirty = 0 then (none, c)
  else
    (some (c.entries.toList.flatMap fun e => if e.ip = 0 then [] else print_entry e.ip e.mac),
      { c with persist_dirty := 0 })

/-- `:%x` -/
def scan_next (s : Text) : Option (UInt32 × Text) := (scan_byte 58 s).bind scan_hex

/-- `fscanf` with `"%u %x:%x:%x:%x:%x:%x\n"`, where it converts all seven: the address in the order
of the host, the MAC, and the text that is left. -/
def scan_entry (s : Text) : Option (UInt32 × Mac × Text) := do
  let (ip_host, s) ← scan_unsigned s
  let (b0, s) ← scan_hex (s.dropWhile isSpace)
  let (b1, s) ← scan_next s
  let (b2, s) ← scan_next s
  let (b3, s) ← scan_next s
  let (b4, s) ← scan_next s
  let (b5, s) ← scan_next s
  some (ip_host, #v[b0.toUInt8, b1.toUInt8, b2.toUInt8, b3.toUInt8, b4.toUInt8, b5.toUInt8],
    s.dropWhile isSpace)

theorem length_scan_next_lt {s rest : Text} {x : UInt32} (h : scan_next s = some (x, rest)) :
    rest.length < s.length := by
  obtain ⟨t, hbyte, hhex⟩ := Option.bind_eq_some_iff.mp h
  exact (length_scan_hex_lt hhex).trans (length_scan_byte_lt hbyte)

theorem length_scan_entry_lt {s rest : Text} {ip_host : UInt32} {mac : Mac}
    (h : scan_entry s = some (ip_host, mac, rest)) : rest.length < s.length := by
  unfold scan_entry at h
  simp only [Option.bind_eq_bind, Option.bind_eq_some_iff, Prod.exists] at h
  obtain ⟨x, s0, h0, b0, s1, h1, b1, s2, h2, b2, s3, h3, b3, s4, h4, b4, s5, h5, b5, s6, h6,
    heq⟩ := h
  obtain rfl := (Prod.mk.inj (Prod.mk.inj (Option.some.inj heq)).2).2
  have hspace1 := (List.dropWhile_suffix (l := s0) isSpace).length_le
  have hspace2 := (List.dropWhile_suffix (l := s6) isSpace).length_le
  have hlt0 := length_scan_unsigned_lt h0
  have hlt1 := length_scan_hex_lt h1
  have hlt2 := length_scan_next_lt h2
  have hlt3 := length_scan_next_lt h3
  have hlt4 := length_scan_next_lt h4
  have hlt5 := length_scan_next_lt h5
  have hlt6 := length_scan_next_lt h6
  omega

/-- The loop of `arp_cache_load` before its turn `i`, at which `time` gives `now i`; `htonl` swaps
the bytes as `ntohl` does. -/
def load_from (now : Nat → UInt32) (i : Nat) (s : Text) (c : ArpCache) : ArpCache :=
  match h : scan_entry s with
  | none => c
  | some (ip_host, mac, rest) =>
    load_from now (i + 1) rest (arp_cache_insert c (ntohl ip_host) mac (now i))
termination_by s.length
decreasing_by exact length_scan_entry_lt h

/-- Without a file nothing is loaded. -/
def arp_cache_load (now : Nat → UInt32) (file : Option Text) (c : ArpCache) : ArpCache :=
  match file with
  | none => c
  | some s => { load_from now 0 s c with persist_dirty := 0 }

/-! ## What was written is read -/

theorem scan_next_print (b : UInt8) {rest : Text} (h : EndsBefore isHexDigit rest) :
    scan_next (58 :: (print_hex_byte b ++ rest)) = some (b.toUInt32, rest) :=
  scan_hex_print b h

/-- A text that is empty or goes on with a digit loses nothing to the white space at its front. -/
theorem dropWhile_isSpace_of_digit {s : Text} (h : ∀ b ∈ s.head?, isDigit b = true) :
    s.dropWhile isSpace = s := by
  cases s with
  | nil => rfl
  | cons b s => exact dropWhile_isSpace_cons (isHexDigit_of_isDigit (h b rfl)) s

theorem dropWhile_isSpace_print (b : UInt8) (s : Text) :
    (32 :: (print_hex_byte b ++ s)).dropWhile isSpace = print_hex_byte b ++ s := by
  have hb := b.toNat_lt
  rw [List.dropWhile_cons_of_pos rfl]
  exact dropWhile_isSpace_cons (isHexDigit_digitChar (by omega)).1 _

theorem toUInt8_toUInt32 (b : UInt8) : b.toUInt32.toUInt8 = b := by
  simp

theorem mac_eq (mac : Mac) : #v[mac[0], mac[1], mac[2], mac[3], mac[4], mac[5]] = mac := by
  ext i hi
  interval_cases i <;> rfl

theorem scan_entry_print (ip : UInt32) (mac : Mac) {rest : Text}
    (h : ∀ b ∈ rest.head?, isDigit b = true) :
    scan_entry (print_entry ip mac ++ rest) = some (ntohl ip, mac, rest) := by
  have hcolon (s : Text) : EndsBefore isHexDigit (58 :: s) := endsBefore_cons rfl s
  unfold scan_entry print_entry
  simp only [List.append_assoc, List.cons_append, List.nil_append, Option.bind_eq_bind]
  rw [scan_unsigned_print _ (endsBefore_cons rfl _), Option.bind_some, dropWhile_isSpace_print,
    scan_hex_print _ (hcolon _), Option.bind_some, scan_next_print _ (hcolon _), Option.bind_some,
    scan_next_print _ (hcolon _), Option.bind_some, scan_next_print _ (hcolon _),
    Option.bind_some, scan_next_print _ (hcolon _), Option.bind_some,
    scan_next_print _ (endsBefore_cons rfl _), Option.bind_some, List.dropWhile_cons_of_pos rfl,
    dropWhile_isSpace_of_digit h]
  simp only [toUInt8_toUInt32, mac_eq]

/-! ## The round trip -/

/-- The lines of entries in a row. -/
def lines (es : List (UInt32 × Mac)) : Text := es.flatMap fun e => print_entry e.1 e.2

/-- The entries of the table in its order, without the empty slots. -/
def live (c : ArpCache) : List (UInt32 × Mac) :=
  (c.entries.toList.filter (·.ip ≠ 0)).map fun e => (e.ip, e.mac)

theorem lines_live (c : ArpCache) :
    lines (live c) =
      c.entries.toList.flatMap fun e => if e.ip = 0 then [] else print_entry e.ip e.mac := by
  unfold lines live
  rw [List.flatMap_map]
  induction c.entries.toList with
  | nil => rfl
  | cons e es ih =>
    rw [List.flatMap_cons, ← ih]
    by_cases hip : e.ip = 0
    · rw [if_pos hip, List.filter_cons_of_neg (by simpa using hip), List.nil_append]
    · rw [if_neg hip, List.filter_cons_of_pos (by simpa using hip), List.flatMap_cons]

theorem arp_cache_save_eq (c : ArpCache) :
    (arp_cache_save c).1 = if c.persist_dirty = 0 then none else some (lines (live c)) := by
  unfold arp_cache_save
  rw [lines_live]
  split
  · rfl
  · rfl

theorem head_lines {es : List (UInt32 × Mac)} : ∀ b ∈ (lines es).head?, isDigit b = true := by
  cases es with
  | nil =>
    intro b hb
    simp [lines] at hb
  | cons e es =>
    intro b hb
    obtain ⟨d, ds, hds⟩ := List.exists_cons_of_ne_nil (print_unsigned_ne_nil (ntohl e.1))
    have hd : isDigit d = true := isDigit_of_mem_print (hds ▸ List.mem_cons_self)
    unfold lines at hb
    rw [List.flatMap_cons, print_entry, hds] at hb
    simp only [List.cons_append, List.head?_cons, Option.mem_def, Option.some_inj] at hb
    exact hb ▸ hd

/-- Every line inserts its entry. -/
theorem represents_load_from (now : Nat → UInt32) {es : List (UInt32 × Mac)}
    (hes : ∀ e ∈ es, e.1 ≠ 0) (i : Nat) {c : ArpCache}
    {m : BoundedMap ARP_CACHE_SIZE UInt32 Mac}
    (h : arpProbing.Represents (·.mac) c.entries.get m) :
    arpProbing.Represents (·.mac) (load_from now i (lines es) c).entries.get
      (es.foldl (fun m e => m.insert e.1 e.2) m) := by
  induction es generalizing i c m with
  | nil =>
    rw [load_from]
    exact h
  | cons e es ih =>
    have hscan : scan_entry (lines (e :: es)) = some (ntohl e.1, e.2, lines es) :=
      scan_entry_print e.1 e.2 head_lines
    rw [load_from]
    split
    · rename_i hnone
      rw [hscan] at hnone
      simp at hnone
    · rename_i ip_host mac rest hsome
      rw [hscan] at hsome
      obtain ⟨rfl, rfl, rfl⟩ : ntohl e.1 = ip_host ∧ e.2 = mac ∧ lines es = rest := by
        simpa using hsome
      rw [ntohl_ntohl, List.foldl_cons]
      refine ih (fun e' he' => hes e' (List.mem_cons_of_mem e he')) (i + 1) ?_
      exact represents_call h { ip := e.1, mac := e.2, now := now i, ip_ne_zero := hes e (by simp) }

theorem mem_live {c : ArpCache} {ip : UInt32} {mac : Mac} :
    (ip, mac) ∈ live c ↔ ∃ j, arpProbing.key (c.entries.get j) = some ip ∧
      (c.entries.get j).mac = mac := by
  unfold live
  simp only [List.mem_map, List.mem_filter, Vector.mem_toList_iff, Vector.mem_iff_getElem,
    key_eq_some, Prod.mk.injEq, decide_eq_true_eq]
  constructor
  · rintro ⟨e, ⟨⟨j, hj, rfl⟩, hne⟩, hip, hmac⟩
    exact ⟨⟨j, hj⟩, ⟨hne, hip⟩, hmac⟩
  · rintro ⟨j, ⟨hne, hip⟩, hmac⟩
    exact ⟨_, ⟨⟨j, j.isLt, rfl⟩, hne⟩, hip, hmac⟩

theorem length_live_le (c : ArpCache) : (live c).length ≤ ARP_CACHE_SIZE := by
  unfold live
  rw [List.length_map]
  refine (List.length_filter_le _ _).trans ?_
  rw [Vector.length_toList]

/-- No two slots have one address. -/
theorem nodup_live {c : ArpCache} (h : arpProbing.Wf c.entries.get) :
    ((live c).map Prod.fst).Nodup := by
  unfold live
  rw [List.map_map, List.Nodup, List.pairwise_map, List.pairwise_filter,
    List.pairwise_iff_getElem]
  intro i j hi hj hij hne hne' heq
  rw [Vector.length_toList] at hi hj
  rw [Vector.getElem_toList] at hne hne' heq
  have hstop := h ⟨i, hi⟩ _ (key_eq_some.mpr ⟨of_decide_eq_true hne, rfl⟩)
  have hstop' := h ⟨j, hj⟩ _ (key_eq_some.mpr ⟨of_decide_eq_true hne', rfl⟩)
  have hip : c.entries[i].ip = c.entries[j].ip := heq
  have hsame : some (⟨i, hi⟩ : Fin ARP_CACHE_SIZE) = some ⟨j, hj⟩ := by
    rw [← hstop, ← hstop']
    exact congrArg (arpProbing.stop c.entries.get) hip
  exact hij.ne (congrArg Fin.val (Option.some.inj hsame))

theorem lookup_eq_some_iff {c : ArpCache} (h : arpProbing.Wf c.entries.get) {ip : UInt32}
    {mac : Mac} : arp_cache_lookup c ip = some mac ↔ (ip, mac) ∈ live c := by
  rw [arp_cache_lookup_eq, Option.map_eq_some_iff, mem_live]
  simp only [h.find_eq_some]
  constructor
  · rintro ⟨e, ⟨hkey, j, rfl⟩, hmac⟩
    exact ⟨j, hkey, hmac⟩
  · rintro ⟨j, hkey, hmac⟩
    exact ⟨_, ⟨hkey, j, rfl⟩, hmac⟩

/-- The file that an insertion left to be written has all that the cache answers. -/
theorem lookup_load_lines (now : Nat → UInt32) {c : ArpCache} (h : arpProbing.Wf c.entries.get)
    (ip : UInt32) :
    arp_cache_lookup (arp_cache_load now (some (lines (live c))) {}) ip =
      arp_cache_lookup c ip := by
  have hne : ∀ e ∈ live c, e.1 ≠ 0 := by
    intro e he
    obtain ⟨j, hkey, -⟩ := mem_live.mp he
    obtain ⟨hne, hip⟩ := key_eq_some.mp hkey
    exact hip ▸ hne
  have hload := represents_load_from now hne 0 (represents_after [])
  refine Option.ext fun mac => ?_
  rw [lookup_eq_some_iff h, arp_cache_lookup_eq]
  rw [← BoundedMap.lookup_after_eq_some (length_live_le c) (nodup_live h)]
  exact (hload.lookup ip).congr_left

/-- The cache is as it was at the start or has to be written: every insertion that changes it sets
`persist_dirty`, and the first one does. -/
theorem persist_dirty_cache_after (calls : List Insertion) :
    if calls = [] then cache_after calls = {} else (cache_after calls).persist_dirty = 1 := by
  induction calls using List.reverseRecOn with
  | nil => rfl
  | append_singleton calls ins ih =>
    rw [if_neg (by simp), cache_after_append]
    unfold Insertion.call
    rw [arp_cache_insert_eq]
    cases hstop : arpProbing.stop (cache_after calls).entries.get ins.ip with
    | some j => rfl
    | none =>
      have htakes := (represents_after calls).stop_ne_none.not.mp (not_not.mpr hstop)
      split at ih
      · subst calls
        exact absurd (.inr (by decide)) htakes
      · exact ih

/-- After any insertions into the zeroed cache, a zeroed cache into which the saved file is loaded
answers every address as the saved cache does; without an insertion there is no file. -/
theorem the_loaded_cache_answers_as_the_saved_one (calls : List Insertion) (now : Nat → UInt32) :
    ((arp_cache_save (cache_after calls)).1 = none ↔ calls = []) ∧
    ∀ ip, arp_cache_lookup (arp_cache_load now (arp_cache_save (cache_after calls)).1 {}) ip =
      arp_cache_lookup (cache_after calls) ip := by
  have hdirty := persist_dirty_cache_after calls
  rw [arp_cache_save_eq]
  split at hdirty
  · subst calls
    exact ⟨iff_of_true rfl rfl, fun ip => rfl⟩
  · have hwritten : (cache_after calls).persist_dirty ≠ 0 := by
      rw [hdirty]
      decide
    rw [if_neg hwritten]
    exact ⟨iff_of_false (by simp) ‹_›, lookup_load_lines now (represents_after calls).wf⟩

/-- The line of the address 10.0.10.99, `"167774819 02:00:00:00:0a:ff\n"`. -/
example : print_entry 1661599754 #v[2, 0, 0, 0, 10, 255] =
    [49, 54, 55, 55, 55, 52, 56, 49, 57, 32, 48, 50, 58, 48, 48, 58, 48, 48, 58, 48, 48, 58, 48,
      97, 58, 102, 102, 10] := by decide +kernel

end ne_ip.arp_cache
