-- The ARP cache of an interface (wan_arp.c): the MAC of an address is in a table that is searched
-- from the slot of the address on, up to an empty slot.
import NeIp.LinearProbing

open linear_probing

namespace ne_ip.arp_cache

def ARP_CACHE_SIZE : Nat := 2048

abbrev Mac := Vector UInt8 6

/-- `struct arp_entry`; the address 0 is that of an empty slot. -/
structure ArpEntry where
  ip : UInt32 := 0
  mac : Mac := Vector.replicate 6 0
  last_seen_sec : UInt32 := 0

/-- What the lookups and the insertions use of `struct arp_cache`; at the start it is zeroed. -/
structure ArpCache where
  entries : Vector ArpEntry ARP_CACHE_SIZE := Vector.replicate ARP_CACHE_SIZE {}
  persist_dirty : UInt32 := 0

def arp_hash (ip : UInt32) : UInt32 :=
  let x := ip
  let x := x ^^^ x >>> 16
  let x := x * 0x7feb352d
  let x := x ^^^ x >>> 15
  let x := x * 0x846ca68b
  x ^^^ x >>> 16

/-- `(h + i) & (ARP_CACHE_SIZE - 1)`. -/
def arp_idx (h i : UInt32) : UInt32 := (h + i) &&& (UInt32.ofNat ARP_CACHE_SIZE - 1)

theorem toNat_arp_idx (h i : UInt32) :
    (arp_idx h i).toNat = (h.toNat + i.toNat) % ARP_CACHE_SIZE := by
  unfold arp_idx
  rw [UInt32.toNat_and, UInt32.toNat_add]
  have hmask : (UInt32.ofNat ARP_CACHE_SIZE - 1).toNat = 2 ^ 11 - 1 := by decide
  rw [hmask, Nat.and_two_pow_sub_one_eq_mod]
  unfold ARP_CACHE_SIZE
  omega

/-- The entry that the loops come to after `i` others. -/
def arp_slot (ip i : UInt32) : Fin ARP_CACHE_SIZE :=
  ⟨(arp_idx (arp_hash ip) i).toNat, by
    rw [toNat_arp_idx]
    exact Nat.mod_lt _ (by decide)⟩

/-- The loop of `arp_cache_lookup` with `left` turns left. -/
def lookup_from (c : ArpCache) (ip : UInt32) : (left : Nat) → (i : UInt32) → Option Mac
  | 0, _ => none
  | left + 1, i =>
    let e := c.entries.get (arp_slot ip i)
    if e.ip = 0 then none
    else if e.ip = ip then some e.mac
    else lookup_from c ip left (i + 1)

/-- `mac_out` is given where the return value is 1. -/
def arp_cache_lookup (c : ArpCache) (ip : UInt32) : Option Mac :=
  lookup_from c ip ARP_CACHE_SIZE 0

/-- The loop of `arp_cache_insert` with `left` turns left. -/
def insert_from (c : ArpCache) (ip : UInt32) (mac : Mac) (now : UInt32) :
    (left : Nat) → (i : UInt32) → ArpCache
  | 0, _ => c
  | left + 1, i =>
    let idx := arp_slot ip i
    let e := c.entries.get idx
    if e.ip = 0 ∨ e.ip = ip then
      { entries := c.entries.set idx { ip, mac, last_seen_sec := now }
        persist_dirty := 1 }
    else insert_from c ip mac now left (i + 1)

def arp_cache_insert (c : ArpCache) (ip : UInt32) (mac : Mac) (now : UInt32) : ArpCache :=
  insert_from c ip mac now ARP_CACHE_SIZE 0

/-! ## The cache as a table with linear probing -/

instance : NeZero ARP_CACHE_SIZE := ⟨by decide⟩

def arpProbing : Probing ArpEntry UInt32 where
  key e := if e.ip = 0 then none else some e.ip
  hash ip := (arp_hash ip).toNat

theorem key_eq_none {e : ArpEntry} : arpProbing.key e = none ↔ e.ip = 0 := by
  unfold arpProbing
  simp

theorem key_eq_some {e : ArpEntry} {ip : UInt32} :
    arpProbing.key e = some ip ↔ e.ip ≠ 0 ∧ e.ip = ip := by
  unfold arpProbing
  simp

theorem ends_iff {c : ArpCache} {ip : UInt32} {j : Fin ARP_CACHE_SIZE} :
    arpProbing.ends c.entries.get ip j = true ↔
      (c.entries.get j).ip = 0 ∨ (c.entries.get j).ip = ip := by
  rw [Probing.ends_eq_true, key_eq_none, key_eq_some]
  tauto

theorem slot_eq (ip : UInt32) (i : Nat) :
    arpProbing.slot ARP_CACHE_SIZE ip i = arp_slot ip (UInt32.ofNat i) := by
  refine Fin.ext ?_
  show ((arp_hash ip).toNat + i) % ARP_CACHE_SIZE = (arp_idx (arp_hash ip) (UInt32.ofNat i)).toNat
  rw [toNat_arp_idx, UInt32.toNat_ofNat']
  unfold ARP_CACHE_SIZE
  omega

theorem next_turn (i : Nat) : UInt32.ofNat i + 1 = UInt32.ofNat (i + 1) :=
  (UInt32.ofNat_add i 1).symm

theorem lookup_from_eq (c : ArpCache) (ip : UInt32) (left i : Nat) :
    lookup_from c ip left (UInt32.ofNat i) =
      (((List.range' i left).map (arpProbing.slot ARP_CACHE_SIZE ip)).find?
        (arpProbing.ends c.entries.get ip)).bind fun j =>
          if arpProbing.key (c.entries.get j) = some ip then some (c.entries.get j).mac
          else none := by
  induction left generalizing i with
  | zero => rfl
  | succ left ih =>
    rw [lookup_from, List.range'_succ, List.map_cons, slot_eq, next_turn, ih]
    by_cases hempty : (c.entries.get (arp_slot ip (UInt32.ofNat i))).ip = 0
    · rw [if_pos hempty, List.find?_cons_of_pos (ends_iff.mpr (.inl hempty)), Option.bind_some,
        if_neg fun h => (key_eq_some.mp h).1 hempty]
    · rw [if_neg hempty]
      by_cases hip : (c.entries.get (arp_slot ip (UInt32.ofNat i))).ip = ip
      · rw [if_pos hip, List.find?_cons_of_pos (ends_iff.mpr (.inr hip)), Option.bind_some,
          if_pos (key_eq_some.mpr ⟨hempty, hip⟩)]
      · rw [if_neg hip, List.find?_cons_of_neg fun h => (ends_iff.mp h).elim hempty hip]

theorem arp_cache_lookup_eq (c : ArpCache) (ip : UInt32) :
    arp_cache_lookup c ip = (arpProbing.find c.entries.get ip).map (·.mac) := by
  unfold arp_cache_lookup Probing.find Probing.stop
  rw [Option.map_bind, List.range_eq_range']
  refine (lookup_from_eq c ip ARP_CACHE_SIZE 0).trans ?_
  congr 1
  funext j
  dsimp only [Function.comp]
  split
  · rfl
  · rfl

theorem insert_from_eq (c : ArpCache) (ip : UInt32) (mac : Mac) (now : UInt32) (left i : Nat) :
    insert_from c ip mac now left (UInt32.ofNat i) =
      match ((List.range' i left).map (arpProbing.slot ARP_CACHE_SIZE ip)).find?
        (arpProbing.ends c.entries.get ip) with
      | none => c
      | some j =>
        { entries := c.entries.set j { ip, mac, last_seen_sec := now }
          persist_dirty := 1 } := by
  induction left generalizing i with
  | zero => rfl
  | succ left ih =>
    rw [insert_from, List.range'_succ, List.map_cons, slot_eq, next_turn, ih]
    by_cases hends : (c.entries.get (arp_slot ip (UInt32.ofNat i))).ip = 0 ∨
        (c.entries.get (arp_slot ip (UInt32.ofNat i))).ip = ip
    · rw [if_pos hends, List.find?_cons_of_pos (ends_iff.mpr hends)]
    · rw [if_neg hends, List.find?_cons_of_neg fun h => hends (ends_iff.mp h)]

theorem get_set (entries : Vector ArpEntry ARP_CACHE_SIZE) (j : Fin ARP_CACHE_SIZE) (e : ArpEntry) :
    (entries.set j e).get = Function.update entries.get j e := by
  funext m
  rw [Function.update_apply]
  show (entries.set j e)[m.val] = if m = j then e else entries[m.val]
  rw [Vector.getElem_set]
  simp only [Fin.ext_iff, eq_comm]

theorem arp_cache_insert_eq (c : ArpCache) (ip : UInt32) (mac : Mac) (now : UInt32) :
    arp_cache_insert c ip mac now =
      match arpProbing.stop c.entries.get ip with
      | none => c
      | some j =>
        { entries := c.entries.set j { ip, mac, last_seen_sec := now }
          persist_dirty := 1 } := by
  unfold arp_cache_insert Probing.stop
  rw [List.range_eq_range']
  exact insert_from_eq c ip mac now ARP_CACHE_SIZE 0

theorem entries_insert (c : ArpCache) (ip : UInt32) (mac : Mac) (now : UInt32) :
    (arp_cache_insert c ip mac now).entries.get =
      arpProbing.insert c.entries.get ip { ip, mac, last_seen_sec := now } := by
  rw [arp_cache_insert_eq]
  unfold Probing.insert
  cases arpProbing.stop c.entries.get ip with
  | none => rfl
  | some j => exact get_set _ _ _

/-! ## The cache as a bounded map -/

/-- A call of `arp_cache_insert` with an address, at the time `now`. -/
structure Insertion where
  ip : UInt32
  mac : Mac
  now : UInt32
  ip_ne_zero : ip ≠ 0 := by decide

def Insertion.call (ins : Insertion) (c : ArpCache) : ArpCache :=
  arp_cache_insert c ins.ip ins.mac ins.now

/-- The zeroed cache after the calls. -/
def cache_after (calls : List Insertion) : ArpCache :=
  calls.foldl (fun c ins => ins.call c) {}

/-- The addresses that are stored after the calls: a new one is while there is room. -/
def stored (calls : List Insertion) : Finset UInt32 :=
  calls.foldl (fun s ins => if ins.ip ∈ s ∨ s.card < ARP_CACHE_SIZE then insert ins.ip s else s) ∅

/-- The last of the calls for an address. -/
def latest (calls : List Insertion) (ip : UInt32) : Option Insertion :=
  calls.reverse.find? fun ins => ins.ip == ip

/-- The same calls on the bounded map. -/
def map_after (calls : List Insertion) : BoundedMap ARP_CACHE_SIZE UInt32 Mac :=
  BoundedMap.after (calls.map fun ins => (ins.ip, ins.mac))

theorem map_after_append (calls : List Insertion) (ins : Insertion) :
    map_after (calls ++ [ins]) = (map_after calls).insert ins.ip ins.mac := by
  unfold map_after
  rw [List.map_append, List.map_singleton, BoundedMap.after_append]

theorem cache_after_append (calls : List Insertion) (ins : Insertion) :
    cache_after (calls ++ [ins]) = ins.call (cache_after calls) := by
  unfold cache_after
  rw [List.foldl_append]
  rfl

theorem represents_call {c : ArpCache} {m : BoundedMap ARP_CACHE_SIZE UInt32 Mac}
    (h : arpProbing.Represents (·.mac) c.entries.get m) (ins : Insertion) :
    arpProbing.Represents (·.mac) (ins.call c).entries.get (m.insert ins.ip ins.mac) := by
  unfold Insertion.call
  rw [entries_insert]
  exact h.insert (key_eq_some.mpr ⟨ins.ip_ne_zero, rfl⟩)

theorem represents_after (calls : List Insertion) :
    arpProbing.Represents (·.mac) (cache_after calls).entries.get (map_after calls) := by
  induction calls using List.reverseRecOn with
  | nil =>
    refine Probing.Represents.empty fun j => key_eq_none.mpr ?_
    show (Vector.replicate ARP_CACHE_SIZE ({} : ArpEntry))[j.val].ip = 0
    rw [Vector.getElem_replicate]
  | append_singleton calls ins ih =>
    rw [cache_after_append, map_after_append]
    exact represents_call ih ins

theorem keys_map_after (calls : List Insertion) : (map_after calls).map.keys = stored calls := by
  induction calls using List.reverseRecOn with
  | nil => rfl
  | append_singleton calls ins ih =>
    rw [map_after_append, BoundedMap.keys_insert]
    simp only [BoundedMap.Takes, ih]
    unfold stored
    rw [List.foldl_append]
    rfl

theorem lookup_map_reverse (calls : List Insertion) (ip : UInt32) :
    (calls.map fun ins => (ins.ip, ins.mac)).reverse.lookup ip =
      (latest calls ip).map (·.mac) := by
  unfold latest
  rw [← List.map_reverse]
  induction calls.reverse with
  | nil => rfl
  | cons ins rest ih =>
    rw [List.map_cons, List.lookup_cons]
    by_cases hip : ins.ip = ip
    · rw [List.find?_cons_of_pos (by simpa using hip)]
      simp [hip]
    · rw [List.find?_cons_of_neg (by simpa using hip), ← ih, beq_false_of_ne (Ne.symm hip)]

theorem lookup_cache_after (calls : List Insertion) (ip : UInt32) :
    arp_cache_lookup (cache_after calls) ip =
      if ip ∈ stored calls then (latest calls ip).map (·.mac) else none := by
  rw [arp_cache_lookup_eq, (represents_after calls).lookup, ← keys_map_after]
  unfold map_after
  rw [BoundedMap.lookup_after, lookup_map_reverse]

/-- Without room for its address a call changes nothing. -/
theorem call_eq_self {calls : List Insertion} {ins : Insertion}
    (h : ¬(ins.ip ∈ stored calls ∨ (stored calls).card < ARP_CACHE_SIZE)) :
    ins.call (cache_after calls) = cache_after calls := by
  have hstop : arpProbing.stop (cache_after calls).entries.get ins.ip = none := by
    by_contra hne
    have htakes := (represents_after calls).stop_ne_none.mp hne
    unfold BoundedMap.Takes at htakes
    rw [keys_map_after] at htakes
    exact h htakes
  unfold Insertion.call
  rw [arp_cache_insert_eq, hstop]

theorem lookup_call_self {calls : List Insertion} {ins : Insertion}
    (h : ins.ip ∈ stored calls ∨ (stored calls).card < ARP_CACHE_SIZE) :
    arp_cache_lookup (ins.call (cache_after calls)) ins.ip = some ins.mac := by
  rw [← keys_map_after] at h
  rw [arp_cache_lookup_eq, (represents_call (represents_after calls) ins).lookup,
    BoundedMap.lookup_insert, if_pos ⟨rfl, h⟩]

theorem lookup_call_of_ne (calls : List Insertion) (ins : Insertion) {ip : UInt32}
    (h : ip ≠ ins.ip) :
    arp_cache_lookup (ins.call (cache_after calls)) ip =
      arp_cache_lookup (cache_after calls) ip := by
  have hrep := represents_after calls
  rw [arp_cache_lookup_eq, arp_cache_lookup_eq, (represents_call hrep ins).lookup, hrep.lookup,
    BoundedMap.lookup_insert, if_neg fun hand => h hand.1]

/-- A stored address was inserted. -/
theorem exists_latest {calls : List Insertion} {ip : UInt32} (h : ip ∈ stored calls) :
    ∃ ins, latest calls ip = some ins := by
  have hsome : ((map_after calls).map.lookup ip).isSome = true := by
    rw [Finmap.lookup_isSome, ← Finmap.mem_keys, keys_map_after]
    exact h
  unfold map_after at hsome
  rw [BoundedMap.lookup_after, lookup_map_reverse] at hsome
  split at hsome
  · rw [Option.isSome_map] at hsome
    exact Option.isSome_iff_exists.mp hsome
  · simp at hsome

/-- After any calls from the zeroed cache on, a stored address is answered with the MAC of its last
insertion and another address with none; a call stores its address where it is stored already or
there is room, changes nothing where not, and never the answer for another address. -/
theorem the_cache_answers_as_a_bounded_map (calls : List Insertion) :
    (∀ ip ∈ stored calls, ∃ ins, latest calls ip = some ins ∧
      arp_cache_lookup (cache_after calls) ip = some ins.mac) ∧
    (∀ ip ∉ stored calls, arp_cache_lookup (cache_after calls) ip = none) ∧
    (∀ ins : Insertion, if ins.ip ∈ stored calls ∨ (stored calls).card < ARP_CACHE_SIZE
      then arp_cache_lookup (ins.call (cache_after calls)) ins.ip = some ins.mac
      else ins.call (cache_after calls) = cache_after calls) ∧
    ∀ ins : Insertion, ∀ ip ≠ ins.ip,
      arp_cache_lookup (ins.call (cache_after calls)) ip =
        arp_cache_lookup (cache_after calls) ip := by
  refine ⟨fun ip hip => ?_, fun ip hip => ?_, fun ins => ?_, fun ins ip hip => ?_⟩
  · obtain ⟨ins, hins⟩ := exists_latest hip
    refine ⟨ins, hins, ?_⟩
    rw [lookup_cache_after, if_pos hip, hins, Option.map_some]
  · rw [lookup_cache_after, if_neg hip]
  · split
    · exact lookup_call_self ‹_›
    · exact call_eq_self ‹_›
  · exact lookup_call_of_ne calls ins hip

/-- The addresses 10.0.10.99, 10.0.21.5 and 10.0.21.162 all hash to the last slot, so two of them
are stored at the front of the table. -/
example :
    let c := cache_after [
      { ip := 1661599754, mac := #v[2, 0, 0, 0, 0, 1], now := 1 },
      { ip := 85262346, mac := #v[2, 0, 0, 0, 0, 2], now := 2 },
      { ip := 2719285258, mac := #v[2, 0, 0, 0, 0, 3], now := 3 },
      { ip := 85262346, mac := #v[2, 0, 0, 0, 0, 4], now := 4 }]
    arp_cache_lookup c 85262346 = some #v[2, 0, 0, 0, 0, 4] ∧
      arp_cache_lookup c 2719285258 = some #v[2, 0, 0, 0, 0, 3] ∧
      arp_cache_lookup c 167772161 = none := by decide +kernel

end ne_ip.arp_cache
