-- The ARP of an interface on its link (wan_arp.c): the frames that it asks with and listens to, the
-- file that outlives the process, and the addresses that its packets leave with.
import NeIp.ArpFile
import NeIp.FrameRelease

open byte_buf c_text linear_probing ne_ip.packet_crypto ne_ip.config ne_ip.flow ne_ip.arp_cache
open ne_ip.flow_table ne_ip.worker ne_ip.queue_loops ne_ip.frame_release ne_ip.sample

namespace ne_ip.arp_link

def ARPHRD_ETHER : Nat := 1
def ETHERTYPE_IP : Nat := 0x0800
def ARPOP_REQUEST : Nat := 1
def ARPOP_REPLY : Nat := 2

/-- `sizeof(struct ether_header) + sizeof(struct ether_arp)` -/
def ARP_FRAME_SIZE : Nat := 42

/-! ## Frames -/

/-- The bytes of an address in memory, which are in the order of the wire. -/
def ip_bytes (ip : UInt32) : Bytes :=
  be16Bytes ((ntohl ip).toNat / 65536) ++ be16Bytes (ntohl ip).toNat

/-- `memcpy` to a `uint32_t` of a little-endian host. -/
def load_ip (b : Buf) (off : Nat) : UInt32 := ntohl (ip_at b off)

def mac_at (b : Buf) (off : Nat) : Mac := Vector.ofFn fun i => b (off + i)

def mac_is_nonzero6 (mac : Mac) : Bool := mac.toList.any (· != 0)

/-- `struct ether_header` and `struct ether_arp` for Ethernet and IPv4. -/
def arp_frame (dhost shost : Mac) (op : Nat) (sha : Mac) (spa : UInt32) (tha : Mac)
    (tpa : UInt32) : Bytes :=
  dhost.toList ++ shost.toList ++ be16Bytes ETH_P_ARP_VAL ++ be16Bytes ARPHRD_ETHER ++
    be16Bytes ETHERTYPE_IP ++ [6, 4] ++ be16Bytes op ++ sha.toList ++ ip_bytes spa ++ tha.toList ++
    ip_bytes tpa

/-- What `arp_init_for_local` has filled in of `struct arp_cache`; `raw_open` says that there are a
raw socket and an `ifindex`, the two that `arp_send_request` needs to send anything. -/
structure ArpIface where
  raw_open : Bool
  if_mac : Mac
  if_ip : UInt32

def broadcast : Mac := Vector.replicate 6 0xff

def zero_mac : Mac := Vector.replicate 6 0

/-- The frame that is sent, if any. -/
def arp_send_request (i : ArpIface) (target_ip : UInt32) : Option Bytes :=
  if !i.raw_open || !mac_is_nonzero6 i.if_mac || i.if_ip == 0 then none
  else some (arp_frame broadcast i.if_mac ARPOP_REQUEST i.if_mac i.if_ip zero_mac target_ip)

/-- The address and the MAC that a turn of `arp_listener_thread` takes of a frame. -/
def arp_listen (buf : Bytes) : Option (UInt32 × Mac) :=
  let b := ofBytes buf
  if buf.length < ARP_FRAME_SIZE then none
  else if be16 b 12 ≠ ETH_P_ARP_VAL then none
  else if be16 b 20 ≠ ARPOP_REPLY then none
  else if mac_is_nonzero6 (mac_at b 22) then some (load_ip b 28, mac_at b 22)
  else none

/-! ## The addresses of a packet -/

/-- The packet with its two addresses, or else the request that goes out for it. -/
def local_rewrite_dest_mac (i : ArpIface) (c : ArpCache) (dest_ip : UInt32) (pkt : Buf) :
    Option Buf × Option Bytes :=
  if dest_ip = 0 then (none, none)
  else
    match arp_cache_lookup c dest_ip with
    | some dst_mac => (some (write (write pkt 0 dst_mac.toList) 6 i.if_mac.toList), none)
    | none => (none, arp_send_request i dest_ip)

/-- The cache, what the thread remembers of the last save, and the file. -/
structure ArpState where
  cache : ArpCache := {}
  last_save : UInt32 := 0
  file : Option Text := none

/-- `arp_cache_save`; `writable` tells whether the file can be opened. -/
def ArpState.save (s : ArpState) (writable : Bool) : ArpState :=
  if writable then
    { s with cache := (arp_cache_save s.cache).2, file := (arp_cache_save s.cache).1.or s.file }
  else s

inductive Event where
  /-- A turn of the listener at the times `seen` (of the insertion) and `now`. -/
  | recv (seen now : UInt32) (writable : Bool) (buf : Bytes)
  /-- The end of the listener. -/
  | stop (writable : Bool)
  /-- `arp_init_for_local` and the begin of the listener, in a new process or in the old one. -/
  | start (now : UInt32) (times : Nat → UInt32)

def step (s : ArpState) : Event → ArpState
  | .recv seen now writable buf =>
    match arp_listen buf with
    | none => s
    | some (spa, mac) =>
      let s := { s with cache := arp_cache_insert s.cache spa mac seen }
      if 2 ≤ now - s.last_save then { s.save writable with last_save := now } else s
  | .stop writable => s.save writable
  | .start now times => { s with cache := arp_cache_load times s.file {}, last_save := now }

def after (es : List Event) : ArpState := es.foldl step {}

/-! ## What is known -/

/-- The addresses that the process has an answer for and those that the file has one for. -/
structure Knowledge where
  known : Finset UInt32 := ∅
  saved : Finset UInt32 := ∅
  last_save : UInt32 := 0

/-- An address is known once a reply for it was heard, until the process ends, and again in the next
one if the file was written in the meantime. -/
def Knowledge.step (k : Knowledge) : Event → Knowledge
  | .recv _ now writable buf =>
    match arp_listen buf with
    | none => k
    | some (spa, _) =>
      let known := if spa = 0 then k.known else insert spa k.known
      if 2 ≤ now - k.last_save then
        { known, saved := if writable then known else k.saved, last_save := now }
      else { k with known }
  | .stop writable => { k with saved := if writable then k.known else k.saved }
  | .start now _ => { k with known := k.saved, last_save := now }

def knowledge (es : List Event) : Knowledge := es.foldl Knowledge.step {}

/-- The hosts of a link. Each address has at most one, and they fit into the cache. -/
structure Link where
  owner : UInt32 → Option Mac
  hosts : Finset UInt32
  mem_hosts : ∀ ip mac, owner ip = some mac → ip ∈ hosts
  fits : hosts.card ≤ ARP_CACHE_SIZE

/-- A reply comes from the host that has the address. -/
def Link.Honest (l : Link) : Event → Prop
  | .recv _ _ _ buf => ∀ ip mac, arp_listen buf = some (ip, mac) → ip ≠ 0 → l.owner ip = some mac
  | _ => True

/-! ## The cache holds what is known -/

/-- The cache answers with the owners of these addresses. -/
structure Answers (l : Link) (c : ArpCache) (known : Finset UInt32) : Prop where
  map : ∃ m : BoundedMap ARP_CACHE_SIZE UInt32 Mac,
    arpProbing.Represents (·.mac) c.entries.get m ∧ m.map.keys = known ∧
      ∀ ip mac, m.map.lookup ip = some mac → l.owner ip = some mac

/-- The file has the owners of these addresses; an empty one is as none. -/
structure Filed (l : Link) (file : Option Text) (saved : Finset UInt32) : Prop where
  entries : ∃ es : List (UInt32 × Mac), (file = none ∧ es = [] ∨ file = some (lines es)) ∧
    (es.map Prod.fst).Nodup ∧ es.length ≤ ARP_CACHE_SIZE ∧
    (∀ e ∈ es, e.1 ≠ 0 ∧ l.owner e.1 = some e.2) ∧ (es.map Prod.fst).toFinset = saved

/-- The state of the code is one of this knowledge. -/
structure Refines (l : Link) (s : ArpState) (k : Knowledge) : Prop where
  answers : Answers l s.cache k.known
  filed : Filed l s.file k.saved
  clean : s.cache.persist_dirty = 0 → k.known = k.saved
  last_save : s.last_save = k.last_save

section

variable {l : Link} {c : ArpCache} {known : Finset UInt32} {s : ArpState} {k : Knowledge}

theorem Answers.lookup (h : Answers l c known) (ip : UInt32) :
    arp_cache_lookup c ip = if ip ∈ known then l.owner ip else none := by
  obtain ⟨m, hrep, rfl, howner⟩ := h.map
  rw [arp_cache_lookup_eq, hrep.lookup]
  by_cases hip : ip ∈ m.map.keys
  · rw [if_pos hip]
    obtain ⟨mac, hmac⟩ := Option.isSome_iff_exists.mp
      (Finmap.lookup_isSome.mpr (Finmap.mem_keys.mp hip))
    rw [hmac, howner ip mac hmac]
  · rw [if_neg hip]
    exact Finmap.lookup_eq_none.mpr fun hin => hip (Finmap.mem_keys.mpr hin)

theorem Answers.mem_owner (h : Answers l c known) {ip : UInt32} (hip : ip ∈ known) :
    ∃ mac, l.owner ip = some mac := by
  obtain ⟨m, -, rfl, howner⟩ := h.map
  obtain ⟨mac, hmac⟩ := Option.isSome_iff_exists.mp
    (Finmap.lookup_isSome.mpr (Finmap.mem_keys.mp hip))
  exact ⟨mac, howner ip mac hmac⟩

/-- There is room for every host. -/
theorem Answers.takes {m : BoundedMap ARP_CACHE_SIZE UInt32 Mac}
    (howner : ∀ ip mac, m.map.lookup ip = some mac → l.owner ip = some mac) {ip : UInt32}
    {mac : Mac} (hip : l.owner ip = some mac) : m.Takes ip := by
  by_cases hin : ip ∈ m.map.keys
  · exact Or.inl hin
  · refine Or.inr (lt_of_lt_of_le (Finset.card_lt_card ?_) l.fits)
    refine Finset.ssubset_iff_subset_ne.mpr ⟨fun x hx => ?_, ?_⟩
    · obtain ⟨mac', hmac'⟩ := Option.isSome_iff_exists.mp
        (Finmap.lookup_isSome.mpr (Finmap.mem_keys.mp hx))
      exact l.mem_hosts x mac' (howner x mac' hmac')
    · intro heq
      exact hin (heq ▸ l.mem_hosts ip mac hip)

/-- A reply of an owner makes its address known. -/
theorem Answers.insert (h : Answers l c known) {ip : UInt32} {mac : Mac} (hne : ip ≠ 0)
    (hip : l.owner ip = some mac) (now : UInt32) :
    Answers l (arp_cache_insert c ip mac now) (insert ip known) ∧
      (arp_cache_insert c ip mac now).persist_dirty = 1 := by
  obtain ⟨m, hrep, rfl, howner⟩ := h.map
  have htakes := Answers.takes howner hip
  refine ⟨⟨m.insert ip mac, ?_, ?_, ?_⟩, ?_⟩
  · exact represents_call hrep { ip, mac, now, ip_ne_zero := hne }
  · rw [BoundedMap.keys_insert, if_pos htakes]
  · intro ip' mac' hmac'
    rw [BoundedMap.lookup_insert] at hmac'
    split at hmac'
    · rename_i heq
      rw [heq.1, ← Option.some.inj hmac']
      exact hip
    · exact howner ip' mac' hmac'
  · have hstop := hrep.stop_ne_none.mpr htakes
    rw [arp_cache_insert_eq]
    cases hj : arpProbing.stop c.entries.get ip with
    | none => exact absurd hj hstop
    | some j => rfl

/-- A reply for the address 0 changes no answer. -/
theorem Answers.insert_zero (h : Answers l c known) (mac : Mac) (now : UInt32) :
    Answers l (arp_cache_insert c 0 mac now) known ∧
      (arp_cache_insert c 0 mac now = c ∨ (arp_cache_insert c 0 mac now).persist_dirty = 1) := by
  obtain ⟨m, hrep, rfl, howner⟩ := h.map
  rw [arp_cache_insert_eq]
  cases hj : arpProbing.stop c.entries.get 0 with
  | none => exact ⟨⟨m, hrep, rfl, howner⟩, Or.inl rfl⟩
  | some j =>
    refine ⟨⟨m, ?_, rfl, howner⟩, Or.inr rfl⟩
    show arpProbing.Represents (·.mac) (c.entries.set j _).get m
    rw [get_set]
    refine hrep.update_empty ?_ (key_eq_none.mpr rfl)
    rcases Probing.stop_ends hj with hnone | hzero
    · exact hnone
    · exact absurd (key_eq_some.mp hzero).2 (key_eq_some.mp hzero).1

theorem Answers.of_dirty (h : Answers l c known) (x : UInt32) :
    Answers l { c with persist_dirty := x } known := ⟨h.map⟩

/-- The lines that are written are those of what is known. -/
theorem Answers.filed (h : Answers l c known) : Filed l (some (lines (live c))) known := by
  obtain ⟨m, hrep, rfl, howner⟩ := h.map
  have hmem : ∀ ip mac, (ip, mac) ∈ live c ↔ m.map.lookup ip = some mac := by
    intro ip mac
    rw [← lookup_eq_some_iff hrep.wf, arp_cache_lookup_eq, hrep.lookup]
  refine ⟨live c, Or.inr rfl, nodup_live hrep.wf, length_live_le c, ?_, ?_⟩
  · rintro ⟨ip, mac⟩ he
    obtain ⟨j, hkey, -⟩ := mem_live.mp he
    obtain ⟨hne, heq⟩ := key_eq_some.mp hkey
    exact ⟨heq ▸ hne, howner ip mac ((hmem ip mac).mp he)⟩
  · ext ip
    rw [List.mem_toFinset, List.mem_map, Finmap.mem_keys, ← Finmap.lookup_isSome,
      Option.isSome_iff_exists]
    constructor
    · rintro ⟨⟨ip', mac⟩, he, rfl⟩
      exact ⟨mac, (hmem ip' mac).mp he⟩
    · rintro ⟨mac, hmac⟩
      exact ⟨(ip, mac), (hmem ip mac).mpr hmac, rfl⟩

theorem answers_empty (l : Link) : Answers l {} ∅ := by
  refine ⟨BoundedMap.empty, represents_after [], rfl, fun ip mac h => ?_⟩
  simp [BoundedMap.empty] at h

/-- A zeroed cache that the file is loaded into. -/
theorem Filed.load {file : Option Text} {saved : Finset UInt32} (h : Filed l file saved)
    (times : Nat → UInt32) : Answers l (arp_cache_load times file {}) saved ∧
      (arp_cache_load times file {}).persist_dirty = 0 := by
  obtain ⟨es, hfile, hnodup, hlen, hes, rfl⟩ := h.entries
  rcases hfile with ⟨rfl, rfl⟩ | rfl
  · exact ⟨answers_empty l, rfl⟩
  · refine ⟨⟨BoundedMap.after es, ?_, ?_, ?_⟩, rfl⟩
    · exact represents_load_from times (fun e he => (hes e he).1) 0 (represents_after [])
    · ext ip
      rw [Finmap.mem_keys, ← Finmap.lookup_isSome, Option.isSome_iff_exists, List.mem_toFinset,
        List.mem_map]
      simp only [BoundedMap.lookup_after_eq_some hlen hnodup]
      constructor
      · rintro ⟨mac, he⟩
        exact ⟨(ip, mac), he, rfl⟩
      · rintro ⟨⟨ip', mac⟩, he, rfl⟩
        exact ⟨mac, he⟩
    · intro ip mac hmac
      exact (hes _ ((BoundedMap.lookup_after_eq_some hlen hnodup).mp hmac)).2

/-! ### Steps and runs -/

theorem refines_save (h : Refines l s k) (writable : Bool) :
    Refines l (s.save writable) { k with saved := if writable then k.known else k.saved } := by
  unfold ArpState.save
  cases writable with
  | false => exact ⟨h.answers, h.filed, h.clean, h.last_save⟩
  | true =>
    rw [if_pos rfl, if_pos rfl]
    have heq := arp_cache_save_eq s.cache
    by_cases hdirty : s.cache.persist_dirty = 0
    · rw [if_pos hdirty] at heq
      have hcache : (arp_cache_save s.cache).2 = s.cache := by
        unfold arp_cache_save
        rw [if_pos hdirty]
      have hsaved := h.clean hdirty
      refine ⟨?_, ?_, fun _ => rfl, h.last_save⟩
      · dsimp only
        rw [hcache]
        exact h.answers
      · dsimp only
        rw [heq, hsaved]
        exact h.filed
    · rw [if_neg hdirty] at heq
      have hcache : (arp_cache_save s.cache).2 = { s.cache with persist_dirty := 0 } := by
        unfold arp_cache_save
        rw [if_neg hdirty]
      refine ⟨?_, ?_, fun _ => rfl, h.last_save⟩
      · dsimp only
        rw [hcache]
        exact h.answers.of_dirty 0
      · dsimp only
        rw [heq]
        exact h.answers.filed

/-- What an honest frame leaves in the cache. -/
theorem refines_insert (h : Refines l s k) {spa : UInt32} {mac : Mac} (seen : UInt32)
    (howner : spa ≠ 0 → l.owner spa = some mac) :
    Refines l { s with cache := arp_cache_insert s.cache spa mac seen }
      { k with known := if spa = 0 then k.known else insert spa k.known } := by
  by_cases hzero : spa = 0
  · subst hzero
    obtain ⟨hans, hdirty⟩ := h.answers.insert_zero mac seen
    refine ⟨hans, h.filed, fun hclean => ?_, h.last_save⟩
    rcases hdirty with heq | hone
    · rw [if_pos rfl]
      exact h.clean (heq ▸ hclean)
    · rw [hone] at hclean
      exact absurd hclean (by decide)
  · obtain ⟨hans, hone⟩ := h.answers.insert hzero (howner hzero) seen
    rw [if_neg hzero]
    refine ⟨hans, h.filed, fun hclean => ?_, h.last_save⟩
    rw [hone] at hclean
    exact absurd hclean (by decide)

theorem refines_step (h : Refines l s k) {e : Event} (he : l.Honest e) :
    Refines l (step s e) (k.step e) := by
  cases e with
  | recv seen now writable buf =>
    unfold step Knowledge.step
    dsimp only
    cases hbuf : arp_listen buf with
    | none => exact h
    | some r =>
      obtain ⟨spa, mac⟩ := r
      have hins := refines_insert h seen (he spa mac hbuf)
      have hsave := refines_save hins writable
      have hlast := h.last_save
      dsimp only
      by_cases hold : 2 ≤ now - k.last_save
      · rw [if_pos (hlast ▸ hold), if_pos hold]
        exact ⟨hsave.answers, hsave.filed, hsave.clean, rfl⟩
      · rw [if_neg (hlast ▸ hold), if_neg hold]
        exact ⟨hins.answers, hins.filed, hins.clean, hlast⟩
  | stop writable => exact refines_save h writable
  | start now times =>
    obtain ⟨hans, hclean⟩ := h.filed.load times
    exact ⟨hans, h.filed, fun _ => rfl, rfl⟩

theorem refines_start (l : Link) : Refines l {} {} :=
  ⟨answers_empty l, ⟨[], Or.inl ⟨rfl, rfl⟩, List.nodup_nil, Nat.zero_le _, by simp, rfl⟩,
    fun _ => rfl, rfl⟩

theorem refines_foldl (h : Refines l s k) {es : List Event} (hes : ∀ e ∈ es, l.Honest e) :
    Refines l (es.foldl step s) (es.foldl Knowledge.step k) := by
  induction es generalizing s k with
  | nil => exact h
  | cons e es ih =>
    exact ih (refines_step h (hes e List.mem_cons_self)) fun e' he' =>
      hes e' (List.mem_cons_of_mem e he')

/-- After every run on a link with honest hosts. -/
theorem refines_after {es : List Event} (hes : ∀ e ∈ es, l.Honest e) :
    Refines l (after es) (knowledge es) :=
  refines_foldl (refines_start l) hes

/-! ### What stays known -/

/-- An event in the process that is running. -/
def Event.SameProcess : Event → Prop
  | .start _ _ => False
  | _ => True

theorem known_step {k : Knowledge} {e : Event} (he : e.SameProcess) :
    k.known ⊆ (k.step e).known := by
  cases e with
  | recv seen now writable buf =>
    unfold Knowledge.step
    dsimp only
    cases arp_listen buf with
    | none => exact Finset.Subset.refl _
    | some r =>
      have hsub : k.known ⊆ if r.1 = 0 then k.known else insert r.1 k.known := by
        split
        · exact Finset.Subset.refl _
        · exact Finset.subset_insert _ _
      dsimp only
      split
      · exact hsub
      · exact hsub
  | stop writable => exact Finset.Subset.refl _
  | start now times => exact he.elim

theorem known_foldl {k : Knowledge} {es : List Event} (hes : ∀ e ∈ es, e.SameProcess) :
    k.known ⊆ (es.foldl Knowledge.step k).known := by
  induction es generalizing k with
  | nil => exact Finset.Subset.refl _
  | cons e es ih =>
    exact (known_step (hes e List.mem_cons_self)).trans
      (ih fun e' he' => hes e' (List.mem_cons_of_mem e he'))

theorem mem_known_recv {k : Knowledge} {ip : UInt32} {mac : Mac} {buf : Bytes} (hne : ip ≠ 0)
    (hbuf : arp_listen buf = some (ip, mac)) (seen now : UInt32) (writable : Bool) :
    ip ∈ (k.step (.recv seen now writable buf)).known := by
  unfold Knowledge.step
  dsimp only
  rw [hbuf]
  dsimp only
  rw [if_neg hne]
  split
  · exact Finset.mem_insert_self _ _
  · exact Finset.mem_insert_self _ _

end

/-! ## The frames are read as they were written -/

theorem field_at {xs bs ys : Bytes} {i : Nat} (hi : i < bs.length) :
    ofBytes (xs ++ (bs ++ ys)) (xs.length + i) = bs.getD i 0 := by
  unfold ofBytes
  rw [List.getD_append_right _ _ _ _ (by omega), Nat.add_sub_cancel_left,
    List.getD_append _ _ _ _ hi]

theorem be16_field (xs ys : Bytes) (x : Nat) :
    be16 (ofBytes (xs ++ (be16Bytes x ++ ys))) xs.length = x % 65536 := by
  have h0 : ofBytes (xs ++ (be16Bytes x ++ ys)) (xs.length + 0) = (be16Bytes x).getD 0 0 :=
    field_at (by rw [length_be16Bytes]; omega)
  have h1 : ofBytes (xs ++ (be16Bytes x ++ ys)) (xs.length + 1) = (be16Bytes x).getD 1 0 :=
    field_at (by rw [length_be16Bytes]; omega)
  unfold be16
  rw [show xs.length = xs.length + 0 from rfl, h0, h1]
  show (UInt8.ofNat (x / 256)).toNat * 256 + (UInt8.ofNat x).toNat = x % 65536
  rw [UInt8.toNat_ofNat', UInt8.toNat_ofNat']
  omega

theorem mac_field (xs ys : Bytes) (mac : Mac) :
    mac_at (ofBytes (xs ++ (mac.toList ++ ys))) xs.length = mac := by
  refine Vector.ext fun i hi => ?_
  have hlen : i < mac.toList.length := by
    rw [Vector.length_toList]
    exact hi
  unfold mac_at
  rw [Vector.getElem_ofFn, field_at hlen, List.getD_eq_getElem _ _ hlen, Vector.getElem_toList]

theorem ip_field (xs ys : Bytes) (ip : UInt32) :
    load_ip (ofBytes (xs ++ (ip_bytes ip ++ ys))) xs.length = ip := by
  unfold load_ip ip_at ip_bytes
  have hlt := (ntohl ip).toNat_lt
  have hhigh := be16_field xs (be16Bytes (ntohl ip).toNat ++ ys) ((ntohl ip).toNat / 65536)
  have hlow := be16_field (xs ++ be16Bytes ((ntohl ip).toNat / 65536)) ys (ntohl ip).toNat
  rw [List.length_append, length_be16Bytes, List.append_assoc] at hlow
  rw [List.append_assoc, hhigh, hlow, ← ntohl_ntohl ip]
  refine congrArg ntohl (UInt32.toNat_inj.mp ?_)
  rw [UInt32.toNat_ofNat', ntohl_ntohl]
  omega

/-- What a frame reads as. -/
structure ReadsAs (buf : Bytes) (op : Nat) (sha : Mac) (spa tpa : UInt32) : Prop where
  length : buf.length = ARP_FRAME_SIZE
  type : be16 (ofBytes buf) 12 = ETH_P_ARP_VAL
  op : be16 (ofBytes buf) 20 = op
  sha : mac_at (ofBytes buf) 22 = sha
  spa : load_ip (ofBytes buf) 28 = spa
  tpa : load_ip (ofBytes buf) 38 = tpa

theorem arp_frame_reads (dhost shost : Mac) {op : Nat} (hop : op < 65536) (sha : Mac)
    (spa : UInt32) (tha : Mac) (tpa : UInt32) :
    ReadsAs (arp_frame dhost shost op sha spa tha tpa) op sha spa tpa := by
  have hip : ∀ ip, (ip_bytes ip).length = 4 := fun _ => rfl
  have h12 := be16_field (dhost.toList ++ shost.toList) (be16Bytes ARPHRD_ETHER ++
    be16Bytes ETHERTYPE_IP ++ [6, 4] ++ be16Bytes op ++ sha.toList ++ ip_bytes spa ++ tha.toList ++
    ip_bytes tpa) ETH_P_ARP_VAL
  have h20 := be16_field (dhost.toList ++ shost.toList ++ be16Bytes ETH_P_ARP_VAL ++
    be16Bytes ARPHRD_ETHER ++ be16Bytes ETHERTYPE_IP ++ [6, 4]) (sha.toList ++ ip_bytes spa ++
    tha.toList ++ ip_bytes tpa) op
  have h22 := mac_field (dhost.toList ++ shost.toList ++ be16Bytes ETH_P_ARP_VAL ++
    be16Bytes ARPHRD_ETHER ++ be16Bytes ETHERTYPE_IP ++ [6, 4] ++ be16Bytes op)
    (ip_bytes spa ++ tha.toList ++ ip_bytes tpa) sha
  have h28 := ip_field (dhost.toList ++ shost.toList ++ be16Bytes ETH_P_ARP_VAL ++
    be16Bytes ARPHRD_ETHER ++ be16Bytes ETHERTYPE_IP ++ [6, 4] ++ be16Bytes op ++ sha.toList)
    (tha.toList ++ ip_bytes tpa) spa
  have h38 := ip_field (dhost.toList ++ shost.toList ++ be16Bytes ETH_P_ARP_VAL ++
    be16Bytes ARPHRD_ETHER ++ be16Bytes ETHERTYPE_IP ++ [6, 4] ++ be16Bytes op ++ sha.toList ++
    ip_bytes spa ++ tha.toList) [] tpa
  simp only [List.length_append, Vector.length_toList, length_be16Bytes, List.length_cons,
    List.length_nil, hip, List.append_assoc, List.append_nil] at h12 h20 h22 h28 h38
  unfold arp_frame
  simp only [List.append_assoc]
  refine ⟨?_, h12, h20.trans (Nat.mod_eq_of_lt hop), h22, h28, h38⟩
  simp only [List.length_append, Vector.length_toList, length_be16Bytes, List.length_cons,
    List.length_nil, hip]
  rfl

theorem arp_listen_reply (dhost shost : Mac) {sha : Mac} (h : mac_is_nonzero6 sha = true)
    (spa : UInt32) (tha : Mac) (tpa : UInt32) :
    arp_listen (arp_frame dhost shost ARPOP_REPLY sha spa tha tpa) = some (spa, sha) := by
  obtain ⟨hlen, htype, hop, hsha, hspa, -⟩ :=
    arp_frame_reads dhost shost (show ARPOP_REPLY < 65536 by decide) sha spa tha tpa
  unfold arp_listen
  dsimp only
  rw [if_neg (by omega), if_neg (not_not.mpr htype), if_neg (not_not.mpr hop), hsha, if_pos h, hspa]

/-- The padding of a short frame is not read. -/
theorem arp_listen_append {buf : Bytes} (h : ARP_FRAME_SIZE ≤ buf.length) (pad : Bytes) :
    arp_listen (buf ++ pad) = arp_listen buf := by
  have hat : ∀ i < ARP_FRAME_SIZE, ofBytes (buf ++ pad) i = ofBytes buf i := fun i hi =>
    List.getD_append _ _ _ _ (by omega)
  unfold ARP_FRAME_SIZE at h hat
  have h16 : ∀ off < 41, be16 (ofBytes (buf ++ pad)) off = be16 (ofBytes buf) off := by
    intro off hoff
    unfold be16
    rw [hat _ (by omega), hat _ (by omega)]
  have hip : load_ip (ofBytes (buf ++ pad)) 28 = load_ip (ofBytes buf) 28 := by
    unfold load_ip ip_at
    rw [h16 _ (by decide), h16 _ (by decide)]
  have hmac : mac_at (ofBytes (buf ++ pad)) 22 = mac_at (ofBytes buf) 22 := by
    unfold mac_at
    exact congrArg Vector.ofFn (funext fun i => hat _ (by omega))
  unfold arp_listen ARP_FRAME_SIZE
  dsimp only
  have hlong : ¬(buf ++ pad).length < 42 := by
    rw [List.length_append]
    omega
  rw [if_neg hlong, if_neg (show ¬buf.length < 42 by omega), h16 12 (by decide), h16 20 (by decide),
    hip, hmac]

/-- What a host on the link sends back for a frame, when it has this address and MAC: on a request
for the address a reply to the asker, which its network card may pad. -/
def Responds (ip : UInt32) (mac : Mac) (answer : Bytes → Option Bytes) : Prop :=
  ∀ request sha spa, ReadsAs request ARPOP_REQUEST sha spa ip →
    ∃ pad, answer request = some (arp_frame sha mac ARPOP_REPLY mac ip sha spa ++ pad)

/-- The interface has what it needs to ask. -/
structure ArpIface.Up (i : ArpIface) : Prop where
  raw_open : i.raw_open = true
  if_mac : mac_is_nonzero6 i.if_mac = true
  if_ip : i.if_ip ≠ 0

theorem ArpIface.Up.request {i : ArpIface} (h : i.Up) (ip : UInt32) :
    ∃ request, arp_send_request i ip = some request ∧
      ReadsAs request ARPOP_REQUEST i.if_mac i.if_ip ip := by
  refine ⟨_, ?_, arp_frame_reads broadcast i.if_mac (by decide) i.if_mac i.if_ip zero_mac ip⟩
  unfold arp_send_request
  rw [if_neg]
  simp [h.raw_open, h.if_mac, h.if_ip]

/-- The listener understands the answer of the host. -/
theorem Responds.listen {ip : UInt32} {mac : Mac} {answer : Bytes → Option Bytes}
    (h : Responds ip mac answer) (hmac : mac_is_nonzero6 mac = true) {request : Bytes} {sha : Mac}
    {spa : UInt32} (hreads : ReadsAs request ARPOP_REQUEST sha spa ip) :
    ∃ reply, answer request = some reply ∧ arp_listen reply = some (ip, mac) := by
  obtain ⟨pad, hanswer⟩ := h request sha spa hreads
  have hlen := (arp_frame_reads sha mac (show ARPOP_REPLY < 65536 by decide) mac ip sha spa).length
  refine ⟨_, hanswer, ?_⟩
  rw [arp_listen_append (by omega)]
  exact arp_listen_reply sha mac hmac ip sha spa

/-! ## Where packets go -/

section

variable {l : Link} {c : ArpCache} {known : Finset UInt32}

theorem Answers.local_rewrite (h : Answers l c known) (i : ArpIface) {ip : UInt32} (hne : ip ≠ 0)
    (pkt : Buf) : if ip ∈ known then ∃ mac, l.owner ip = some mac ∧
      local_rewrite_dest_mac i c ip pkt =
        (some (write (write pkt 0 mac.toList) 6 i.if_mac.toList), none)
      else local_rewrite_dest_mac i c ip pkt = (none, arp_send_request i ip) := by
  have hlookup := h.lookup ip
  unfold local_rewrite_dest_mac
  rw [if_neg hne]
  split
  · rename_i hip
    obtain ⟨mac, hmac⟩ := h.mem_owner hip
    rw [if_pos hip, hmac] at hlookup
    refine ⟨mac, hmac, ?_⟩
    rw [hlookup]
  · rename_i hip
    rw [if_neg hip] at hlookup
    rw [hlookup]

/-- The MAC of 10.0.1.2. -/
def hostMac : Mac := #v[2, 0, 0, 0, 0, 2]

/-- 10.0.1.2, as it is loaded. -/
def hostIp : UInt32 := 0x0201000a

/-- A link with this host alone. -/
def oneHost : Link where
  owner ip := if ip = hostIp then some hostMac else none
  hosts := {hostIp}
  mem_hosts ip mac h := by
    split at h
    · rename_i hip
      exact Finset.mem_singleton.mpr hip
    · simp at h
  fits := by decide

theorem oneHost_owner : oneHost.owner hostIp = some hostMac := by
  show (if hostIp = hostIp then some hostMac else none) = some hostMac
  rw [if_pos rfl]

/-- `lan0`, with the address 10.0.1.1. -/
def lan0 : ArpIface := ⟨true, #v[2, 0, 0, 0, 0, 1], 0x0101000a⟩

def heard : Event := .recv 1 1 true
  (arp_frame lan0.if_mac hostMac ARPOP_REPLY hostMac hostIp lan0.if_mac lan0.if_ip)

theorem heard_listen :
    arp_listen (arp_frame lan0.if_mac hostMac ARPOP_REPLY hostMac hostIp lan0.if_mac lan0.if_ip) =
      some (hostIp, hostMac) := arp_listen_reply _ _ (by decide) _ _ _

theorem heard_honest : ∀ e ∈ [heard], oneHost.Honest e := by
  intro e he
  rw [List.mem_singleton.mp he]
  intro ip mac hbuf _
  rw [heard_listen] at hbuf
  obtain ⟨rfl, rfl⟩ := Prod.mk.inj (Option.some.inj hbuf)
  rfl

theorem heard_known : hostIp ∈ (knowledge [heard]).known := by
  show hostIp ∈ (Knowledge.step {} heard).known
  exact mem_known_recv (by decide) heard_listen 1 1 true

theorem lan0_up : lan0.Up := ⟨rfl, by decide, by decide⟩

/-- The request that goes out for a packet is one that a host with the address answers, and from the
answer on every packet of the process leaves to that host, whatever else is heard. -/
theorem an_answered_request_resolves_the_address {es : List Event} (hes : ∀ e ∈ es, l.Honest e)
    {i : ArpIface} (hup : i.Up) {ip : UInt32} {mac : Mac} (hne : ip ≠ 0)
    (howner : l.owner ip = some mac) (hmac : mac_is_nonzero6 mac = true)
    {answer : Bytes → Option Bytes} (hresponds : Responds ip mac answer)
    (hnew : ip ∉ (knowledge es).known) (pkt : Buf) :
    ∃ request reply, local_rewrite_dest_mac i (after es).cache ip pkt = (none, some request) ∧
      answer request = some reply ∧
      ∀ seen now writable, ∀ between later : List Event, (∀ e ∈ between, l.Honest e) →
        (∀ e ∈ later, l.Honest e ∧ e.SameProcess) → ∀ pkt',
        local_rewrite_dest_mac i
          (after (es ++ between ++ .recv seen now writable reply :: later)).cache ip pkt' =
          (some (write (write pkt' 0 mac.toList) 6 i.if_mac.toList), none) := by
  obtain ⟨request, hask, hreads⟩ := hup.request ip
  obtain ⟨reply, hanswer, hlisten⟩ := hresponds.listen hmac hreads
  have hsend := (refines_after hes).answers.local_rewrite i hne pkt
  rw [if_neg hnew, hask] at hsend
  refine ⟨request, reply, hsend, hanswer, ?_⟩
  intro seen now writable between later hbetween hlater pkt'
  have hhonest : l.Honest (.recv seen now writable reply) := by
    intro ip' mac' hbuf _
    rw [hlisten] at hbuf
    obtain ⟨rfl, rfl⟩ := Prod.mk.inj (Option.some.inj hbuf)
    exact howner
  have hall : ∀ e ∈ es ++ between ++ .recv seen now writable reply :: later, l.Honest e := by
    intro e he
    rcases List.mem_append.mp he with he | he
    · rcases List.mem_append.mp he with he | he
      · exact hes e he
      · exact hbetween e he
    · rcases List.mem_cons.mp he with rfl | he
      · exact hhonest
      · exact (hlater e he).1
  have hknown :
      ip ∈ (knowledge (es ++ between ++ .recv seen now writable reply :: later)).known := by
    unfold knowledge
    rw [List.foldl_append, List.foldl_cons]
    exact known_foldl (fun e he => (hlater e he).2) (mem_known_recv hne hlisten seen now writable)
  have hlast := (refines_after hall).answers.local_rewrite i hne pkt'
  rw [if_pos hknown] at hlast
  obtain ⟨mac', howner', heq⟩ := hlast
  rw [howner] at howner'
  rw [heq, ← Option.some.inj howner']

/-- 10.0.1.2 on its link, where short frames come with 18 bytes of padding. -/
def hostAnswer (buf : Bytes) : Option Bytes :=
  let b := ofBytes buf
  if buf.length < ARP_FRAME_SIZE then none
  else if be16 b 12 ≠ ETH_P_ARP_VAL ∨ be16 b 20 ≠ ARPOP_REQUEST ∨ load_ip b 38 ≠ hostIp then none
  else some (arp_frame (mac_at b 22) hostMac ARPOP_REPLY hostMac hostIp (mac_at b 22) (load_ip b 28) ++
    List.replicate 18 0)

theorem hostAnswer_responds : Responds hostIp hostMac hostAnswer := by
  intro request sha spa h
  refine ⟨List.replicate 18 0, ?_⟩
  unfold hostAnswer
  dsimp only
  rw [if_neg (by rw [h.length]; exact lt_irrefl _), if_neg (by simp [h.type, h.op, h.tpa]), h.sha,
    h.spa]

theorem the_host_answers_the_first_request :
    ∃ request reply, local_rewrite_dest_mac lan0 {} hostIp (ofBytes udpPing) =
        (none, some request) ∧ hostAnswer request = some reply ∧
      local_rewrite_dest_mac lan0 (after [.recv 1 1 true reply]).cache hostIp (ofBytes udpPing) =
        (some (write (write (ofBytes udpPing) 0 hostMac.toList) 6 lan0.if_mac.toList), none) := by
  obtain ⟨request, reply, hask, hanswer, hlater⟩ := an_answered_request_resolves_the_address
    (show ∀ e ∈ [], oneHost.Honest e by simp) lan0_up (show hostIp ≠ 0 by decide) rfl (by decide)
    hostAnswer_responds (by simp [knowledge]) (ofBytes udpPing)
  exact ⟨request, reply, hask, hanswer, hlater 1 1 true [] [] (by simp) (by simp) _⟩

end

/-! ## The frames that a LAN gets -/

/-- The two addresses that a thread gets from the cache of an interface. -/
def arp_macs (i : ArpIface) (c : ArpCache) (ip : UInt32) : Option (Vector UInt8 12) :=
  (arp_cache_lookup c ip).map fun mac => mac ++ i.if_mac

/-- The threads find the answers of the caches; in the packet the address stands in the order of the
wire. -/
structure AsksArp (e : InboundEnv) (i : Nat → ArpIface) (c : Nat → ArpCache) : Prop where
  local_macs : ∀ local_idx ip,
    e.local_macs local_idx ip = arp_macs (i local_idx) (c local_idx) (ntohl ip)

theorem write_macs (pkt : Buf) (mac if_mac : Mac) :
    write pkt 0 (mac ++ if_mac).toList = write (write pkt 0 mac.toList) 6 if_mac.toList := by
  rw [Vector.toList_append, write_append, Vector.length_toList]

theorem ntohl_eq_zero {ip : UInt32} : ntohl ip = 0 ↔ ip = 0 := by
  constructor
  · intro h
    exact ntohl_injective (h.trans (show (0 : UInt32) = ntohl 0 by decide))
  · rintro rfl
    decide

theorem set_local_l2_addrs_eq {e : InboundEnv} {i : Nat → ArpIface} {c : Nat → ArpCache}
    (h : AsksArp e i c) {local_idx : Nat} (hidx : local_idx < e.rt.fwd_cfg.locals.length)
    (dest_ip : UInt32) (pkt : Buf) : set_local_l2_addrs e local_idx dest_ip pkt =
      (local_rewrite_dest_mac (i local_idx) (c local_idx) (ntohl dest_ip) pkt).1 := by
  unfold set_local_l2_addrs local_rewrite_dest_mac
  by_cases hzero : dest_ip = 0
  · rw [if_neg (by simp [hzero]), if_pos (ntohl_eq_zero.mpr hzero)]
  · rw [if_pos ⟨hidx, hzero⟩, if_neg (mt ntohl_eq_zero.mp hzero), h.local_macs]
    unfold arp_macs
    cases arp_cache_lookup (c local_idx) (ntohl dest_ip) with
    | none => rfl
    | some mac =>
      show some (write pkt 0 (mac ++ (i local_idx).if_mac).toList) = _
      rw [write_macs]

theorem set_local_l2_addrs_some {ls : Nat → Link} {es : Nat → List Event}
    {i : Nat → ArpIface} {e : InboundEnv} (hmacs : AsksArp e i fun n => (after (es n)).cache)
    (hes : ∀ n, ∀ ev ∈ es n, (ls n).Honest ev) {local_idx : Nat} {dest_ip : UInt32}
    (hne : dest_ip ≠ 0) {pkt out : Buf}
    (h : set_local_l2_addrs e local_idx dest_ip pkt = some out) :
    ∃ mac, (ls local_idx).owner (ntohl dest_ip) = some mac ∧
      out = write pkt 0 (mac.toList ++ (i local_idx).if_mac.toList) := by
  have hidx : local_idx < e.rt.fwd_cfg.locals.length := by
    unfold set_local_l2_addrs at h
    split at h
    · rename_i hin
      exact hin.1
    · simp at h
  rw [set_local_l2_addrs_eq hmacs hidx] at h
  have hsend := (refines_after (hes local_idx)).answers.local_rewrite (i local_idx)
    (mt ntohl_eq_zero.mp hne) pkt
  split at hsend
  · obtain ⟨mac, howner, heq⟩ := hsend
    rw [heq] at h
    refine ⟨mac, howner, ?_⟩
    rw [write_append, Vector.length_toList]
    exact (Option.some.inj h).symm
  · rw [hsend] at h
    simp at h

theorem load_ip_written {pkt : Buf} {macs : Bytes} (h12 : macs.length = 12) {pkt_len : Nat}
    (hlen : 34 ≤ pkt_len) :
    load_ip (ofBytes (read (write pkt 0 macs) 0 pkt_len)) 30 = ntohl (ip_at pkt 30) := by
  have hbytes : ∀ k, 30 ≤ k → k < 34 →
      ofBytes (read (write pkt 0 macs) 0 pkt_len) k = pkt k := by
    intro k hk hk'
    unfold ofBytes
    rw [getD_read _ _ _ _ (by omega), Nat.zero_add, write_out _ _ _ _ (by omega)]
  unfold load_ip ip_at
  rw [be16_congr (hbytes 30 (by omega) (by omega)) (hbytes 31 (by omega) (by omega)),
    be16_congr (hbytes 32 (by omega) (by omega)) (hbytes 33 (by omega) (by omega))]

theorem read_written {pkt : Buf} {macs : Bytes} (h12 : macs.length = 12) {pkt_len : Nat}
    (hlen : 12 ≤ pkt_len) :
    read (write pkt 0 macs) 0 pkt_len = macs ++ read pkt 12 (pkt_len - 12) := by
  obtain ⟨n, rfl⟩ := Nat.exists_eq_add_of_le hlen
  rw [read_add, read_write_self _ _ _ _ h12.symm, Nat.zero_add, Nat.add_sub_cancel_left]
  refine congrArg _ (read_congr fun k hk _ => ?_)
  exact write_out _ _ _ _ (by omega)

/-- Every frame that a thread hands to a LAN, whichever way the packet came, has the MAC of the host
with the destination of the packet in front, then the one of the interface, and behind them the
packet as it was. -/
theorem a_lan_gets_frames_for_the_hosts_of_their_destinations {ls : Nat → Link}
    {es : Nat → List Event} (hes : ∀ n, ∀ ev ∈ es n, (ls n).Honest ev) {i : Nat → ArpIface}
    {e : InboundEnv} (hmacs : AsksArp e i fun n => (after (es n)).cache) {on_arp_miss : List Nat}
    {pkt : Buf} {pkt_len local_idx tq : Nat} {frame : Bytes}
    (h : (send_to_local e on_arp_miss pkt pkt_len).sent = some (local_idx, tq, frame)) :
    ∃ mac, (ls local_idx).owner (load_ip (ofBytes frame) 30) = some mac ∧
      frame = mac.toList ++ (i local_idx).if_mac.toList ++ read pkt 12 (pkt_len - 12) := by
  have hdest : get_dest_ip pkt pkt_len ≠ 0 := by
    intro hzero
    unfold send_to_local at h
    simp [hzero] at h
  obtain ⟨hlen, hip⟩ : 34 ≤ pkt_len ∧ get_dest_ip pkt pkt_len = ip_at pkt 30 := by
    unfold get_dest_ip at hdest ⊢
    split at hdest
    · exact absurd rfl hdest
    · rename_i hlen
      unfold ETH_HEADER_SIZE at hlen
      split at hdest
      · exact absurd rfl hdest
      · rename_i htype
        rw [if_neg (by unfold ETH_HEADER_SIZE; omega), if_neg htype]
        exact ⟨by omega, rfl⟩
  unfold send_to_local at h
  dsimp only at h
  rw [if_neg hdest] at h
  split at h
  · simp at h
  · rename_i idx hidx
    split at h
    · simp at h
    · rename_i out hout
      split at h
      · obtain ⟨rfl, hrest⟩ := Prod.mk.inj (Option.some.inj h)
        obtain ⟨-, rfl⟩ := Prod.mk.inj hrest
        obtain ⟨mac, howner, rfl⟩ := set_local_l2_addrs_some hmacs hes hdest hout
        have h12 : (mac.toList ++ (i idx).if_mac.toList).length = 12 := by simp
        rw [hip] at howner
        exact ⟨mac, by rw [load_ip_written h12 hlen]; exact howner, read_written h12 (by omega)⟩
      · simp at h

/-- A thread that asks a cache of `lan0`. -/
def cacheEnv (c : ArpCache) : InboundEnv := wanEnv fun ip => arp_macs lan0 c (ntohl ip)

theorem cacheEnv_asks (c : ArpCache) : AsksArp (cacheEnv c) (fun _ => lan0) fun _ => c :=
  ⟨fun _ _ => rfl⟩

theorem cacheEnv_sends {c : ArpCache} (h : arp_cache_lookup c hostIp = some hostMac) :
    (send_to_local (cacheEnv c) [] (ofBytes udpPing) 46).sent =
      some (0, local_tq (cacheEnv c) 0 (ofBytes udpPing) 46,
        read (write (ofBytes udpPing) 0 (hostMac ++ lan0.if_mac).toList) 0 46) := by
  have hmacs : (cacheEnv c).local_macs 0 0x0a000102 = some (hostMac ++ lan0.if_mac) := by
    rw [(cacheEnv_asks c).local_macs, show ntohl 0x0a000102 = hostIp by decide]
    unfold arp_macs
    rw [h, Option.map_some]
  have hset : set_local_l2_addrs (cacheEnv c) 0 0x0a000102 (ofBytes udpPing) =
      some (write (ofBytes udpPing) 0 (hostMac ++ lan0.if_mac).toList) := by
    unfold set_local_l2_addrs
    rw [if_pos ⟨Nat.zero_lt_one, by decide⟩, hmacs, Option.map_some]
  have hdest : get_dest_ip (ofBytes udpPing) 46 = 0x0a000102 := by decide
  have hidx : config_find_local_for_ip (cacheEnv c).rt.fwd_cfg 0x0a000102 = some 0 := rfl
  unfold send_to_local
  dsimp only
  rw [hdest, if_neg (by decide), hidx]
  dsimp only
  rw [hset]
  rfl

theorem the_host_gets_a_frame_with_its_mac :
    ∃ tq frame, (send_to_local (cacheEnv (after [heard]).cache) [] (ofBytes udpPing) 46).sent =
        some (0, tq, frame) ∧
      ∃ mac, oneHost.owner (load_ip (ofBytes frame) 30) = some mac ∧
        frame = mac.toList ++ lan0.if_mac.toList ++ read (ofBytes udpPing) 12 34 := by
  have hlookup := (refines_after heard_honest).answers.lookup hostIp
  rw [if_pos heard_known] at hlookup
  have hsent := cacheEnv_sends (hlookup.trans oneHost_owner)
  exact ⟨_, _, hsent, a_lan_gets_frames_for_the_hosts_of_their_destinations
    (show ∀ n, ∀ ev ∈ (fun _ => [heard]) n, ((fun _ => oneHost) n).Honest ev from
      fun _ => heard_honest) (cacheEnv_asks _) hsent⟩

end ne_ip.arp_link
