-- The columns of ne_policies (load_profiles_and_policies in db_config.c): how a row is read and
-- which wire id its key gets, and what is true of every policy that comes of it.
import NeIp.HexKey
import NeIp.KeyedNumbers
import NeIp.RowMeaning

open byte_buf c_text first_come keyed_numbers ne_ip.packet_crypto ne_ip.config ne_ip.crypto_dispatch
open ne_ip.flow_table ne_ip.db_runtime ne_ip.policy_rows ne_ip.row_meaning ne_ip.hex_key

namespace ne_ip.policy_load

def NE_KEY_WIRE_MAP_MAX : Nat := 64
def POLICY_PROTO_ANY : UInt8 := 0

/-! ## The texts of a row -/

/-- 0 when there is no number. -/
def atoi (v : Text) : Int := ((scan_int v).map (·.1)).getD 0

/-- The text `encrypt_l2` for the separator `_` and the digit 2. -/
def encrypt_text (sep digit : UInt8) : Text := [101, 110, 99, 114, 121, 112, 116, sep, 108, digit]

/-- The three names of a layer. -/
def names_layer (v : Text) (digit : UInt8) : Bool :=
  same_letters v [108, digit] || same_letters v (encrypt_text 95 digit) ||
    same_letters v (encrypt_text 32 digit)

def parse_action_name (v : Text) : Int :=
  if same_letters v [98, 121, 112, 97, 115, 115] then PolicyAction.bypass.toNat
  else if names_layer v 50 then PolicyAction.encrypt_l2.toNat
  else if names_layer v 51 then PolicyAction.encrypt_l3.toNat
  else if names_layer v 52 then PolicyAction.encrypt_l4.toNat
  else atoi v

/-- The number as an action. -/
def action_of (n : Int) : Option PolicyAction :=
  if n = 0 then some .bypass
  else if n = 2 then some .encrypt_l2
  else if n = 3 then some .encrypt_l3
  else if n = 4 then some .encrypt_l4
  else none

def parse_protocol_name (v : Option Text) : UInt8 :=
  match v with
  | none => POLICY_PROTO_ANY
  | some v =>
    if str_is_any v then POLICY_PROTO_ANY
    else if same_letters v [116, 99, 112] then 6
    else if same_letters v [117, 100, 112] then 17
    else if same_letters v [105, 99, 109, 112] then 1
    else if same_letters v [111, 115, 112, 102] then 89
    else UInt8.ofInt (atoi v)

/-- The text `aes-gcm-128` for the letters `gcm` and the digits 128. -/
def method_text (mode bits : Text) : Text := [97, 101, 115, 45] ++ mode ++ [45] ++ bits

/-- A method that it does not know is `aes-gcm-128`. -/
def ne_parse_method (v : Option Text) : CryptoMode × Nat :=
  match v with
  | none => (.gcm, 128)
  | some v =>
    if same_letters v (method_text [103, 99, 109] [49, 50, 56]) then (.gcm, 128)
    else if same_letters v (method_text [103, 99, 109] [50, 53, 54]) then (.gcm, 256)
    else if same_letters v (method_text [99, 116, 114] [49, 50, 56]) then (.ctr, 128)
    else if same_letters v (method_text [99, 116, 114] [50, 53, 54]) then (.ctr, 256)
    else (.gcm, 128)

/-! ## The columns -/

/-- `encryption_action_enum`. -/
inductive EncryptionAction where
  | L2
  | L3
  | L4
  | bypass
  deriving DecidableEq, Repr

def EncryptionAction.text : EncryptionAction → Text
  | .L2 => [76, 50]
  | .L3 => [76, 51]
  | .L4 => [76, 52]
  | .bypass => [98, 121, 112, 97, 115, 115]

/-- `encryption_protocol_enum`. -/
inductive EncryptionProtocol where
  | tcp
  | udp
  | icmp
  | ospf
  deriving DecidableEq, Repr

def EncryptionProtocol.text : EncryptionProtocol → Text
  | .tcp => [116, 99, 112]
  | .udp => [117, 100, 112]
  | .icmp => [105, 99, 109, 112]
  | .ospf => [111, 115, 112, 102]

/-- `encryption_method_enum`. -/
inductive EncryptionMethod where
  | aes_gcm_128
  | aes_gcm_256
  | aes_ctr_128
  | aes_ctr_256
  deriving DecidableEq, Repr

def EncryptionMethod.text : EncryptionMethod → Text
  | .aes_gcm_128 => method_text [103, 99, 109] [49, 50, 56]
  | .aes_gcm_256 => method_text [103, 99, 109] [50, 53, 54]
  | .aes_ctr_128 => method_text [99, 116, 114] [49, 50, 56]
  | .aes_ctr_256 => method_text [99, 116, 114] [50, 53, 54]

/-- A row of `ne_policies` as the query returns it; `none` is NULL. The lists are joined. -/
structure PolicyColumns where
  id : Int
  priority : Int := 0
  action : EncryptionAction
  proto : Option EncryptionProtocol := none
  src_ip : Text := []
  invert_src_ip : Bool := false
  dst_ip : Text := []
  invert_dst_ip : Bool := false
  src_port : Text := []
  dst_port : Text := []
  method : Option EncryptionMethod := none
  encryption_key : Option Text := none
  nonce : Option Int := none
  /-- The check of the table. -/
  nonce_in : ∀ n ∈ nonce, n = 4 ∨ n = 8 ∨ n = 12 ∨ n = 16 := by decide

theorem parse_action_name_text (a : EncryptionAction) :
    (action_of (parse_action_name a.text)).isSome = true := by
  cases a <;> decide

def row_action (row : PolicyColumns) : PolicyAction :=
  (action_of (parse_action_name row.action.text)).get (parse_action_name_text row.action)

def row_protocol (row : PolicyColumns) : UInt8 := parse_protocol_name (row.proto.map (·.text))

def row_method (row : PolicyColumns) : CryptoMode × Nat :=
  ne_parse_method (row.method.map (·.text))

/-! ## Wire ids -/

/-- An entry of the map that is valid. Of its key only `key_len` bytes are set and compared. -/
structure NeKeyWireEntry where
  key : List UInt8
  key_len : Nat
  wire_id : Nat

/-- The ids that are used, and the entries of the map in the order of their places. -/
structure WireMap where
  wire_used : List Nat := []
  map : List NeKeyWireEntry := []

/-- -1 is `none`. -/
def alloc_wire_policy_id (db_row_id : Int) (used : List Nat) : Option Nat :=
  if 1 ≤ db_row_id ∧ db_row_id ≤ 255 ∧ db_row_id.toNat ∉ used then some db_row_id.toNat
  else (List.range' 1 255).find? fun j => decide (j ∉ used)

def ne_wire_id_for_encrypt_key (s : WireMap) (key : Key) (key_len : Nat) (db_policy_id : Int) :
    Option (Nat × WireMap) :=
  let bytes := key.toList.take key_len
  match s.map.find? fun e => e.key_len == key_len && e.key == bytes with
  | some e => some (e.wire_id, s)
  | none =>
    (alloc_wire_policy_id db_policy_id s.wire_used).map fun wire_id =>
      (wire_id,
        { wire_used := s.wire_used ++ [wire_id]
          map := if s.map.length < NE_KEY_WIRE_MAP_MAX then
              s.map ++ [{ key := bytes, key_len, wire_id }]
            else s.map })

/-! ## The loop over the rows -/

def key_len_of (aes_bits : Nat) : Nat := if aes_bits = 256 then 32 else 16

/-- A method of 256 bits or, whatever it was, of 128. -/
def aes_bits_of (row : PolicyColumns) : Nat :=
  if (row_method row).2 ≠ 256 then 128 else (row_method row).2

def row_nonce_size (row : PolicyColumns) : Nat :=
  let nonce_size := row.nonce.getD 12
  if nonce_size ≤ 0 then 12 else nonce_size.toNat

def row_key (sha256 : Text → Vector UInt8 SHA256_DIGEST_LENGTH) (row : PolicyColumns) : Key :=
  ne_fill_policy_key sha256 row.encryption_key (key_len_of (aes_bits_of row))

/-- `cp_base` of a row that does not encrypt. -/
def bypass_base (row : PolicyColumns) : CryptoPolicy where
  id := 0
  db_id := row.id
  priority := row.priority
  action := .bypass
  protocol := row_protocol row
  crypto_mode := .gcm
  aes_bits := 128
  nonce_size := 12
  key := zero_key

/-- `cp_base` of a row that encrypts, with its wire id. -/
def encrypt_base (sha256 : Text → Vector UInt8 SHA256_DIGEST_LENGTH) (row : PolicyColumns)
    (action : PolicyAction) (wire_id : Nat) : CryptoPolicy where
  id := wire_id
  db_id := row.id
  priority := row.priority
  action := action
  protocol := row_protocol row
  crypto_mode := (row_method row).1
  aes_bits := aes_bits_of row
  nonce_size := row_nonce_size row
  key := row_key sha256 row

def with_lists (row : PolicyColumns) (cp_base : CryptoPolicy) : FetchedRow where
  cp_base := cp_base
  src_joined := row.src_ip
  invert_src := row.invert_src_ip
  dst_joined := row.dst_ip
  invert_dst := row.invert_dst_ip
  sport_joined := row.src_port
  dport_joined := row.dst_port

/-- What is read of a row before it is expanded. -/
def fetch_row (sha256 : Text → Vector UInt8 SHA256_DIGEST_LENGTH) (s : WireMap)
    (row : PolicyColumns) : Option (FetchedRow × WireMap) :=
  match row_action row with
  | .bypass => some (with_lists row (bypass_base row), s)
  | action =>
    (ne_wire_id_for_encrypt_key s (row_key sha256 row) (key_len_of (aes_bits_of row)) row.id).map
      fun r => (with_lists row (encrypt_base sha256 row action r.1), r.2)

/-- One turn of the loop: the row is read and then expanded. -/
def load_row (sha256 : Text → Vector UInt8 SHA256_DIGEST_LENGTH)
    (s : WireMap × List CryptoPolicy) (row : PolicyColumns) :
    Option (WireMap × List CryptoPolicy) :=
  match fetch_row sha256 s.1 row with
  | none => none
  | some (fetched, map) => (expand_row s.2 fetched).map fun policies => (map, policies)

def load_rows (sha256 : Text → Vector UInt8 SHA256_DIGEST_LENGTH) (rows : List PolicyColumns) :
    Option (List CryptoPolicy) :=
  (rows.foldlM (load_row sha256) ({}, [])).map (·.2)

/-! ## First all rows are read, then all are expanded -/

def fetch_rows (sha256 : Text → Vector UInt8 SHA256_DIGEST_LENGTH) :
    WireMap → List PolicyColumns → Option (List FetchedRow)
  | _, [] => some []
  | s, row :: rows =>
    match fetch_row sha256 s row with
    | none => none
    | some (fetched, s) => (fetch_rows sha256 s rows).map (fetched :: ·)

section

variable {sha256 : Text → Vector UInt8 SHA256_DIGEST_LENGTH}

theorem fetch_rows_cons_some {s : WireMap} {row : PolicyColumns} {rows : List PolicyColumns}
    {fs : List FetchedRow} (h : fetch_rows sha256 s (row :: rows) = some fs) :
    ∃ f t fs', fetch_row sha256 s row = some (f, t) ∧ fetch_rows sha256 t rows = some fs' ∧
      fs = f :: fs' := by
  unfold fetch_rows at h
  split at h
  · simp at h
  · rename_i f t hone
    obtain ⟨fs', hrest, rfl⟩ := Option.map_eq_some_iff.mp h
    exact ⟨f, t, fs', hone, hrest, rfl⟩

/-- The loop that does both for one row after the other gives the same. -/
theorem load_rows_eq (sha256 : Text → Vector UInt8 SHA256_DIGEST_LENGTH)
    (rows : List PolicyColumns) :
    load_rows sha256 rows = (fetch_rows sha256 {} rows).bind load_policy_rows := by
  have hall : ∀ (s : WireMap) (ps : List CryptoPolicy),
      (rows.foldlM (load_row sha256) (s, ps)).map (·.2) =
        (fetch_rows sha256 s rows).bind fun fs => fs.foldlM expand_row ps := by
    induction rows with
    | nil =>
      intro s ps
      rfl
    | cons row rows ih =>
      intro s ps
      rw [List.foldlM_cons]
      unfold load_row fetch_rows
      dsimp only
      cases fetch_row sha256 s row with
      | none => rfl
      | some r =>
        obtain ⟨f, t⟩ := r
        dsimp only
        cases hexp : expand_row ps f with
        | none =>
          cases fetch_rows sha256 t rows with
          | none => rfl
          | some fs =>
            show none = (f :: fs).foldlM expand_row ps
            rw [List.foldlM_cons, hexp]
            rfl
        | some ps' =>
          have hrest := ih t ps'
          show (rows.foldlM (load_row sha256) (t, ps')).map (·.2) = _
          rw [hrest]
          cases fetch_rows sha256 t rows with
          | none => rfl
          | some fs =>
            show fs.foldlM expand_row ps' = (f :: fs).foldlM expand_row ps
            rw [List.foldlM_cons, hexp]
            rfl
  exact hall {} []

end

/-! ## The wire ids of the keys -/

/-- The map as numbers that are given out by key. -/
def WireMap.desk (s : WireMap) : Desk (Nat × List UInt8) where
  used := s.wire_used
  known := s.map.map fun e => ((e.key_len, e.key), e.wire_id)

theorem alloc_wire_policy_id_eq (db_row_id : Int) (used : List Nat) :
    alloc_wire_policy_id db_row_id used = number 255 used db_row_id.toNat := by
  unfold alloc_wire_policy_id number
  by_cases h : 1 ≤ db_row_id ∧ db_row_id ≤ 255 ∧ db_row_id.toNat ∉ used
  · rw [if_pos h, if_neg]
    rintro (h1 | hl | hin)
    · omega
    · omega
    · exact h.2.2 hin
  · rw [if_neg h, if_pos]
    by_contra hno
    rw [not_or, not_or] at hno
    exact h ⟨by omega, by omega, hno.2.2⟩

/-- An entry of the map for the key is the entry of the desk. -/
theorem find_desk (s : WireMap) (bytes : List UInt8) (key_len : Nat) :
    (s.desk.known.find? fun e => decide (e.1 = (key_len, bytes))) =
      (s.map.find? fun e => e.key_len == key_len && e.key == bytes).map
        fun e => ((e.key_len, e.key), e.wire_id) := by
  show (s.map.map _).find? _ = _
  rw [List.find?_map]
  refine congrArg (Option.map _) (congrArg (fun p => s.map.find? p) (funext fun e => ?_))
  rw [Bool.eq_iff_iff]
  simp [Prod.ext_iff]

theorem ne_wire_id_for_encrypt_key_eq (s : WireMap) (key : Key) (key_len : Nat)
    (db_policy_id : Int) :
    (ne_wire_id_for_encrypt_key s key key_len db_policy_id).map (fun r => (r.1, r.2.desk)) =
      ask 255 NE_KEY_WIRE_MAP_MAX s.desk (key_len, key.toList.take key_len)
        db_policy_id.toNat := by
  have hfind := find_desk s (key.toList.take key_len) key_len
  unfold ne_wire_id_for_encrypt_key ask
  dsimp only
  rw [hfind]
  cases s.map.find? fun e => e.key_len == key_len && e.key == key.toList.take key_len with
  | some e => rfl
  | none =>
    dsimp only [Option.map_none]
    rw [alloc_wire_policy_id_eq, Option.map_map]
    refine Option.map_congr fun j _ => ?_
    unfold Desk.remember WireMap.desk
    dsimp only [Function.comp]
    rw [List.length_map]
    split
    · rw [List.map_append]
      rfl
    · rfl

/-! ## The loops fit or overflow -/

/-- Rounds that fit or overflow make a loop that does. -/
theorem foldlM_fits {α : Type} {f : List CryptoPolicy → α → Option (List CryptoPolicy)}
    {g : α → List CryptoPolicy} (hf : ∀ a ps, ps.length ≤ MAX_CRYPTO_POLICIES →
      f ps a = if (ps ++ g a).length ≤ MAX_CRYPTO_POLICIES then some (ps ++ g a) else none)
    (l : List α) {ps : List CryptoPolicy} (hps : ps.length ≤ MAX_CRYPTO_POLICIES) :
    l.foldlM f ps = if (ps ++ l.flatMap g).length ≤ MAX_CRYPTO_POLICIES then
      some (ps ++ l.flatMap g) else none := by
  induction l generalizing ps with
  | nil =>
    rw [List.flatMap_nil, List.append_nil, if_pos hps]
    rfl
  | cons a l ih =>
    rw [List.foldlM_cons, hf a ps hps, List.flatMap_cons, ← List.append_assoc]
    by_cases hone : (ps ++ g a).length ≤ MAX_CRYPTO_POLICIES
    · rw [if_pos hone]
      exact ih hone
    · rw [if_neg hone, if_neg]
      · rfl
      · rw [List.length_append]
        omega

theorem expand_row_eq {ps : List CryptoPolicy} (hps : ps.length ≤ MAX_CRYPTO_POLICIES)
    (row : FetchedRow) : expand_row ps row =
      if (ps ++ expansion row).length ≤ MAX_CRYPTO_POLICIES then some (ps ++ expansion row)
      else none := by
  refine foldlM_fits (fun src_item ps hps => ?_) _ hps
  refine foldlM_fits (fun dst_item ps hps => ?_) _ hps
  refine foldlM_fits (fun sp_item ps hps => ?_) _ hps
  rw [List.map_eq_flatMap]
  refine foldlM_fits (fun dp_item ps hps => ?_) _ hps
  unfold add_policy
  rw [List.length_append, List.length_singleton]
  by_cases hroom : MAX_CRYPTO_POLICIES ≤ ps.length
  · rw [if_pos hroom, if_neg (by omega)]
  · rw [if_neg hroom, if_pos (by omega)]

theorem load_policy_rows_eq (fs : List FetchedRow) : load_policy_rows fs =
    if (fs.flatMap expansion).length ≤ MAX_CRYPTO_POLICIES then some (fs.flatMap expansion)
    else none :=
  foldlM_fits (fun row _ hps => expand_row_eq hps row) fs (Nat.zero_le _)

theorem ne_fill_str_list_ne_nil (joined : Text) : ne_fill_str_list joined ≠ [] := by
  unfold ne_fill_str_list
  split
  · simp
  · cases hsplit : split_cidr_list joined with
    | none => simp
    | some items =>
      unfold split_cidr_list at hsplit
      dsimp only at hsplit
      split at hsplit
      · simp at hsplit
      · split at hsplit
        · simp at hsplit
        · rename_i hitems
          rw [← Option.some.inj hsplit, Option.getD_some, Ne, List.map_eq_nil_iff]
          exact fun hnil => hitems (Or.inr (Or.inr hnil))

/-- What a policy of an expansion has of its row. -/
theorem mem_expansion {row : FetchedRow} {p : CryptoPolicy} (h : p ∈ expansion row) :
    ∃ src_item dst_item sp_item dp_item,
      p = expanded_policy row src_item dst_item sp_item dp_item := by
  obtain ⟨src_item, -, h⟩ := List.mem_flatMap.mp h
  obtain ⟨dst_item, -, h⟩ := List.mem_flatMap.mp h
  obtain ⟨sp_item, -, h⟩ := List.mem_flatMap.mp h
  obtain ⟨dp_item, -, rfl⟩ := List.mem_map.mp h
  exact ⟨src_item, dst_item, sp_item, dp_item, rfl⟩

/-- The number of policies that a row is expanded to. -/
def expansion_size (row : PolicyColumns) : Nat :=
  (ne_fill_str_list row.src_ip).length * (ne_fill_str_list row.dst_ip).length *
    (ne_fill_str_list row.src_port).length * (ne_fill_str_list row.dst_port).length

theorem length_expansion (row : PolicyColumns) (cp_base : CryptoPolicy) :
    (expansion (with_lists row cp_base)).length = expansion_size row := by
  unfold expansion expansion_size with_lists
  simp only [List.length_flatMap, List.length_map, List.map_const', List.sum_replicate,
    smul_eq_mul, Nat.mul_assoc]

theorem one_le_expansion_size (row : PolicyColumns) : 1 ≤ expansion_size row := by
  unfold expansion_size
  have hpos : ∀ t, 0 < (ne_fill_str_list t).length := fun t =>
    List.length_pos_iff.mpr (ne_fill_str_list_ne_nil t)
  exact Nat.mul_pos (Nat.mul_pos (Nat.mul_pos (hpos _) (hpos _)) (hpos _)) (hpos _)

/-! ## The rows that encrypt -/

/-- What the map of wire ids compares. -/
def wire_key (cp : CryptoPolicy) : Nat × List UInt8 :=
  (key_len_of cp.aes_bits, cp.key.toList.take (key_len_of cp.aes_bits))

def encrypts (cp : CryptoPolicy) : Bool := decide (cp.action ≠ .bypass)

section

variable {sha256 : Text → Vector UInt8 SHA256_DIGEST_LENGTH}

/-- The requests for wire ids. -/
def requests (sha256 : Text → Vector UInt8 SHA256_DIGEST_LENGTH) (rows : List PolicyColumns) :
    List ((Nat × List UInt8) × Nat) :=
  (rows.filter fun row => decide (row_action row ≠ .bypass)).map fun row =>
    ((key_len_of (aes_bits_of row), (row_key sha256 row).toList.take
      (key_len_of (aes_bits_of row))), row.id.toNat)

/-- What a row is read as, its wire id apart. -/
def Fetched (sha256 : Text → Vector UInt8 SHA256_DIGEST_LENGTH) (row : PolicyColumns)
    (f : FetchedRow) : Prop :=
  (row_action row = .bypass ∧ f = with_lists row (bypass_base row)) ∨
    (row_action row ≠ .bypass ∧
      ∃ j, f = with_lists row (encrypt_base sha256 row (row_action row) j))

theorem fetch_row_bypass {row : PolicyColumns} (h : row_action row = .bypass) (s : WireMap) :
    fetch_row sha256 s row = some (with_lists row (bypass_base row), s) := by
  unfold fetch_row
  rw [h]

theorem fetch_row_encrypt {row : PolicyColumns} (h : row_action row ≠ .bypass) (s : WireMap) :
    fetch_row sha256 s row = (ne_wire_id_for_encrypt_key s (row_key sha256 row)
      (key_len_of (aes_bits_of row)) row.id).map fun r =>
        (with_lists row (encrypt_base sha256 row (row_action row) r.1), r.2) := by
  unfold fetch_row
  cases hact : row_action row with
  | bypass => exact absurd hact h
  | encrypt_l2 => rfl
  | encrypt_l3 => rfl
  | encrypt_l4 => rfl

theorem fetch_rows_fetched {s : WireMap} {rows : List PolicyColumns} {fs : List FetchedRow}
    (h : fetch_rows sha256 s rows = some fs) : List.Forall₂ (Fetched sha256) rows fs := by
  induction rows generalizing s fs with
  | nil =>
    rw [← Option.some.inj h]
    exact List.Forall₂.nil
  | cons row rows ih =>
    obtain ⟨f, t, fs', hone, hrest, rfl⟩ := fetch_rows_cons_some h
    refine List.Forall₂.cons ?_ (ih hrest)
    by_cases hact : row_action row = .bypass
    · rw [fetch_row_bypass hact] at hone
      exact Or.inl ⟨hact, (Prod.mk.inj (Option.some.inj hone)).1.symm⟩
    · rw [fetch_row_encrypt hact] at hone
      obtain ⟨r, -, heq⟩ := Option.map_eq_some_iff.mp hone
      exact Or.inr ⟨hact, r.1, (Prod.mk.inj heq).1.symm⟩

theorem Fetched.encrypts {row : PolicyColumns} {f : FetchedRow} (h : Fetched sha256 row f) :
    encrypts f.cp_base = decide (row_action row ≠ .bypass) := by
  rcases h with ⟨hact, rfl⟩ | ⟨hact, j, rfl⟩
  · rw [hact]
    rfl
  · rfl

/-- The rows that encrypt get their ids as the requests are answered. -/
theorem fetch_rows_asks (sha256 : Text → Vector UInt8 SHA256_DIGEST_LENGTH) (s : WireMap)
    (rows : List PolicyColumns) :
    (fetch_rows sha256 s rows).map (fun fs =>
      (fs.filter fun f => encrypts f.cp_base).map fun f => f.cp_base.id) =
      (asks 255 NE_KEY_WIRE_MAP_MAX s.desk (requests sha256 rows)).map (·.1) := by
  induction rows generalizing s with
  | nil => rfl
  | cons row rows ih =>
    unfold fetch_rows
    by_cases hact : row_action row = .bypass
    · have hreq : requests sha256 (row :: rows) = requests sha256 rows := by
        unfold requests
        rw [List.filter_cons_of_neg (by simpa using hact)]
      rw [fetch_row_bypass hact, hreq, ← ih s, Option.map_map]
      rfl
    · have hreq : requests sha256 (row :: rows) =
          ((key_len_of (aes_bits_of row), (row_key sha256 row).toList.take
            (key_len_of (aes_bits_of row))), row.id.toNat) :: requests sha256 rows := by
        unfold requests
        rw [List.filter_cons_of_pos (by simpa using hact)]
        rfl
      have hask := ne_wire_id_for_encrypt_key_eq s (row_key sha256 row)
        (key_len_of (aes_bits_of row)) row.id
      rw [fetch_row_encrypt hact, hreq]
      unfold asks
      dsimp only
      rw [← hask]
      cases ne_wire_id_for_encrypt_key s (row_key sha256 row) (key_len_of (aes_bits_of row))
          row.id with
      | none => rfl
      | some r =>
        obtain ⟨j, t⟩ := r
        dsimp only [Option.map_some]
        rw [Option.map_map, Option.map_map]
        have hrest := congrArg (Option.map (j :: ·)) (ih t)
        rw [Option.map_map, Option.map_map] at hrest
        refine Eq.trans (congrFun (congrArg Option.map (funext fun fs => ?_)) _) hrest
        dsimp only [Function.comp]
        rw [List.filter_cons_of_pos (p := fun f : FetchedRow => encrypts f.cp_base)
          (decide_eq_true hact)]
        rfl

theorem forall₂_keys {rows : List PolicyColumns} {fs : List FetchedRow}
    (h : List.Forall₂ (Fetched sha256) rows fs) :
    (requests sha256 rows).map (·.1) =
      (fs.filter fun f => encrypts f.cp_base).map fun f => wire_key f.cp_base := by
  induction h with
  | nil => rfl
  | @cons row f rows fs hone hall ih =>
    have henc := hone.encrypts
    unfold requests at ih ⊢
    rcases hone with ⟨hact, rfl⟩ | ⟨hact, j, rfl⟩
    · rw [List.filter_cons_of_neg (by simpa using hact),
        List.filter_cons_of_neg (by rw [henc]; simpa using hact)]
      exact ih
    · rw [List.filter_cons_of_pos (by simpa using hact),
        List.filter_cons_of_pos (by rw [henc]; simpa using hact), List.map_cons, List.map_cons,
        List.map_cons, ih]
      rfl

/-- Of two rows that encrypt the ids are the same exactly when the keys are, and remembered. -/
theorem fetch_rows_ids {rows : List PolicyColumns} {fs : List FetchedRow}
    (h : fetch_rows sha256 {} rows = some fs) :
    (∀ f ∈ fs.filter fun f => encrypts f.cp_base, 1 ≤ f.cp_base.id ∧ f.cp_base.id ≤ 255) ∧
      (fs.filter fun f => encrypts f.cp_base).Pairwise fun f g =>
        f.cp_base.id = g.cp_base.id ↔ wire_key f.cp_base = wire_key g.cp_base ∧
          wire_key f.cp_base ∈ remembered NE_KEY_WIRE_MAP_MAX []
            ((fs.filter fun f => encrypts f.cp_base).map fun f => wire_key f.cp_base) := by
  have hkeys := forall₂_keys (fetch_rows_fetched h)
  have hasks := fetch_rows_asks sha256 {} rows
  rw [h] at hasks
  obtain ⟨⟨js, t⟩, ha, hjs⟩ := Option.map_eq_some_iff.mp hasks.symm
  dsimp only at hjs
  obtain ⟨-, hrange, hpairs⟩ := asks_answers ha
  rw [hkeys, hjs] at hpairs
  rw [hjs] at hrange
  refine ⟨fun f hf => hrange _ (List.mem_map_of_mem hf), ?_⟩
  rw [List.zip_map', List.pairwise_map] at hpairs
  exact hpairs

end

/-! ## What is loaded -/

section

variable {sha256 : Text → Vector UInt8 SHA256_DIGEST_LENGTH}

theorem load_rows_some {rows : List PolicyColumns} {ps : List CryptoPolicy}
    (h : load_rows sha256 rows = some ps) : ∃ fs, fetch_rows sha256 {} rows = some fs ∧
      ps = fs.flatMap expansion ∧ ps.length ≤ MAX_CRYPTO_POLICIES := by
  rw [load_rows_eq] at h
  obtain ⟨fs, hfs, hps⟩ := Option.bind_eq_some_iff.mp h
  rw [load_policy_rows_eq] at hps
  split at hps
  · rename_i hle
    obtain rfl := Option.some.inj hps
    exact ⟨fs, hfs, rfl, hle⟩
  · simp at hps

theorem length_flatMap_expansion {rows : List PolicyColumns} {fs : List FetchedRow}
    (h : List.Forall₂ (Fetched sha256) rows fs) :
    (fs.flatMap expansion).length = (rows.map expansion_size).sum := by
  induction h with
  | nil => rfl
  | @cons row f rows fs hone hall ih =>
    have hlen : (expansion f).length = expansion_size row := by
      rcases hone with ⟨-, rfl⟩ | ⟨-, j, rfl⟩
      · exact length_expansion row _
      · exact length_expansion row _
    rw [List.flatMap_cons, List.length_append, ih, hlen, List.map_cons, List.sum_cons]

/-- No row is expanded to nothing. -/
theorem length_le_expansions (rows : List PolicyColumns) :
    rows.length ≤ (rows.map expansion_size).sum := by
  rw [← List.length_map expansion_size]
  refine List.length_le_sum_of_one_le _ fun n hn => ?_
  obtain ⟨row, -, rfl⟩ := List.mem_map.mp hn
  exact one_le_expansion_size row

theorem load_rows_isSome {rows : List PolicyColumns} (h : (load_rows sha256 rows).isSome = true) :
    (rows.map expansion_size).sum ≤ MAX_CRYPTO_POLICIES := by
  obtain ⟨ps, hps⟩ := Option.isSome_iff_exists.mp h
  obtain ⟨fs, hfs, rfl, hle⟩ := load_rows_some hps
  rw [← length_flatMap_expansion (fetch_rows_fetched hfs)]
  exact hle

/-- Up to 255 rows all get what they ask for. -/
theorem fetch_rows_isSome (sha256 : Text → Vector UInt8 SHA256_DIGEST_LENGTH)
    {rows : List PolicyColumns} (h : rows.length ≤ 255) :
    (fetch_rows sha256 {} rows).isSome = true := by
  have hdraws : draws NE_KEY_WIRE_MAP_MAX [] ((requests sha256 rows).map (·.1)) ≤
      ((requests sha256 rows).map (·.1)).length := draws_le_length _ _
  have hreq : ((requests sha256 rows).map (·.1)).length ≤ rows.length := by
    unfold requests
    rw [List.length_map, List.length_map]
    exact List.length_filter_le _ _
  have hasks := (asks_isSome_iff (Kept.empty 255 NE_KEY_WIRE_MAP_MAX)
    (requests sha256 rows)).mpr (Or.inr (by
      rw [show (Desk.empty : Desk (Nat × List UInt8)).used.length = 0 from rfl,
        show (Desk.empty : Desk (Nat × List UInt8)).keys = [] from rfl]
      omega))
  have hfetch := congrArg Option.isSome (fetch_rows_asks sha256 {} rows)
  rw [Option.isSome_map, Option.isSome_map,
    show (({} : WireMap).desk : Desk (Nat × List UInt8)) = Desk.empty from rfl, hasks] at hfetch
  exact hfetch

/-- The loop has come to a row with the map that reading the rows before it leaves. -/
theorem fetch_rows_append_isSome {before : List PolicyColumns} {s t : WireMap}
    {ps qs : List CryptoPolicy} (h : before.foldlM (load_row sha256) (s, ps) = some (t, qs))
    (after : List PolicyColumns) :
    (fetch_rows sha256 s (before ++ after)).isSome = (fetch_rows sha256 t after).isSome := by
  induction before generalizing s ps with
  | nil =>
    obtain ⟨rfl, -⟩ := Prod.mk.inj (Option.some.inj h)
    rfl
  | cons row before ih =>
    rw [List.foldlM_cons] at h
    obtain ⟨⟨s', ps'⟩, hrow, hrest⟩ := Option.bind_eq_some_iff.mp h
    unfold load_row at hrow
    rw [List.cons_append, fetch_rows]
    cases hone : fetch_row sha256 s row with
    | none => simp [hone] at hrow
    | some r =>
      obtain ⟨f, s1⟩ := r
      rw [hone] at hrow
      obtain ⟨_, -, heq⟩ := Option.map_eq_some_iff.mp hrow
      obtain ⟨rfl, -⟩ := Prod.mk.inj heq
      dsimp only
      rw [Option.isSome_map]
      exact ih hrest

/-- The rows before it were expanded to at most 128 policies, so there are at most as many. -/
theorem fetch_row_isSome_of_reached {before : List PolicyColumns} {s : WireMap}
    {ps : List CryptoPolicy} (h : before.foldlM (load_row sha256) ({}, []) = some (s, ps))
    (row : PolicyColumns) : (fetch_row sha256 s row).isSome = true := by
  have hloaded : (load_rows sha256 before).isSome = true := by
    unfold load_rows
    rw [h]
    rfl
  have hsize := load_rows_isSome hloaded
  have hmax : MAX_CRYPTO_POLICIES = 128 := rfl
  have hlength := length_le_expansions before
  have hread : (fetch_rows sha256 {} (before ++ [row])).isSome = true :=
    fetch_rows_isSome sha256 (by
      rw [List.length_append, List.length_singleton]
      omega)
  rw [fetch_rows_append_isSome h] at hread
  unfold fetch_rows at hread
  cases hone : fetch_row sha256 s row with
  | none => simp [hone] at hread
  | some r => rfl

/-- The rows of a profile are loaded exactly when the array has room for all that they are
expanded to, and whatever row the loop comes to, there is a wire id for it. -/
theorem rows_are_loaded_iff_their_expansion_fits
    (sha256 : Text → Vector UInt8 SHA256_DIGEST_LENGTH) (rows : List PolicyColumns) :
    ((load_rows sha256 rows).isSome = true ↔
      (rows.map expansion_size).sum ≤ MAX_CRYPTO_POLICIES) ∧
    ∀ before row after s ps, rows = before ++ row :: after →
      before.foldlM (load_row sha256) ({}, []) = some (s, ps) →
        (fetch_row sha256 s row).isSome = true := by
  refine ⟨⟨load_rows_isSome, fun h => ?_⟩,
    fun _ row _ _ _ _ hreached => fetch_row_isSome_of_reached hreached row⟩
  have hmax : MAX_CRYPTO_POLICIES = 128 := rfl
  have hlength := length_le_expansions rows
  have hread : (fetch_rows sha256 {} rows).isSome = true := fetch_rows_isSome sha256 (by omega)
  obtain ⟨fs, hfs⟩ := Option.isSome_iff_exists.mp hread
  rw [load_rows_eq, hfs, Option.bind_some, load_policy_rows_eq,
    length_flatMap_expansion (fetch_rows_fetched hfs), if_pos h]
  rfl

/-! ### The keys -/

theorem get_zero_key (k : Fin AES_KEY_LEN) : zero_key.get k = 0 := by
  unfold zero_key
  exact Vector.getElem_replicate _

theorem get_ne_fill_policy_key (v : Option Text) (n : Nat) {k : Fin AES_KEY_LEN} (hk : n ≤ k.val) :
    (ne_fill_policy_key sha256 v n).get k = 0 := by
  have hzero := get_zero_key k
  cases v with
  | none => exact hzero
  | some v =>
    by_cases hv : v = []
    · rw [hv]
      exact hzero
    · rw [ne_fill_policy_key_eq sha256 hv]
      split
      · unfold parse_hex_bytes
        split
        · exact hzero
        · rw [get_parse_pairs_of_outside v n 0 zero_key (by omega)]
          exact hzero
      · rw [get_overwrite, if_neg (by omega)]
        exact hzero

theorem aes_bits_of_eq (row : PolicyColumns) : aes_bits_of row = 128 ∨ aes_bits_of row = 256 := by
  unfold aes_bits_of
  split
  · exact Or.inl rfl
  · rename_i h
    exact Or.inr (not_not.mp h)

/-- The bits of a key, and that there is nothing behind it. -/
structure KeyFits (cp : CryptoPolicy) : Prop where
  aes_bits : cp.aes_bits = 128 ∨ cp.aes_bits = 256
  key : ∀ k : Fin AES_KEY_LEN, key_len_of cp.aes_bits ≤ k.val → cp.key.get k = 0

theorem KeyFits.encrypt_base (row : PolicyColumns) (action : PolicyAction) (j : Nat) :
    KeyFits (encrypt_base sha256 row action j) := by
  refine ⟨aes_bits_of_eq row, fun k hk => ?_⟩
  show (row_key sha256 row).get k = 0
  unfold row_key
  exact get_ne_fill_policy_key row.encryption_key _ hk

/-- The map of wire ids tells all keys apart. -/
theorem KeyFits.wire_key_inj {p q : CryptoPolicy} (hp : KeyFits p) (hq : KeyFits q) :
    wire_key p = wire_key q ↔ p.aes_bits = q.aes_bits ∧ p.key = q.key := by
  constructor
  · intro h
    obtain ⟨hlen, hkey⟩ := Prod.mk.inj h
    have hbits : p.aes_bits = q.aes_bits := by
      unfold key_len_of at hlen
      rcases hp.aes_bits with h1 | h1 <;> rcases hq.aes_bits with h2 | h2 <;>
        rw [h1, h2] at hlen ⊢ <;> simp at hlen
    refine ⟨hbits, key_ext fun k => ?_⟩
    by_cases hk : k.val < key_len_of p.aes_bits
    · have hget := congrArg (fun l : List UInt8 => l[k.val]?) hkey
      rw [List.getElem?_take_of_lt hk, ← hbits, List.getElem?_take_of_lt hk] at hget
      rw [List.getElem?_eq_getElem (by simp), List.getElem?_eq_getElem (by simp)] at hget
      exact Option.some.inj hget
    · rw [hp.key k (by omega), hq.key k (by rw [← hbits]; omega)]
  · rintro ⟨hbits, hkey⟩
    unfold wire_key
    rw [hbits, hkey]

theorem fetched_of_mem {rows : List PolicyColumns} {fs : List FetchedRow}
    (h : List.Forall₂ (Fetched sha256) rows fs) {f : FetchedRow} (hf : f ∈ fs) :
    ∃ row ∈ rows, Fetched sha256 row f := by
  induction h with
  | nil => simp at hf
  | @cons row g rows fs hone hall ih =>
    rcases List.mem_cons.mp hf with rfl | hf
    · exact ⟨row, List.mem_cons_self, hone⟩
    · obtain ⟨row', hrow, hfetched⟩ := ih hf
      exact ⟨row', List.mem_cons_of_mem row hrow, hfetched⟩

/-- Every policy that is loaded is one of an expansion. -/
theorem mem_load_rows {rows : List PolicyColumns} {ps : List CryptoPolicy}
    (h : load_rows sha256 rows = some ps) {p : CryptoPolicy} (hp : p ∈ ps) :
    ∃ row ∈ rows, ∃ f src_item dst_item sp_item dp_item, Fetched sha256 row f ∧
      p = expanded_policy f src_item dst_item sp_item dp_item := by
  obtain ⟨fs, hfs, rfl, -⟩ := load_rows_some h
  obtain ⟨f, hf, hexp⟩ := List.mem_flatMap.mp hp
  obtain ⟨row, hrow, hfetched⟩ := fetched_of_mem (fetch_rows_fetched hfs) hf
  obtain ⟨src_item, dst_item, sp_item, dp_item, rfl⟩ := mem_expansion hexp
  exact ⟨row, hrow, f, src_item, dst_item, sp_item, dp_item, hfetched, rfl⟩

/-! ### The ids of the keys -/

/-- The keys that a list of policies encrypts with. -/
def keys_of (ps : List CryptoPolicy) : Finset (Nat × Key) :=
  ((ps.filter encrypts).map fun p => (p.aes_bits, p.key)).toFinset

theorem card_wire_keys_le (fs : List FetchedRow) :
    ((fs.filter fun f => encrypts f.cp_base).map fun f => wire_key f.cp_base).toFinset.card ≤
      (keys_of (fs.flatMap expansion)).card := by
  have hsub : ((fs.filter fun f => encrypts f.cp_base).map fun f => wire_key f.cp_base).toFinset ⊆
      (keys_of (fs.flatMap expansion)).image fun e =>
        (key_len_of e.1, e.2.toList.take (key_len_of e.1)) := by
    intro k hk
    obtain ⟨f, hf, rfl⟩ := List.mem_map.mp (List.mem_toFinset.mp hk)
    obtain ⟨hin, henc⟩ := List.mem_filter.mp hf
    -- every row is expanded to at least one policy
    have hone : 0 < (expansion f).length := by
      unfold expansion
      obtain ⟨src_item, hsrc⟩ := List.exists_mem_of_ne_nil _ (ne_fill_str_list_ne_nil f.src_joined)
      obtain ⟨dst_item, hdst⟩ := List.exists_mem_of_ne_nil _ (ne_fill_str_list_ne_nil f.dst_joined)
      obtain ⟨sp_item, hsp⟩ := List.exists_mem_of_ne_nil _ (ne_fill_str_list_ne_nil f.sport_joined)
      obtain ⟨dp_item, hdp⟩ := List.exists_mem_of_ne_nil _ (ne_fill_str_list_ne_nil f.dport_joined)
      exact List.length_pos_of_mem (List.mem_flatMap.mpr ⟨src_item, hsrc, List.mem_flatMap.mpr
        ⟨dst_item, hdst, List.mem_flatMap.mpr ⟨sp_item, hsp, List.mem_map_of_mem hdp⟩⟩⟩)
    obtain ⟨p, hp⟩ := List.exists_mem_of_length_pos hone
    obtain ⟨src_item, dst_item, sp_item, dp_item, rfl⟩ := mem_expansion hp
    refine Finset.mem_image.mpr ⟨(f.cp_base.aes_bits, f.cp_base.key), ?_, rfl⟩
    exact List.mem_toFinset.mpr (List.mem_map.mpr
      ⟨_, List.mem_filter.mpr ⟨List.mem_flatMap.mpr ⟨f, hin, hp⟩, henc⟩, rfl⟩)
  exact (Finset.card_le_card hsub).trans Finset.card_image_le

/-- Policies of one profile that share a wire id share the key, and up to 64 keys in the profile
those that share the key share the id. -/
theorem wire_ids_of_a_profile_tell_its_keys_apart {rows : List PolicyColumns}
    {ps : List CryptoPolicy} (h : load_rows sha256 rows = some ps) {p q : CryptoPolicy}
    (hp : p ∈ ps) (hq : q ∈ ps) (hpe : p.action ≠ .bypass) (hqe : q.action ≠ .bypass) :
    (1 ≤ p.id ∧ p.id ≤ 255) ∧ (p.id = q.id → p.aes_bits = q.aes_bits ∧ p.key = q.key) ∧
      ((keys_of ps).card ≤ NE_KEY_WIRE_MAP_MAX → p.aes_bits = q.aes_bits ∧ p.key = q.key →
        p.id = q.id) := by
  obtain ⟨fs, hfs, rfl, -⟩ := load_rows_some h
  obtain ⟨hrange, hpairs⟩ := fetch_rows_ids hfs
  have hbase : ∀ r ∈ fs.flatMap expansion, r.action ≠ .bypass →
      ∃ f ∈ fs.filter fun f => encrypts f.cp_base, KeyFits f.cp_base ∧ r.id = f.cp_base.id ∧
        r.aes_bits = f.cp_base.aes_bits ∧ r.key = f.cp_base.key := by
    intro r hr hre
    obtain ⟨f, hf, hexp⟩ := List.mem_flatMap.mp hr
    obtain ⟨src_item, dst_item, sp_item, dp_item, rfl⟩ := mem_expansion hexp
    obtain ⟨row, -, hfetched⟩ := fetched_of_mem (fetch_rows_fetched hfs) hf
    rcases hfetched with ⟨-, rfl⟩ | ⟨-, j, rfl⟩
    · exact absurd rfl hre
    · exact ⟨_, List.mem_filter.mpr ⟨hf, decide_eq_true hre⟩, KeyFits.encrypt_base row _ j, rfl,
        rfl, rfl⟩
  obtain ⟨f, hf, hffits, hfid, hfbits, hfkey⟩ := hbase p hp hpe
  obtain ⟨g, hg, hgfits, hgid, hgbits, hgkey⟩ := hbase q hq hqe
  have hinj := hffits.wire_key_inj hgfits
  rw [hfid, hgid, hfbits, hgbits, hfkey, hgkey]
  refine ⟨hrange f hf, ?_, ?_⟩
  · intro hid
    have hall := hpairs.imp (S := fun f g => f.cp_base.id = g.cp_base.id →
      wire_key f.cp_base = wire_key g.cp_base) fun hab hid => (hab.mp hid).1
    exact hinj.mp (agree_of_pairwise hall hf hg hid)
  · intro hroom hkey
    have hall := hpairs.imp_of_mem (S := fun f g => wire_key f.cp_base = wire_key g.cp_base →
      f.cp_base.id = g.cp_base.id) fun ha _ hab hkey => hab.mpr ⟨hkey,
        mem_remembered ((card_wire_keys_le fs).trans hroom)
          (List.mem_map_of_mem (f := fun f : FetchedRow => wire_key f.cp_base) ha)⟩
    exact agree_of_pairwise hall hf hg (hinj.mpr hkey)

/-- `"0123456789abcdef0123456789abcdef"` -/
def hexKey : Text :=
  [48, 49, 50, 51, 52, 53, 54, 55, 56, 57, 97, 98, 99, 100, 101, 102, 48, 49, 50, 51, 52, 53, 54,
    55, 56, 57, 97, 98, 99, 100, 101, 102]

/-- TCP to the ports 80 and 443, at layer 4. -/
def webRow : PolicyColumns where
  id := 7
  action := .L4
  proto := some .tcp
  dst_port := [56, 48, 44, 52, 52, 51]
  encryption_key := some hexKey

/-- UDP to the port 53, at layer 3 and in another mode but with the same key. -/
def dnsRow : PolicyColumns where
  id := 300
  action := .L3
  proto := some .udp
  dst_port := [53, 51]
  method := some .aes_ctr_128
  encryption_key := some hexKey
  nonce := some 8

def webAndDns : List CryptoPolicy := (load_rows digests [webRow, dnsRow]).getD []

theorem webAndDns_load : load_rows digests [webRow, dnsRow] = some webAndDns := rfl

theorem rows_with_one_key_share_a_wire_id : ∃ p ∈ webAndDns, ∃ q ∈ webAndDns,
    p.db_id = 7 ∧ q.db_id = 300 ∧ p.crypto_mode ≠ q.crypto_mode ∧ p.id = q.id :=
  have hp : webAndDns.getD 0 (bypass_base webRow) ∈ webAndDns := List.mem_cons_self
  have hq : webAndDns.getD 2 (bypass_base webRow) ∈ webAndDns :=
    List.mem_cons_of_mem _ (List.mem_cons_of_mem _ List.mem_cons_self)
  ⟨_, hp, _, hq, rfl, rfl, by decide,
    (wire_ids_of_a_profile_tell_its_keys_apart webAndDns_load hp hq (by decide) (by decide)).2.2
      (by decide) ⟨rfl, rfl⟩⟩

/-! ### What holds of every policy -/

/-- Ports that are any, or a range. -/
def PortsFit (port_from port_to : Int) : Prop :=
  (port_from = -1 ∧ port_to = -1) ∨ (0 ≤ port_from ∧ port_from ≤ port_to ∧ port_to ≤ 65535)

/-- An address that is any, with zeros, or a network with its mask. -/
structure AddressFits (any negate : Bool) (net mask : UInt32) : Prop where
  any : any = true → negate = false ∧ net = 0 ∧ mask = 0
  masked : net &&& mask = net
  contiguous : ipv4_mask_be_is_contiguous mask = true

/-- What the packet path takes for granted of a policy, its id apart. -/
structure PolicyFits (cp : CryptoPolicy) : Prop extends KeyFits cp where
  protocol : cp.protocol = 0 ∨ cp.protocol = 1 ∨ cp.protocol = 6 ∨ cp.protocol = 17 ∨
    cp.protocol = 89
  nonce_size : cp.nonce_size = 4 ∨ cp.nonce_size = 8 ∨ cp.nonce_size = 12 ∨ cp.nonce_size = 16
  bypass : cp.action = .bypass → cp.crypto_mode = .gcm ∧ cp.aes_bits = 128 ∧
    cp.nonce_size = 12 ∧ cp.key = zero_key
  src_port : PortsFit cp.src_port_from cp.src_port_to
  dst_port : PortsFit cp.dst_port_from cp.dst_port_to
  src : AddressFits cp.src_any cp.src_negate cp.src_net cp.src_mask
  dst : AddressFits cp.dst_any cp.dst_negate cp.dst_net cp.dst_mask

theorem ports_fit (item : Text) :
    PortsFit ((parse_port_range item).getD (-1, -1)).1
      ((parse_port_range item).getD (-1, -1)).2 := by
  cases h : parse_port_range item with
  | none => exact Or.inl ⟨rfl, rfl⟩
  | some r =>
    rcases parse_port_range_some h with rfl | hr
    · exact Or.inl ⟨rfl, rfl⟩
    · exact Or.inr hr

theorem prefix_to_mask_contiguous (prefix_len : Int) :
    ipv4_mask_be_is_contiguous (ipv4_prefix_to_mask_be prefix_len) = true := by
  have hall : ∀ n : Fin 32, ipv4_mask_be_is_contiguous
      (ntohl (0xFFFFFFFF <<< UInt32.ofNat n.val)) = true := by decide
  unfold ipv4_prefix_to_mask_be
  split
  · decide
  · split
    · decide
    · rename_i h0 h32
      exact hall ⟨(32 - prefix_len).toNat, by omega⟩

theorem parse_netmask_contiguous {rest : Text} {mask : UInt32}
    (h : parse_netmask rest = some mask) : ipv4_mask_be_is_contiguous mask = true := by
  cases rest with
  | nil =>
    rw [← Option.some.inj h]
    exact prefix_to_mask_contiguous 32
  | cons b suffix =>
    unfold parse_netmask at h
    dsimp only at h
    split at h
    · simp at h
    split at h
    · unfold parse_ipv4_netmask_be at h
      split at h
      · simp at h
      · split at h
        · rename_i hmask
          rw [← Option.some.inj h]
          exact hmask
        · simp at h
    split at h
    · split at h
      · simp at h
      · rw [← Option.some.inj h]
        exact prefix_to_mask_contiguous _
    · simp at h

theorem parse_ip_cidr_fits {str : Text} {c : UInt32 × UInt32} (h : parse_ip_cidr str = some c)
    (negate : Bool) : AddressFits false negate c.1 c.2 := by
  unfold parse_ip_cidr at h
  dsimp only at h
  split at h
  · simp at h
  · obtain ⟨mask, hmask, rfl⟩ := Option.map_eq_some_iff.mp h
    refine ⟨fun hany => absurd hany Bool.false_ne_true, ?_, parse_netmask_contiguous hmask⟩
    dsimp only
    rw [UInt32.and_assoc, UInt32.and_self]

theorem address_fits (item : Text) :
    AddressFits ((parse_cidr_any_or_negated item).getD anyCidr).any
      ((parse_cidr_any_or_negated item).getD anyCidr).negate
      ((parse_cidr_any_or_negated item).getD anyCidr).net
      ((parse_cidr_any_or_negated item).getD anyCidr).mask := by
  have hany : AddressFits anyCidr.any anyCidr.negate anyCidr.net anyCidr.mask :=
    ⟨fun _ => ⟨rfl, rfl, rfl⟩, by decide, by decide⟩
  cases h : parse_cidr_any_or_negated item with
  | none => exact hany
  | some c =>
    unfold parse_cidr_any_or_negated at h
    split at h
    · rw [← Option.some.inj h]
      exact hany
    · split at h
      · obtain ⟨d, hd, rfl⟩ := Option.map_eq_some_iff.mp h
        exact parse_ip_cidr_fits hd true
      · obtain ⟨d, hd, rfl⟩ := Option.map_eq_some_iff.mp h
        exact parse_ip_cidr_fits hd false

theorem row_protocol_in (row : PolicyColumns) : row_protocol row = 0 ∨ row_protocol row = 1 ∨
    row_protocol row = 6 ∨ row_protocol row = 17 ∨ row_protocol row = 89 := by
  unfold row_protocol
  rcases row.proto with _ | p
  · exact Or.inl rfl
  · cases p <;> decide

theorem row_nonce_size_in (row : PolicyColumns) : row_nonce_size row = 4 ∨
    row_nonce_size row = 8 ∨ row_nonce_size row = 12 ∨ row_nonce_size row = 16 := by
  have hin := row.nonce_in
  unfold row_nonce_size
  cases hnonce : row.nonce with
  | none => exact Or.inr (Or.inr (Or.inl rfl))
  | some n =>
    rcases hin n hnonce with rfl | rfl | rfl | rfl <;> decide

/-- Only the id of a policy is not fixed by its row. -/
theorem PolicyFits.with_id {cp : CryptoPolicy} (h : PolicyFits cp) (j : Nat) :
    PolicyFits { cp with id := j } :=
  ⟨⟨h.aes_bits, h.key⟩, h.protocol, h.nonce_size, h.bypass, h.src_port, h.dst_port, h.src, h.dst⟩

theorem load_rows_fits {rows : List PolicyColumns} {ps : List CryptoPolicy}
    (h : load_rows sha256 rows = some ps) {p : CryptoPolicy} (hp : p ∈ ps) : PolicyFits p := by
  obtain ⟨row, -, f, src_item, dst_item, sp_item, dp_item, hfetched, rfl⟩ := mem_load_rows h hp
  rcases hfetched with ⟨-, rfl⟩ | ⟨hact, j, rfl⟩
  · have hsize : (12 : Nat) = 4 ∨ 12 = 8 ∨ 12 = 12 ∨ 12 = 16 := by decide
    exact ⟨⟨Or.inl rfl, fun k _ => get_zero_key k⟩, row_protocol_in row, hsize,
      fun _ => ⟨rfl, rfl, rfl, rfl⟩, ports_fit _, ports_fit _, address_fits _, address_fits _⟩
  · have hkey : KeyFits (encrypt_base sha256 row (row_action row) j) :=
      KeyFits.encrypt_base row (row_action row) j
    exact ⟨⟨hkey.aes_bits, hkey.key⟩, row_protocol_in row, row_nonce_size_in row,
      fun hb => absurd hb hact, ports_fit _, ports_fit _, address_fits _, address_fits _⟩

end

/-! ## The database -/

/-- The rows of one profile with those of `ne_policies` by their columns. -/
structure ProfileColumns where
  name : Bytes := []
  lans : Option (List Bytes)
  wans : Option (List (Bytes × UInt32 × Int))
  policies : Option (List PolicyColumns)

theorem load_rows_le {sha256 : Text → Vector UInt8 SHA256_DIGEST_LENGTH}
    {rows : List PolicyColumns} {ps : List CryptoPolicy} (h : load_rows sha256 rows = some ps) :
    ps.length ≤ MAX_CRYPTO_POLICIES := by
  obtain ⟨fs, -, -, hle⟩ := load_rows_some h
  exact hle

def profile_rows (sha256 : Text → Vector UInt8 SHA256_DIGEST_LENGTH) (p : ProfileColumns) :
    ProfileRows where
  name := p.name
  lans := p.lans
  wans := p.wans
  policies := p.policies.bind (load_rows sha256)
  policies_le := by
    intro ps h
    obtain ⟨rows, -, hps⟩ := Option.bind_eq_some_iff.mp h
    exact load_rows_le hps

/-- What the tables hold, as the loader reads it. -/
def database (sha256 : Text → Vector UInt8 SHA256_DIGEST_LENGTH)
    (tables : Int → Option ProfileColumns) : Db := fun id => (tables id).map (profile_rows sha256)

section

variable {sha256 : Text → Vector UInt8 SHA256_DIGEST_LENGTH}
  {tables : Int → Option ProfileColumns}

/-- The policies of a profile are those of its rows. -/
theorem config_load_from_db_rows {id : Int} {cfg : AppConfig}
    (h : config_load_from_db (database sha256 tables) id = some cfg) :
    ∃ p rows, tables id = some p ∧ p.policies = some rows ∧
      load_rows sha256 rows = some cfg.policies := by
  obtain ⟨pr, _, _, _, cfg2, hrows, -, -, -, hpol, -⟩ := config_load_from_db_some h
  obtain ⟨p, hp, rfl⟩ := Option.map_eq_some_iff.mp hrows
  unfold load_profiles_and_policies at hpol
  split at hpol
  · simp at hpol
  · rename_i ps hps
    obtain ⟨rows, hr, hload⟩ := Option.bind_eq_some_iff.mp hps
    refine ⟨p, rows, hp, hr, ?_⟩
    rw [hload, ← Option.some.inj hpol]

theorem merge_all_fits {ids : List Int} {merged : AppConfig}
    (h : merge_all (database sha256 tables) {} ids = some merged) :
    ∀ cp ∈ merged.policies, PolicyFits cp := by
  refine merge_all_keeps (P := fun c => ∀ cp ∈ c.policies, PolicyFits cp) ?_
    (fun cp hcp => absurd hcp (by simp)) h
  intro id _ tmp dst dst' hload hdst hmerge
  obtain ⟨_, rows, -, -, hrows⟩ := config_load_from_db_rows hload
  obtain ⟨dst1, dst2, dst3, lm, wm, pm, map, h1, h2, h3, h4⟩ := merge_one_config_some hmerge
  rw [(append_all_profile_frame h4).2.2]
  refine append_all_keeps (P := fun c => ∀ cp ∈ c.policies, PolicyFits cp) ?_ ?_ h3
  · intro cp hcp d d' idx hd happ
    obtain ⟨wid, hle, -, rfl⟩ := append_policy_unique_some happ
    intro q hq
    rcases List.mem_append.mp hq with hq | hq
    · exact hd q hq
    · rw [List.mem_singleton.mp hq]
      exact (load_rows_fits hrows hcp).with_id wid
  · rw [(append_all_wan_frame h2).2.1, (append_all_local_frame h1).2.1]
    exact hdst

/-- Whatever the rows say, every policy of a merged configuration is one that the packet path can
use. -/
theorem policies_of_a_merged_configuration_fit {ids : List Int} {cfg : AppConfig}
    (h : build_merged_config (database sha256 tables) ids = some cfg) {cp : CryptoPolicy}
    (hcp : cp ∈ cfg.policies) : (1 ≤ cp.id ∧ cp.id ≤ 255) ∧ PolicyFits cp := by
  refine ⟨(build_merged_config_ids h).range cp hcp, ?_⟩
  obtain ⟨merged, hall, rfl⟩ := build_merged_config_some h
  rw [(merged_crypto_fields merged).2.1] at hcp
  exact merge_all_fits hall cp hcp

/-- One profile, with `lan0` and `wan0`. -/
def webProfile : ProfileColumns where
  lans := some [[108, 97, 110, 48]]
  wans := some [([119, 97, 110, 48], 0, 1)]
  policies := some [webRow, dnsRow]

def webTables (id : Int) : Option ProfileColumns := if id = 1 then some webProfile else none

def webMerged : AppConfig := (build_merged_config (database digests webTables) [1]).getD {}

theorem webMerged_build : build_merged_config (database digests webTables) [1] = some webMerged :=
  rfl

theorem policies_of_two_rows_fit : webMerged.policies.length = 3 ∧
    ∀ cp ∈ webMerged.policies, (1 ≤ cp.id ∧ cp.id ≤ 255) ∧ PolicyFits cp :=
  ⟨rfl, fun _ hcp => policies_of_a_merged_configuration_fit webMerged_build hcp⟩

end

end ne_ip.policy_load
