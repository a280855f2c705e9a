-- The settings of the database connection (db_env.c): the file with the POSTGRES_ lines, the
-- environment that it is read into, and the parameters that a connection gets.
import NeIp.CText

open c_text

namespace ne_ip.env_file

/-- The size of the buffer `line`. -/
def LINE_SIZE : Nat := 2048

/-- `"POSTGRES_"` -/
def POSTGRES : Text := [80, 79, 83, 84, 71, 82, 69, 83, 95]
def POSTGRES_SERVER : Text := POSTGRES ++ [83, 69, 82, 86, 69, 82]
def POSTGRES_HOST : Text := POSTGRES ++ [72, 79, 83, 84]
def POSTGRES_PORT : Text := POSTGRES ++ [80, 79, 82, 84]
def POSTGRES_USER : Text := POSTGRES ++ [85, 83, 69, 82]
def POSTGRES_DB : Text := POSTGRES ++ [68, 66]
def POSTGRES_PASSWORD : Text := POSTGRES ++ [80, 65, 83, 83, 87, 79, 82, 68]
def PGPASSWORD : Text := [80, 71, 80, 65, 83, 83, 87, 79, 82, 68]

/-- The environment: what `getenv` gives. -/
abbrev Env := Text → Option Text

def setenv (env : Env) (key val : Text) : Env := fun k => if k = key then some val else env k

@[simp] theorem setenv_self (env : Env) (key val : Text) : setenv env key val key = some val :=
  if_pos rfl

theorem setenv_of_ne (env : Env) {k key : Text} (h : k ≠ key) (val : Text) :
    setenv env key val k = env k := if_neg h

/-! ## A line -/

def allowed : List Text :=
  [POSTGRES_SERVER, POSTGRES_HOST, POSTGRES_PORT, POSTGRES_USER, POSTGRES_DB, POSTGRES_PASSWORD]

def ne_env_key_allowed (key : Text) : Bool := allowed.contains key

/-- The value starts and ends with the quote. -/
def quoted_by (quote : UInt8) (val : Text) : Bool :=
  decide (2 ≤ val.length) && val.head? == some quote && val.getLast? == some quote

def strip_env_quotes (val : Text) : Text :=
  if quoted_by 34 val || quoted_by 39 val then val.tail.dropLast else val

def isEol (b : UInt8) : Bool := b == 10 || b == 13

/-- The name and the value that a line sets, if it does. -/
def env_line (line : Text) : Option (Text × Text) :=
  let p := ltrim line
  if p = [] ∨ p.head? = some 10 ∨ p.head? = some 35 then none
  else if POSTGRES.isPrefixOf p = false then none
  else if 61 ∉ p then none
  else
    let key := rtrim (p.takeWhile (· != 61))
    let val := ltrim (p.dropWhile (· != 61)).tail
    let val := strip_env_quotes (val.rdropWhile isEol)
    if key ≠ [] ∧ val ≠ [] ∧ ne_env_key_allowed key = true then some (key, val) else none

/-! ## The file -/

/-- What the calls of `fgets` read one after the other, `cur` being what the buffer has so far: a
line with its newline, or as much of it as fits. -/
def lines_from (cur : Text) : Text → List Text
  | [] => if cur = [] then [] else [cur]
  | b :: s =>
    if b = 10 ∨ cur.length + 2 = LINE_SIZE then (cur ++ [b]) :: lines_from [] s
    else lines_from (cur ++ [b]) s

/-- The buffer as a string, which ends before a zero byte. -/
def c_str (buf : Text) : Text := buf.takeWhile (· != 0)

def load_line (env : Env) (line : Text) : Env :=
  match env_line (c_str line) with
  | none => env
  | some (key, val) => setenv env key val

def ne_sync_pgpassword (env : Env) : Env :=
  match env POSTGRES_PASSWORD with
  | none => env
  | some pass => if pass = [] then env else setenv env PGPASSWORD pass

def ne_load_env_file (file : Text) (env : Env) : Env :=
  ne_sync_pgpassword ((lines_from [] file).foldl load_line env)

/-! ## The connection -/

/-- A variable that is set to something. -/
def nonempty (env : Env) (key : Text) : Option Text := (env key).filter fun v => decide (v ≠ [])

def resolve_db_password (env : Env) : Option Text :=
  (nonempty env POSTGRES_PASSWORD).or (nonempty env PGPASSWORD)

/-- `struct ne_postgres_conn`: the values of the keywords `host`, `port`, `dbname`, `user` and
`password`. The one of `connect_timeout` is always 10. -/
structure NePostgresConn where
  host : Text
  port : Text
  dbname : Text
  user : Text
  password : Text
  deriving DecidableEq, Repr

/-- `ne_postgres_conn_fill`; -1 is `none`. -/
def ne_postgres_conn_fill (env : Env) : Option NePostgresConn := do
  let host ← (nonempty env POSTGRES_SERVER).or (nonempty env POSTGRES_HOST)
  let port ← nonempty env POSTGRES_PORT
  let user ← nonempty env POSTGRES_USER
  let dbname ← nonempty env POSTGRES_DB
  let password ← resolve_db_password env
  return { host, port, dbname, user, password }

/-! ## The lines of a file -/

theorem lines_from_line {l : Text} (hl : 10 ∉ l) {cur : Text}
    (hlen : cur.length + l.length + 2 ≤ LINE_SIZE) (s : Text) :
    lines_from cur (l ++ 10 :: s) = (cur ++ l ++ [10]) :: lines_from [] s := by
  induction l generalizing cur with
  | nil =>
    rw [List.nil_append, lines_from, if_pos (Or.inl rfl), List.append_nil]
  | cons b l ih =>
    rw [List.length_cons] at hlen
    have hgo : ¬(b = 10 ∨ cur.length + 2 = LINE_SIZE) := by
      rintro (rfl | hfull)
      · exact hl List.mem_cons_self
      · omega
    have hrest : 10 ∉ l := fun hm => hl (List.mem_cons_of_mem b hm)
    rw [List.cons_append, lines_from, if_neg hgo, ih hrest]
    · rw [List.append_assoc cur [b] l, List.singleton_append]
    · rw [List.length_append, List.length_singleton]
      omega

/-- A line that one call of `fgets` reads. -/
structure ShortLine (l : Text) : Prop where
  newline : 10 ∉ l
  length : l.length + 2 ≤ LINE_SIZE

def file_of (ls : List Text) : Text := ls.flatMap (· ++ [10])

/-- Lines that fit the buffer are read as they are. -/
theorem lines_from_file {ls : List Text} (h : ∀ l ∈ ls, ShortLine l) :
    lines_from [] (file_of ls) = ls.map (· ++ [10]) := by
  induction ls with
  | nil => rfl
  | cons l ls ih =>
    have hl := h l List.mem_cons_self
    have hrest := ih fun m hm => h m (List.mem_cons_of_mem l hm)
    unfold file_of at hrest ⊢
    rw [List.flatMap_cons, List.append_assoc, List.singleton_append,
      lines_from_line hl.newline (by rw [List.length_nil, Nat.zero_add]; exact hl.length), hrest,
      List.map_cons, List.nil_append]

/-! ## What a line sets -/

/-- A line that sets something sets a known name to a text that is not empty. -/
theorem env_line_some {line key val : Text} (h : env_line line = some (key, val)) :
    key ∈ allowed ∧ val ≠ [] := by
  unfold env_line at h
  dsimp only at h
  split at h
  · simp at h
  split at h
  · simp at h
  split at h
  · simp at h
  split at h
  · rename_i hset
    obtain ⟨rfl, rfl⟩ := Prod.mk.inj (Option.some.inj h)
    exact ⟨List.contains_iff_mem.mp hset.2.2, hset.2.1⟩
  · simp at h

/-- A value as it can stand in a line. -/
structure Quotable (v : Text) : Prop where
  nonempty : v ≠ []
  newline : 10 ∉ v
  zero : 0 ∉ v

/-- The line that sets a name to the value in quotes. -/
def quoted_line (quote : UInt8) (key val : Text) : Text := key ++ 61 :: quote :: (val ++ [quote])

theorem allowed_head {key : Text} (h : key ∈ allowed) : ∃ rest, key = POSTGRES ++ rest ∧
    61 ∉ key ∧ 0 ∉ key ∧ rtrim key = key := by
  simp only [allowed, List.mem_cons, List.not_mem_nil, or_false] at h
  rcases h with rfl | rfl | rfl | rfl | rfl | rfl <;>
    exact ⟨_, rfl, by decide, by decide, by decide⟩

theorem strip_quoted {quote : UInt8} (hq : quote = 34 ∨ quote = 39) (val : Text) :
    strip_env_quotes (quote :: (val ++ [quote])) = val := by
  have hquoted : quoted_by quote (quote :: (val ++ [quote])) = true := by
    have hlast : (quote :: (val ++ [quote])).getLast? = some quote := by
      rw [← List.cons_append, List.getLast?_concat]
    unfold quoted_by
    rw [hlast]
    simp
  unfold strip_env_quotes
  rw [if_pos, List.tail_cons, List.dropLast_concat]
  rcases hq with rfl | rfl
  · rw [hquoted, Bool.true_or]
  · rw [hquoted, Bool.or_true]

/-- A quoted value comes back, whatever blanks and quotes it has. -/
theorem env_line_quoted {quote : UInt8} (hq : quote = 34 ∨ quote = 39) {key val : Text}
    (hkey : key ∈ allowed) (hval : Quotable val) :
    env_line (c_str (quoted_line quote key val ++ [10])) = some (key, val) := by
  obtain ⟨rest, hpre, heq, hzero, htrim⟩ := allowed_head hkey
  have hquote : isEol quote = false ∧ isBlank quote = false ∧ quote ≠ 0 := by
    rcases hq with rfl | rfl <;> decide
  -- no byte of the line is zero, and it starts with a letter
  have hstr : c_str (quoted_line quote key val ++ [10]) =
      key ++ 61 :: (quote :: (val ++ [quote]) ++ [10]) := by
    unfold c_str quoted_line
    rw [List.takeWhile_eq_self_iff.mpr]
    · simp
    · intro b hb
      simp only [List.mem_append, List.mem_cons, List.not_mem_nil, or_false] at hb
      rw [bne_iff_ne]
      rintro rfl
      rcases hb with (hb | hb | hb | hb | hb) | hb
      · exact hzero hb
      · exact absurd hb (by decide)
      · exact hquote.2.2 hb.symm
      · exact hval.zero hb
      · exact hquote.2.2 hb.symm
      · exact absurd hb (by decide)
  have hltrim : ∀ s, ltrim (key ++ s) = key ++ s := by
    intro s
    rw [hpre]
    exact ltrim_cons (by decide) _
  have htake : ∀ s, (key ++ 61 :: s).takeWhile (· != 61) = key ∧
      (key ++ 61 :: s).dropWhile (· != 61) = 61 :: s := by
    intro s
    have hne : ∀ b ∈ key, (b != 61) = true := by
      intro b hb
      rw [bne_iff_ne]
      rintro rfl
      exact heq hb
    refine ⟨?_, ?_⟩
    · rw [List.takeWhile_append_of_pos hne, List.takeWhile_cons_of_neg (by decide), List.append_nil]
    · rw [List.dropWhile_append_of_pos hne, List.dropWhile_cons_of_neg (by decide)]
  have hstripped : strip_env_quotes ((ltrim (quote :: (val ++ [quote]) ++ [10])).rdropWhile isEol) =
      val := by
    rw [List.cons_append, ltrim_cons hquote.2.1, ← List.cons_append,
      List.rdropWhile_concat_pos _ _ _ (by decide), ← List.cons_append,
      List.rdropWhile_concat_neg _ _ _ (by rw [hquote.1]; decide), List.cons_append,
      strip_quoted hq]
  unfold env_line
  rw [hstr]
  dsimp only
  rw [hltrim, (htake _).1, (htake _).2, List.tail_cons, htrim, hstripped, if_neg, if_neg, if_neg,
    if_pos]
  · refine ⟨?_, hval.nonempty, List.contains_iff_mem.mpr hkey⟩
    rw [hpre]
    exact List.append_ne_nil_of_left_ne_nil (by decide) _
  · simp
  · rw [hpre, List.append_assoc, Bool.not_eq_false, List.isPrefixOf_iff_prefix]
    exact List.prefix_append _ _
  · rw [hpre]
    simp [POSTGRES]

/-! ## What a file sets -/

theorem load_line_of_ne {env : Env} {line k : Text}
    (h : ∀ v, env_line (c_str line) ≠ some (k, v)) : load_line env line k = env k := by
  unfold load_line
  cases hset : env_line (c_str line) with
  | none => rfl
  | some kv =>
    obtain ⟨key, val⟩ := kv
    refine setenv_of_ne env ?_ val
    rintro rfl
    exact h val hset

/-- A name that no line sets keeps its value. -/
theorem load_lines_of_ne {lines : List Text} {k : Text}
    (h : ∀ l ∈ lines, ∀ v, env_line (c_str l) ≠ some (k, v)) (env : Env) :
    lines.foldl load_line env k = env k := by
  induction lines generalizing env with
  | nil => rfl
  | cons l lines ih =>
    rw [List.foldl_cons, ih fun m hm => h m (List.mem_cons_of_mem l hm),
      load_line_of_ne (h l List.mem_cons_self)]

/-- The last line that sets a name has its say. -/
theorem load_lines_last {pre post : List Text} {line k v : Text}
    (hset : env_line (c_str line) = some (k, v))
    (hpost : ∀ l ∈ post, ∀ w, env_line (c_str l) ≠ some (k, w)) (env : Env) :
    (pre ++ line :: post).foldl load_line env k = some v := by
  rw [List.foldl_append, List.foldl_cons, load_lines_of_ne hpost]
  unfold load_line
  rw [hset]
  exact setenv_self _ _ _

theorem ne_sync_pgpassword_of_ne {env : Env} {k : Text} (h : k ≠ PGPASSWORD) :
    ne_sync_pgpassword env k = env k := by
  unfold ne_sync_pgpassword
  cases env POSTGRES_PASSWORD with
  | none => rfl
  | some pass =>
    dsimp only
    split
    · rfl
    · exact setenv_of_ne env h pass

/-- Whatever the file holds, only the known names and `PGPASSWORD` can change. -/
theorem ne_load_env_file_frame (file : Text) (env : Env) {k : Text} (hk : k ∉ allowed)
    (hpg : k ≠ PGPASSWORD) : ne_load_env_file file env k = env k := by
  unfold ne_load_env_file
  rw [ne_sync_pgpassword_of_ne hpg]
  refine load_lines_of_ne (fun l _ v hset => ?_) env
  exact hk (env_line_some hset).1

/-! ## The connection of a file -/

/-- The last line of the file that sets the name sets it to the value, in quotes. -/
structure LastSets (ls : List Text) (key val : Text) : Prop where
  quotable : Quotable val
  last : ∃ pre quote post, ls = pre ++ quoted_line quote key val :: post ∧
    (quote = 34 ∨ quote = 39) ∧ ∀ l ∈ post, (env_line (c_str (l ++ [10]))).map (·.1) ≠ some key

/-- The file says what the connection is, among whatever other lines and in whatever order. -/
structure Says (ls : List Text) (conn : NePostgresConn) : Prop where
  short : ∀ l ∈ ls, ShortLine l
  host : LastSets ls POSTGRES_SERVER conn.host
  port : LastSets ls POSTGRES_PORT conn.port
  dbname : LastSets ls POSTGRES_DB conn.dbname
  user : LastSets ls POSTGRES_USER conn.user
  password : LastSets ls POSTGRES_PASSWORD conn.password

theorem load_of_lastSets {ls : List Text} (hls : ∀ l ∈ ls, ShortLine l) {key val : Text}
    (hkey : key ∈ allowed) (h : LastSets ls key val) (env : Env) :
    (lines_from [] (file_of ls)).foldl load_line env key = some val := by
  obtain ⟨pre, quote, post, hsplit, hquote, hpost⟩ := h.last
  rw [lines_from_file hls, hsplit, List.map_append, List.map_cons]
  refine load_lines_last (env_line_quoted hquote hkey h.quotable) (fun m hm v hset => ?_) env
  obtain ⟨l, hl, rfl⟩ := List.mem_map.mp hm
  exact hpost l hl (by rw [hset]; rfl)

theorem nonempty_of_some {env : Env} {key val : Text} (h : env key = some val) (hne : val ≠ []) :
    nonempty env key = some val := by
  unfold nonempty
  rw [h, Option.filter_some, if_pos (decide_eq_true hne)]

/-- A file gives the connection that it says, whatever the environment was: each value comes back
with its blanks and quotes, from the last line of its name. `PGPASSWORD` follows the password, and
no other name of the environment is touched. -/
theorem a_file_gives_the_connection_of_its_last_lines {ls : List Text} {conn : NePostgresConn}
    (h : Says ls conn) (env : Env) :
    ne_postgres_conn_fill (ne_load_env_file (file_of ls) env) = some conn ∧
      ne_load_env_file (file_of ls) env PGPASSWORD = some conn.password ∧
      ∀ k, k ∉ allowed → k ≠ PGPASSWORD → ne_load_env_file (file_of ls) env k = env k := by
  have hloaded : ∀ key val, key ∈ allowed → key ≠ PGPASSWORD → LastSets ls key val →
      nonempty (ne_load_env_file (file_of ls) env) key = some val := by
    intro key val hkey hpg hlast
    refine nonempty_of_some ?_ hlast.quotable.nonempty
    unfold ne_load_env_file
    rw [ne_sync_pgpassword_of_ne hpg]
    exact load_of_lastSets h.short hkey hlast env
  have hpass := load_of_lastSets h.short (show POSTGRES_PASSWORD ∈ allowed by decide) h.password env
  refine ⟨?_, ?_, fun k hk hpg => ne_load_env_file_frame _ _ hk hpg⟩
  · have hhost := hloaded POSTGRES_SERVER conn.host (by decide) (by decide) h.host
    have hport := hloaded POSTGRES_PORT conn.port (by decide) (by decide) h.port
    have huser := hloaded POSTGRES_USER conn.user (by decide) (by decide) h.user
    have hdb := hloaded POSTGRES_DB conn.dbname (by decide) (by decide) h.dbname
    have hpassword := hloaded POSTGRES_PASSWORD conn.password (by decide) (by decide) h.password
    unfold ne_postgres_conn_fill resolve_db_password
    rw [hhost, hport, huser, hdb, hpassword]
    rfl
  · unfold ne_load_env_file ne_sync_pgpassword
    rw [hpass]
    dsimp only
    rw [if_neg h.password.quotable.nonempty]
    exact setenv_self _ _ _

/-- The host comes first and last, the password has a blank and a quote. -/
def exampleFile : List Text :=
  [quoted_line 34 POSTGRES_SERVER [111, 108, 100], [35, 32, 100, 98],
    quoted_line 39 POSTGRES_PORT [53, 52, 51, 50], quoted_line 34 POSTGRES_PASSWORD [32, 34, 112],
    quoted_line 34 POSTGRES_USER [110, 101], quoted_line 34 POSTGRES_DB [115, 101, 112],
    quoted_line 34 POSTGRES_SERVER [100, 98]]

def exampleConn : NePostgresConn where
  host := [100, 98]
  port := [53, 52, 51, 50]
  dbname := [115, 101, 112]
  user := [110, 101]
  password := [32, 34, 112]

theorem the_example_file_gives_its_connection :
    ne_postgres_conn_fill (ne_load_env_file (file_of exampleFile) fun _ => none) =
      some exampleConn := by
  have hlast : ∀ (pre post : List Text) (quote : UInt8) (key val : Text),
      exampleFile = pre ++ quoted_line quote key val :: post → Quotable val →
      (quote = 34 ∨ quote = 39) →
      (∀ l ∈ post, (env_line (c_str (l ++ [10]))).map (·.1) ≠ some key) →
      LastSets exampleFile key val := by
    intro pre post quote key val hsplit hval hquote hpost
    exact ⟨hval, pre, quote, post, hsplit, hquote, hpost⟩
  have hfile : Says exampleFile exampleConn := by
    refine ⟨fun l hl => ?_, ?_, ?_, ?_, ?_, ?_⟩
    · have hshort : ∀ l ∈ exampleFile, 10 ∉ l ∧ l.length + 2 ≤ LINE_SIZE := by decide
      exact ⟨(hshort l hl).1, (hshort l hl).2⟩
    · exact hlast (exampleFile.take 6) [] 34 _ _ rfl ⟨by decide, by decide, by decide⟩
        (Or.inl rfl) (by decide)
    · exact hlast (exampleFile.take 2) (exampleFile.drop 3) 39 _ _ rfl
        ⟨by decide, by decide, by decide⟩ (Or.inr rfl) (by decide)
    · exact hlast (exampleFile.take 5) (exampleFile.drop 6) 34 _ _ rfl
        ⟨by decide, by decide, by decide⟩ (Or.inl rfl) (by decide)
    · exact hlast (exampleFile.take 4) (exampleFile.drop 5) 34 _ _ rfl
        ⟨by decide, by decide, by decide⟩ (Or.inl rfl) (by decide)
    · exact hlast (exampleFile.take 3) (exampleFile.drop 4) 34 _ _ rfl
        ⟨by decide, by decide, by decide⟩ (Or.inl rfl) (by decide)
  exact (a_file_gives_the_connection_of_its_last_lines hfile fun _ => none).1

end ne_ip.env_file
