import ArrowheadCore.ServiceRegistry.Register

/-!
# What a registration stores

The abstract layer of registration: `ensure` finds the first row with a given value in one column or
inserts a row, and `store` is what a registration does to the tables in these terms. `saveEntry_ok` connects
it with the statements that the source sends: when none of them fails and the spliced texts are plain, the
database is what `store` says.
-/

namespace ArrowheadCore.ServiceRegistry
open Lib Lib.Sql Json Db

/-! ## Names of tables and columns -/

lemma isName_definition : IsName (bytes "service_definition") "service_definition" := by decide

lemma isName_interface : IsName (bytes "service_interface") "service_interface" := by decide

lemma isName_system : IsName (bytes "system_") "system_" := by decide

lemma isName_registry : IsName (bytes "service_registry") "service_registry" := by decide

lemma isName_connection : IsName (bytes "service_registry_interface_connection") "service_registry_interface_connection" := by
  decide

lemma isName_id : IsName (bytes "id") "id" := by decide

lemma isName_entryId : IsName (bytes "service_registry_id") "service_registry_id" := by decide

lemma isName_definitionId : IsName (bytes "service_id") "service_id" := by decide

/-! ## The statements of `DbWrapper` -/

lemma parse_dbContentExists {sSelect sFrom sWhere sWhat : List UInt8} {a t c : String} (ha : IsName sSelect a)
    (ht : IsName sFrom t) (hc : IsName sWhere c) (hw : Plain sWhat) :
    parse (bytes "SELECT " ++ (sSelect ++ (bytes " FROM " ++ (sFrom ++ (bytes " WHERE " ++
      (sWhere ++ (bytes " = '" ++ (sWhat ++ bytes "';")))))))) =
    some (.select ⟨some [.col none a], ⟨t, t⟩, [], some (.eq (.col none c) (.lit (.text sWhat))), []⟩) := by
  have l1 : Lexes .idle (bytes "SELECT ") [.kw .select] .idle := lexes_bytes (by decide)
  have l2 : Lexes .idle (bytes " FROM ") [.kw .from] .idle := lexes_bytes (by decide)
  have l3 : Lexes .idle (bytes " WHERE ") [.kw .where] .idle := lexes_bytes (by decide)
  have l4 : Lexes .idle (bytes " = '") [.sym .eq] (.text []) := lexes_bytes (by decide)
  have l5 : Lexes .idle (bytes ";") [.sym .semicolon] .idle := lexes_bytes (by decide)
  have value := l4.append (l5.quoted (delimits_cons _ (by decide)) (by decide) hw)
  have cond := l3.append (value.name (delimits_cons _ (by decide)) hc)
  have source := l2.append (cond.name (delimits_cons _ (by decide)) ht)
  have all := l1.append (source.name (delimits_cons _ (by decide)) ha)
  have e : bytes "';" = QUOTE :: bytes ";" := by decide
  rw [parse, e, lex_of_lexes all rfl]
  rfl

/-- The names of the columns of an `INSERT`, as far as the parenthesis behind them. -/
def IsColumns (text : List UInt8) (columns : List String) : Prop :=
  columns ≠ [] ∧ Lexes .idle (text ++ bytes ") ") (commas (fun c => [.ident c]) columns ++ [Token.sym .rparen]) .idle

/-- The values of an `INSERT` with what stands around them. -/
def IsValues (text : List UInt8) (values : List Value) : Prop :=
  values ≠ [] ∧ .null ∉ values ∧
    Lexes .idle text (commas Value.tokens values ++ [Token.sym .rparen, .sym .semicolon]) .idle

lemma parse_dbSaveContent {sTableName sColumn valuesText : List UInt8} {t : String} {columns : List String}
    {values : List Value} (ht : IsName sTableName t) (hc : IsColumns sColumn columns)
    (hv : IsValues valuesText values) :
    parse (bytes "INSERT INTO " ++ (sTableName ++ (bytes " (" ++ (sColumn ++ (bytes ") " ++
      (bytes "VALUES (" ++ valuesText)))))) = some (.insert ⟨t, columns, values⟩) := by
  have l1 : Lexes .idle (bytes "INSERT INTO ") [.kw .insert, .kw .into] .idle := lexes_bytes (by decide)
  have l2 : Lexes .idle (bytes " (") [.sym .lparen] .idle := lexes_bytes (by decide)
  have l3 : Lexes .idle (bytes "VALUES (") [.kw .values, .sym .lparen] .idle := lexes_bytes (by decide)
  have rest := hc.2.append (l3.append hv.2.2)
  have all := l1.append ((l2.append rest).name (delimits_cons _ (by decide)) ht)
  have hl := lex_of_lexes all rfl
  have hp : parseTokens (Insert.tokens ⟨t, columns, values⟩ ++ [Token.sym .semicolon]) = _ :=
    parseTokens_insert hc.1 hv.1 hv.2.1 (.inr rfl)
  rw [List.append_assoc] at hl
  rw [parse, hl, Option.bind_eq_bind, Option.bind_some, ← hp]
  simp [Insert.tokens]

/-! ## Find or insert -/

/-- The first row with this value in a column. -/
def findRow (db : Database) (t c : String) (v : Value) : Option Row :=
  (db t).rows.find? fun r => (r.get c).same v

/-- The key of the first row with this value in a column, else of a new row. -/
def ensure (stamp : String → Nat → List UInt8) (q : Insert) (c : String) (v : Value) (db : Database) :
    Nat × Database :=
  match findRow db q.table c v with
  | some r => (r.id, db)
  | none =>
    let id := (db q.table).lastId + 1
    (id, Function.update db q.table ((db q.table).append (q.cells schema stamp id)))

/-- The row can be inserted, and it is found by the check for `v` in the column `c`. -/
structure Storable (q : Insert) (c : String) (v : Value) : Prop where
  fits : q.fits schema
  noKey : "id" ∉ q.columns
  found : ∀ row : Row, q.columns.map row.get = q.values → (row.get c).same v

section
variable {link : Link} {s s' : Session}

/-- A table with some column has the column `id`. -/
lemma hasColumn_id {t c : String} (hc : hasColumn schema t c) : (schema t).isSome ∧ hasColumn schema t "id" := by
  unfold hasColumn at hc ⊢
  cases e : schema t with
  | none => simp [e] at hc
  | some cols => simp

lemma select_bound {t c : String} (hc : hasColumn schema t c) (v : Value) :
    Select.bound schema ⟨some [.col none "id"], ⟨t, t⟩, [], some (.eq (.col none c) (.lit v)), []⟩ := by
  simp [Select.bound, Select.sources, Expr.bound, Cond.bound, hasColumn_id hc, hc]

/-- The answer of the existence test. -/
lemma select_id_run {t c : String} (hc : hasColumn schema t c) (v : Value) (db : Database) :
    Select.run schema db ⟨some [.col none "id"], ⟨t, t⟩, [], some (.eq (.col none c) (.lit v)), []⟩ =
      some (((db t).rows.filter fun r => (r.get c).same v).map fun r => [.int r.id]) := by
  have hid := (hasColumn_id hc).2
  rw [Select.run_table (select_bound hc v)]
  simp only [Cond.eval, Select.project, List.map_cons, List.map_nil, Expr.eval_column hc, Expr.eval_column hid]
  rfl

lemma dbContentExists_ok {sFrom sWhere sWhat r : List UInt8} {t c : String} (ht : IsName sFrom t)
    (hc : IsName sWhere c) (hw : Plain sWhat) (hcol : hasColumn schema t c)
    (run : dbContentExists link (bytes "id") sFrom sWhere sWhat s = (.ok r, s')) :
    s'.db = s.db ∧ r = ((findRow s.db t c (.text sWhat)).map fun row => to_string row.id).getD [] := by
  obtain ⟨r', s1, h1, h2⟩ := bind_eq_ok run
  cases h2
  have hid := isName_id
  obtain ⟨hdb, rows, hr, rfl⟩ := fetchString_ok link (parse_dbContentExists hid ht hc hw) h1
  refine ⟨hdb, ?_⟩
  rw [select_id_run hcol] at hr
  cases hr
  rw [findRow, ← List.head?_filter, List.head?_map]
  cases ((s.db t).rows.filter fun r => (r.get c).same (.text sWhat)).head? <;> rfl

lemma dbContentExists_gives {sFrom sWhere sWhat : List UInt8} {t c : String} (hlink : ∀ n, link.fault n = .none)
    (ht : IsName sFrom t) (hc : IsName sWhere c) (hw : Plain sWhat) (hcol : hasColumn schema t c) (db : Database) :
    Gives db (dbContentExists link (bytes "id") sFrom sWhere sWhat)
      (((((db t).rows.filter fun r => (r.get c).same (.text sWhat)).map fun r => [Value.int r.id]).head?.bind
        (·.head?.bind valueText)).getD []) := by
  have hid := isName_id
  unfold dbContentExists fetchString
  refine Gives.bind (Gives.bind ?_ (Gives.pure db _)) (Gives.pure db _)
  exact select_gives link hlink (parse_dbContentExists hid ht hc hw) (select_id_run hcol _ _)

/-- The arguments of `checkAndInsert` say: find the value of the column `c`, else insert `q`. -/
structure ChecksAndInserts (sTable sCheckColumn sCheckValue sInsertColumn sInsertValue : List UInt8) (bMore : Bool)
    (q : Insert) (c : String) : Prop where
  table : IsName sTable q.table
  column : IsName sCheckColumn c
  value : Plain sCheckValue
  hasColumn : hasColumn schema q.table c
  columns : IsColumns sInsertColumn q.columns
  values : ∃ text, IsValues text q.values ∧
    (if bMore then bytes "VALUES (" ++ (sInsertValue ++ bytes ");")
      else bytes "VALUES ('" ++ (sInsertValue ++ bytes "');")) = bytes "VALUES (" ++ text
  storable : Storable q c (.text sCheckValue)

variable {sTable sCheckColumn sCheckValue sInsertColumn sInsertValue r : List UInt8} {bMore : Bool} {q : Insert}
  {c : String}

lemma ChecksAndInserts.parse
    (h : ChecksAndInserts sTable sCheckColumn sCheckValue sInsertColumn sInsertValue bMore q c) :
    parse (bytes "INSERT INTO " ++ (sTable ++ (bytes " (" ++ (sInsertColumn ++ (bytes ") " ++
      if bMore then bytes "VALUES (" ++ (sInsertValue ++ bytes ");")
      else bytes "VALUES ('" ++ (sInsertValue ++ bytes "');")))))) = some (.insert q) := by
  obtain ⟨text, hv, e⟩ := h.values
  rw [e]
  exact parse_dbSaveContent h.table h.columns hv

/-- Check and insert finds or inserts. -/
lemma ChecksAndInserts.ok
    (h : ChecksAndInserts sTable sCheckColumn sCheckValue sInsertColumn sInsertValue bMore q c)
    (run : checkAndInsert link (bytes "id") sTable sCheckColumn sCheckValue sInsertColumn sInsertValue bMore s =
      (.ok r, s')) :
    ∃ id : Nat, r = to_string id ∧ (id, s'.db) = ensure link.stamp q c (.text sCheckValue) s.db := by
  obtain ⟨r1, s1, h1, h2⟩ := bind_eq_ok run
  obtain ⟨hdb1, rfl⟩ := dbContentExists_ok h.table h.column h.value h.hasColumn h1
  unfold ensure
  cases hf : findRow s.db q.table c (.text sCheckValue) with
  | some row =>
    simp only [hf, Option.map_some, Option.getD_some, ne_eq, to_string_ne_nil, not_false_eq_true, if_true] at h2
    cases h2
    exact ⟨row.id, rfl, by rw [hdb1]⟩
  | none =>
    simp only [hf, Option.map_none, Option.getD_none, ne_eq, not_true_eq_false, if_false] at h2
    obtain ⟨u, s2, h3, h4⟩ := bind_eq_ok h2
    obtain ⟨id, hrun⟩ := query_ok link h.parse h3
    obtain ⟨row, hrow, hrows, hvalues, -⟩ := Insert.run_some hrun h.storable.noKey
    have heq := Insert.run_eq hrun
    obtain ⟨hdb3, rfl⟩ := dbContentExists_ok h.table h.column h.value h.hasColumn h4
    rw [hdb1] at heq hrows
    have found : findRow s2.db q.table c (.text sCheckValue) = some row := by
      unfold findRow at hf ⊢
      rw [hrows, List.find?_append, hf]
      simp [h.storable.found row hvalues]
    refine ⟨id, by rw [found, ← hrow]; rfl, ?_⟩
    rw [hdb3]
    exact heq

/-- Without failures check and insert gives a key. -/
lemma ChecksAndInserts.returns (hlink : ∀ n, link.fault n = .none)
    (h : ChecksAndInserts sTable sCheckColumn sCheckValue sInsertColumn sInsertValue bMore q c) :
    Returns (fun r => ∃ id : Nat, r = to_string id)
      (checkAndInsert link (bytes "id") sTable sCheckColumn sCheckValue sInsertColumn sInsertValue bMore) := by
  have exists_ : Returns (fun _ => True) (dbContentExists link (bytes "id") sTable sCheckColumn sCheckValue) :=
    Gives.returns (dbContentExists_gives hlink h.table h.column h.value h.hasColumn)
  have all : Returns (fun _ => True)
      (checkAndInsert link (bytes "id") sTable sCheckColumn sCheckValue sInsertColumn sInsertValue bMore) := by
    refine exists_.bind fun r1 _ => ?_
    split
    · exact fun s => ⟨_, s, rfl, trivial⟩
    · exact (query_returns link hlink h.parse h.storable.fits).bind fun _ _ => exists_
  intro s
  obtain ⟨r, s', run, -⟩ := all s
  obtain ⟨id, hid, -⟩ := h.ok run
  exact ⟨r, s', run, id, hid⟩

end

/-! ## What is stored -/

def definitionInsert (definition : List UInt8) : Insert :=
  ⟨"service_definition", ["service_definition"], [.text definition]⟩

def systemInsert (name address : List UInt8) (port : Int) (authInfo : List UInt8) : Insert :=
  if authInfo = [] then ⟨"system_", ["system_name", "address", "port"], [.text name, .text address, .int port]⟩
  else ⟨"system_", ["system_name", "address", "port", "authentication_info"],
    [.text name, .text address, .int port, .text authInfo]⟩

def interfaceInsert (name : List UInt8) : Insert := ⟨"service_interface", ["interface_name"], [.text name]⟩

def entryInsert (e : ServiceRegistryEntry) (definition provider : Nat) : Insert :=
  ⟨"service_registry",
    ["service_id", "system_id", "service_uri", "end_of_validity", "secure", "metadata", "version"],
    [.int definition, .int provider, .text e.sServiceUri, .text e.sEndOfValidity, .text e.sSecure,
      .text e.sMetaData, .int e.version]⟩

def connectionInsert (entry interface : Nat) : Insert :=
  ⟨"service_registry_interface_connection", ["service_registry_id", "interface_id"],
    [.int entry, .int interface]⟩

lemma storable_text {t c : String} (hfits : Insert.fits schema ⟨t, [c], [.text []]⟩) (hid : "id" ≠ c)
    (v : List UInt8) : Storable ⟨t, [c], [.text v]⟩ c (.text v) where
  fits := hfits
  noKey := by simpa using hid
  found := by
    intro row h
    rw [(List.cons.inj h).1]
    simp [Value.same]

lemma storable_system (name address : List UInt8) (port : Int) (authInfo : List UInt8) :
    Storable (systemInsert name address port authInfo) "system_name" (.text name) := by
  have found : ∀ {row : Row} {columns : List String} {values : List Value},
      List.map row.get ("system_name" :: columns) = .text name :: values →
        (row.get "system_name").same (.text name) := by
    intro row columns values h
    rw [(List.cons.inj h).1]
    simp [Value.same]
  unfold systemInsert
  split
  · exact ⟨rfl, by simp, fun _ => found⟩
  · exact ⟨rfl, by simp, fun _ => found⟩

lemma storable_entry (e : ServiceRegistryEntry) (definition provider : Nat) :
    Storable (entryInsert e definition provider) "service_uri" (.text e.sServiceUri) where
  fits := rfl
  noKey := by simp [entryInsert]
  found := by
    intro row h
    simp only [entryInsert, List.map_cons, List.cons.injEq] at h
    rw [h.2.2.1]
    simp [Value.same]

section
variable (stamp : String → Nat → List UInt8)

def storeDefinition (definition : List UInt8) (db : Database) : Nat × Database :=
  ensure stamp (definitionInsert definition) "service_definition" (.text definition) db

def storeSystem (name address : List UInt8) (port : Int) (authInfo : List UInt8) (db : Database) : Nat × Database :=
  ensure stamp (systemInsert name address port authInfo) "system_name" (.text name) db

def storeInterface (name : List UInt8) (db : Database) : Nat × Database :=
  ensure stamp (interfaceInsert name) "interface_name" (.text name) db

def storeInterfaces : List (List UInt8) → Database → List Nat × Database
  | [], db => ([], db)
  | name :: names, db =>
    let i := storeInterface stamp name db
    let is := storeInterfaces names i.2
    (i.1 :: is.1, is.2)

def storeRow (e : ServiceRegistryEntry) (definition provider : Nat) (db : Database) : Nat × Database :=
  ensure stamp (entryInsert e definition provider) "service_uri" (.text e.sServiceUri) db

/-- The check looks at the entry only. -/
def storeConnection (entry interface : Nat) (db : Database) : Nat × Database :=
  ensure stamp (connectionInsert entry interface) "service_registry_id" (.text (to_string entry)) db

def storeConnections (entry : Nat) : List Nat → Database → Database
  | [], db => db
  | i :: is, db => storeConnections entry is (storeConnection stamp entry i db).2

/-- The keys of what a registration has found or inserted. -/
structure Keys where
  definition : Nat
  provider : Nat
  interfaces : List Nat
  entry : Nat
deriving DecidableEq, Repr

/-- A registration, in terms of rows. -/
def store (e : ServiceRegistryEntry) (db : Database) : Keys × Database :=
  let d := storeDefinition stamp e.sServiceDefinition db
  let p := storeSystem stamp e.sProviderSystem_SystemName e.sProviderSystem_Address e.port
    e.sProviderSystem_AuthInfo d.2
  let is := storeInterfaces stamp e.vInterfaces p.2
  let r := storeRow stamp e d.1 p.1 is.2
  (⟨d.1, p.1, is.1, r.1⟩, storeConnections stamp r.1 is.1 r.2)

end

/-- The texts that a registration splices into its statements stand for themselves. -/
structure ServiceRegistryEntry.Plain (e : ServiceRegistryEntry) : Prop where
  definition : Sql.Plain e.sServiceDefinition
  systemName : Sql.Plain e.sProviderSystem_SystemName
  address : Sql.Plain e.sProviderSystem_Address
  authInfo : Sql.Plain e.sProviderSystem_AuthInfo
  uri : Sql.Plain e.sServiceUri
  validity : Sql.Plain e.sEndOfValidity
  secure : Sql.Plain e.sSecure
  metadata : Sql.Plain e.sMetaData
  interfaces : ∀ i ∈ e.vInterfaces, Sql.Plain i

lemma lexes_end : Lexes .idle (bytes ");") [.sym .rparen, .sym .semicolon] .idle := lexes_bytes (by decide)

lemma lexes_comma : Lexes .idle (bytes ", ") [.sym .comma] .idle := lexes_bytes (by decide)

section
variable {m : Mode} {v rest : List UInt8} {ts : List Token}

/-- A plain text between quotes, in front of what begins with a comma or a parenthesis. -/
lemma lexes_text (h : Lexes .idle rest ts m) (hs : Delimits rest) (hq : rest.head? ≠ some QUOTE)
    (hv : Sql.Plain v) : Lexes .idle (bytes "'" ++ (v ++ (bytes "'" ++ rest))) (.text v :: ts) m := by
  have l : Lexes .idle (bytes "'") [] (.text []) := lexes_bytes (by decide)
  exact l.append (h.quoted hs hq hv)

/-- A value in front of the next one. -/
lemma lexes_text_comma (h : Lexes .idle rest ts m) (hv : Sql.Plain v) :
    Lexes .idle (bytes "'" ++ (v ++ (bytes "', " ++ rest))) (.text v :: .sym .comma :: ts) m := by
  have ne : some ','.toUInt8 ≠ some QUOTE := by decide
  exact lexes_text (lexes_comma.append h) (delimits_cons _ (by decide)) ne hv

lemma lexes_int_comma (h : Lexes .idle rest ts m) (z : Int) :
    Lexes .idle (to_string z ++ (bytes ", " ++ rest)) (intTokens z ++ Token.sym .comma :: ts) m :=
  (lexes_comma.append h).to_string (delimits_cons _ (by decide)) z

end

lemma lexes_last_int (z : Int) :
    Lexes .idle (to_string z ++ bytes ");") (intTokens z ++ [Token.sym .rparen, .sym .semicolon]) .idle :=
  lexes_end.to_string (delimits_cons _ (by decide)) z

lemma lexes_last_text {v : List UInt8} (hv : Sql.Plain v) :
    Lexes .idle (bytes "'" ++ (v ++ bytes "');")) [.text v, .sym .rparen, .sym .semicolon] .idle :=
  lexes_text lexes_end (delimits_cons _ (by decide)) (by decide) hv

lemma isValues_text {v : List UInt8} (hv : Sql.Plain v) : IsValues (bytes "'" ++ (v ++ bytes "');")) [.text v] :=
  ⟨by simp, by simp, lexes_last_text hv⟩

lemma isValues_connection (entry interface : Nat) :
    IsValues ((to_string entry ++ (bytes ", " ++ to_string interface)) ++ bytes ");")
      (connectionInsert entry interface).values := by
  have l := lexes_int_comma (lexes_last_int interface) entry
  refine ⟨by simp [connectionInsert], by simp [connectionInsert], ?_⟩
  simpa [connectionInsert, commas, Value.tokens] using l

lemma isValues_system {name address authInfo : List UInt8} (port : Int) (hn : Sql.Plain name)
    (ha : Sql.Plain address) (hi : Sql.Plain authInfo) :
    IsValues ((systemValues name address (to_string port) authInfo).2 ++ bytes ");")
      (systemInsert name address port authInfo).values := by
  have e : bytes "', '" = bytes "', " ++ bytes "'" := by decide
  have e' : bytes ", '" = bytes ", " ++ bytes "'" := by decide
  have e'' : bytes "');" = bytes "'" ++ bytes ");" := by decide
  by_cases h : authInfo = []
  · have l := lexes_text_comma (lexes_text_comma (lexes_last_int port) ha) hn
    refine ⟨by simp [systemInsert, h], by simp [systemInsert, h], ?_⟩
    simpa [systemValues, systemInsert, h, commas, Value.tokens, e] using l
  · have l := lexes_text_comma (lexes_text_comma (lexes_int_comma (lexes_last_text hi) port) ha) hn
    refine ⟨by simp [systemInsert, h], by simp [systemInsert, h], ?_⟩
    simpa [systemValues, systemInsert, h, commas, Value.tokens, e, e', e''] using l

/-- The values of an entry. -/
lemma isValues_entry {e : ServiceRegistryEntry} (h : e.Plain) (definition provider : Nat) :
    IsValues ((to_string definition ++ (bytes ", " ++ (to_string provider ++ (bytes ", " ++ (bytes "'" ++
      (e.sServiceUri ++ (bytes "', " ++ (bytes "'" ++ (e.sEndOfValidity ++ (bytes "', " ++ (bytes "'" ++
      (e.sSecure ++ (bytes "', " ++ (bytes "'" ++ (e.sMetaData ++ (bytes "', " ++ e.sVersion)))))))))))))))) ++
      bytes ");") (entryInsert e definition provider).values := by
  have l := lexes_int_comma (lexes_int_comma (lexes_text_comma (lexes_text_comma (lexes_text_comma
    (lexes_text_comma (lexes_last_int e.version) h.metadata) h.secure) h.validity) h.uri) provider) definition
  refine ⟨by simp [entryInsert], by simp [entryInsert], ?_⟩
  simpa [entryInsert, commas, Value.tokens, ServiceRegistryEntry.sVersion] using l

lemma leadingInt_decimal (n : Nat) : leadingInt (decimal n) = n := by
  have hd := decimal_digits n
  cases e : decimal n with
  | nil => exact absurd e (decimal_ne_nil n)
  | cons c t =>
    rw [e] at hd
    have hc : isalnum c := isalnum_of_isDigitOf (by decide) (hd c (by simp))
    have h1 : c ≠ '-'.toUInt8 := ne_of_isalnum hc (by decide)
    have h2 : c ≠ '+'.toUInt8 := ne_of_isalnum hc (by decide)
    have hn := number_decimal n
    rw [e] at hn
    simp only [leadingInt, List.dropWhile_cons, isspace_of_isalnum hc, Bool.false_eq_true, if_false, takeSign, h1, h2]
    rw [List.takeWhile_eq_self_iff.2 hd, hn]

lemma leadingInt_to_string (z : Int) : leadingInt (to_string z) = z := by
  cases z with
  | ofNat n => exact leadingInt_decimal n
  | negSucc n =>
    have minus : isspace '-'.toUInt8 = false := by decide
    simp only [to_string, leadingInt, List.dropWhile_cons, minus, Bool.false_eq_true, if_false, takeSign, if_true]
    rw [List.takeWhile_eq_self_iff.2 (decimal_digits (n + 1)), number_decimal]
    rfl

section
variable {link : Link} {s s' : Session} {r : List UInt8}

lemma storable_connection (entry interface : Nat) :
    Storable (connectionInsert entry interface) "service_registry_id" (.text (to_string entry)) where
  fits := rfl
  noKey := by simp [connectionInsert]
  found := by
    intro row h
    rw [(List.cons.inj h).1]
    simp [Value.same, leadingInt_to_string]

/-- A text that is the value of the only given column. -/
lemma checks_text {sTable sColumn v : List UInt8} {t c : String} (ht : IsName sTable t) (hc : IsName sColumn c)
    (hcols : IsColumns sColumn [c]) (hcol : hasColumn schema t c) (hq : Storable ⟨t, [c], [.text v]⟩ c (.text v))
    (hv : Sql.Plain v) : ChecksAndInserts sTable sColumn v sColumn v false ⟨t, [c], [.text v]⟩ c where
  table := ht
  column := hc
  value := hv
  hasColumn := hcol
  columns := hcols
  values := by
    have e : bytes "VALUES ('" = bytes "VALUES (" ++ bytes "'" := by decide
    exact ⟨_, isValues_text hv, by simp [e]⟩
  storable := hq

lemma checks_definition {definition : List UInt8} (hd : Sql.Plain definition) :
    ChecksAndInserts (bytes "service_definition") (bytes "service_definition") definition (bytes "service_definition")
      definition false (definitionInsert definition) "service_definition" := by
  have name := isName_definition
  have cols : IsColumns (bytes "service_definition") ["service_definition"] := by
    refine ⟨by simp, ?_⟩
    decide
  exact checks_text name name cols (by decide) (storable_text rfl (by decide) _) hd

lemma checks_interface {name : List UInt8} (hn : Sql.Plain name) :
    ChecksAndInserts (bytes "service_interface") (bytes "interface_name") name (bytes "interface_name") name false
      (interfaceInsert name) "interface_name" := by
  have table := isName_interface
  have column : IsName (bytes "interface_name") "interface_name" := by decide
  have cols : IsColumns (bytes "interface_name") ["interface_name"] := by
    refine ⟨by simp, ?_⟩
    decide
  exact checks_text table column cols (by decide) (storable_text rfl (by decide) _) hn

lemma isColumns_system (name address port authInfo : List UInt8) (z : Int) :
    IsColumns (systemValues name address port authInfo).1 (systemInsert name address z authInfo).columns := by
  by_cases h : authInfo = []
  · refine ⟨by simp [systemInsert, h], ?_⟩
    simp only [systemValues, systemInsert, h, if_true]
    decide
  · refine ⟨by simp [systemInsert, h], ?_⟩
    simp only [systemValues, systemInsert, h, if_false]
    decide

lemma systemInsert_table (name address : List UInt8) (port : Int) (authInfo : List UInt8) :
    (systemInsert name address port authInfo).table = "system_" := by
  unfold systemInsert
  split <;> rfl

lemma checks_system {name address authInfo : List UInt8} (port : Int) (hn : Sql.Plain name)
    (ha : Sql.Plain address) (hi : Sql.Plain authInfo) :
    ChecksAndInserts (bytes "system_") (bytes "system_name") name
      (systemValues name address (to_string port) authInfo).1
      (systemValues name address (to_string port) authInfo).2 true (systemInsert name address port authInfo)
      "system_name" where
  table := by
    rw [systemInsert_table]
    decide
  column := by decide
  value := hn
  hasColumn := by
    rw [systemInsert_table]
    decide
  columns := isColumns_system _ _ _ _ _
  values := ⟨_, isValues_system port hn ha hi, rfl⟩
  storable := storable_system name address port authInfo

lemma checks_entry {e : ServiceRegistryEntry} (he : e.Plain) (definition provider : Nat) :
    ChecksAndInserts (bytes "service_registry") (bytes "service_uri") e.sServiceUri
      (bytes "service_id, system_id, service_uri, end_of_validity, secure, metadata, version")
      (to_string definition ++ (bytes ", " ++ (to_string provider ++ (bytes ", " ++ (bytes "'" ++
      (e.sServiceUri ++ (bytes "', " ++ (bytes "'" ++ (e.sEndOfValidity ++ (bytes "', " ++ (bytes "'" ++
      (e.sSecure ++ (bytes "', " ++ (bytes "'" ++ (e.sMetaData ++ (bytes "', " ++ e.sVersion))))))))))))))))
      true (entryInsert e definition provider) "service_uri" where
  table := by
    show IsName _ "service_registry"
    decide
  column := by decide
  value := he.uri
  hasColumn := by
    show hasColumn schema "service_registry" _
    decide
  columns := by
    refine ⟨by simp [entryInsert], ?_⟩
    simp only [entryInsert]
    decide +kernel
  values := ⟨_, isValues_entry he definition provider, rfl⟩
  storable := storable_entry e definition provider

lemma checks_connection (entry interface : Nat) :
    ChecksAndInserts (bytes "service_registry_interface_connection") (bytes "service_registry_id") (to_string entry)
      (bytes "service_registry_id, interface_id") (to_string entry ++ (bytes ", " ++ to_string interface)) true
      (connectionInsert entry interface) "service_registry_id" where
  table := by
    show IsName _ "service_registry_interface_connection"
    decide
  column := by decide
  value := plain_to_string entry
  hasColumn := by
    show hasColumn schema "service_registry_interface_connection" _
    decide
  columns := by
    refine ⟨by simp [connectionInsert], ?_⟩
    simp only [connectionInsert]
    decide
  values := ⟨_, isValues_connection entry interface, rfl⟩
  storable := storable_connection entry interface

/-- The loop over the interfaces of a registration. -/
lemma interfaceIds_ok {names rs : List (List UInt8)} (hn : ∀ i ∈ names, Sql.Plain i)
    (run : interfaceIds link names s = (.ok rs, s')) :
    ∃ ids : List Nat, rs = ids.map (fun i : Nat => to_string i) ∧ (ids, s'.db) = storeInterfaces link.stamp names s.db := by
  induction names generalizing s rs with
  | nil =>
    cases run
    exact ⟨[], rfl, rfl⟩
  | cons name names ih =>
    obtain ⟨r1, s1, h1, h2⟩ := bind_eq_ok run
    obtain ⟨rs2, s2, h3, h4⟩ := bind_eq_ok h2
    cases h4
    obtain ⟨id, rfl, hid⟩ := (checks_interface (hn name (by simp))).ok h1
    obtain ⟨ids, rfl, hids⟩ := ih (fun i hi => hn i (by simp [hi])) h3
    refine ⟨id :: ids, rfl, ?_⟩
    simp only [storeInterfaces, storeInterface, ← hid, ← hids]

/-- The loop over the connections of an entry. -/
lemma saveConnections_ok {entry : Nat} {ids : List Nat}
    (run : saveConnections link (to_string entry) (ids.map fun i : Nat => to_string i) s = (.ok (), s')) :
    s'.db = storeConnections link.stamp entry ids s.db := by
  induction ids generalizing s with
  | nil =>
    cases run
    rfl
  | cons i ids ih =>
    obtain ⟨r1, s1, h1, h2⟩ := bind_eq_ok run
    obtain ⟨k, -, hk⟩ := (checks_connection entry i).ok h1
    rw [ih h2, storeConnections, storeConnection, ← hk]

/-- A registration whose statements succeed does what `store` says. -/
theorem saveEntry_ok {e : ServiceRegistryEntry} (he : e.Plain)
    {k : List UInt8 × List UInt8 × List (List UInt8) × List UInt8} (run : saveEntry link e s = (.ok k, s')) :
    s'.db = (store link.stamp e s.db).2 ∧
      k = (to_string (store link.stamp e s.db).1.definition, to_string (store link.stamp e s.db).1.provider,
        (store link.stamp e s.db).1.interfaces.map (fun i : Nat => to_string i), to_string (store link.stamp e s.db).1.entry) := by
  obtain ⟨r1, s1, h1, run⟩ := bind_eq_ok run
  obtain ⟨r2, s2, h2, run⟩ := bind_eq_ok run
  obtain ⟨r3, s3, h3, run⟩ := bind_eq_ok run
  obtain ⟨r4, s4, h4, run⟩ := bind_eq_ok run
  obtain ⟨r5, s5, h5, run⟩ := bind_eq_ok run
  cases run
  obtain ⟨d, rfl, hd⟩ := (checks_definition he.definition).ok h1
  obtain ⟨p, rfl, hp⟩ := (checks_system e.port he.systemName he.address he.authInfo).ok h2
  obtain ⟨is, rfl, hi⟩ := interfaceIds_ok he.interfaces h3
  obtain ⟨r, rfl, hr⟩ := (checks_entry he d p).ok h4
  have hc := saveConnections_ok h5
  simp only [store, storeDefinition, storeSystem, storeRow, ← hd, ← hp, ← hi, ← hr]
  exact ⟨hc, trivial⟩

lemma interfaceIds_returns (hlink : ∀ n, link.fault n = .none) :
    ∀ {names : List (List UInt8)}, (∀ i ∈ names, Sql.Plain i) →
      Returns (fun rs => ∃ ids : List Nat, rs = ids.map fun i : Nat => to_string i) (interfaceIds link names)
  | [], _ => fun s => ⟨[], s, rfl, [], rfl⟩
  | name :: names, hn => by
    refine Returns.bind ((checks_interface (hn name (by simp))).returns hlink) ?_
    rintro r ⟨id, rfl⟩
    refine Returns.bind (interfaceIds_returns hlink fun i hi => hn i (by simp [hi])) ?_
    rintro rs ⟨ids, rfl⟩
    exact fun s => ⟨_, s, rfl, id :: ids, rfl⟩

lemma saveConnections_returns (hlink : ∀ n, link.fault n = .none) (entry : Nat) :
    ∀ ids : List Nat, Returns (fun _ => True) (saveConnections link (to_string entry) (ids.map fun i : Nat => to_string i))
  | [] => fun s => ⟨_, s, rfl, trivial⟩
  | i :: ids =>
    ((checks_connection entry i).returns hlink).bind fun _ _ => saveConnections_returns hlink entry ids

/-- Without failures everything is stored. -/
lemma saveEntry_returns {e : ServiceRegistryEntry} (hlink : ∀ n, link.fault n = .none) (he : e.Plain) :
    Returns (fun _ => True) (saveEntry link e) := by
  refine Returns.bind ((checks_definition he.definition).returns hlink) ?_
  rintro _ ⟨d, rfl⟩
  refine Returns.bind ((checks_system e.port he.systemName he.address he.authInfo).returns hlink) ?_
  rintro _ ⟨p, rfl⟩
  refine Returns.bind (interfaceIds_returns hlink he.interfaces) ?_
  rintro _ ⟨ids, rfl⟩
  refine Returns.bind ((checks_entry he d p).returns hlink) ?_
  rintro _ ⟨r, rfl⟩
  exact (saveConnections_returns hlink r ids).bind fun _ _ s => ⟨_, s, rfl, trivial⟩

end

end ArrowheadCore.ServiceRegistry
