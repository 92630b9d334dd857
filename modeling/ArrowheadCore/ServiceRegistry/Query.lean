import ArrowheadCore.Lib.Traverse
import ArrowheadCore.ServiceRegistry.Store

/-!
# Queries of the registry

Embedding of `SRQuery::fillQueryList` (`core/apps/ServiceRegistry/endpoints/SRQuery.h`): the entries of a
service definition with their interfaces and providers, read with one statement a row. `queryList` says the
same in terms of the tables, and `fillQueryList_run` that the statements read what is there, as long as the
columns that are spliced into them hold keys.
-/

namespace ArrowheadCore.ServiceRegistry
open Lib Lib.Sql Json Db

/-- The statements of the query; the source has one text for each table. -/
def selectWhere (sTable sColumn sValue : List UInt8) : List UInt8 :=
  bytes "SELECT * FROM " ++ (sTable ++ (bytes " WHERE " ++ (sColumn ++ (bytes " = '" ++ (sValue ++ bytes "';")))))

/-! ## The data of a response -/

def Interface.ofRow (row3 : List Value) : Interface := ⟨cell row3 0, cell row3 1, cell row3 2, cell row3 3⟩

/-- The data of a query with the fields of the definition; the others are not read yet. -/
def ServiceQueryData.ofDefinition (row : List Value) : ServiceQueryData where
  sId := []
  sServiceDefinition_id := cell row 0
  sServiceDefinition_serviceDefinition := cell row 1
  sServiceDefinition_createdAt := cell row 2
  sServiceDefinition_updatedAt := cell row 3
  sProvider_id := []
  sProvider_systemName := []
  sProvider_address := []
  sProvider_port := []
  sProvider_authenticationInfo := []
  sProvider_createdAt := []
  sProvider_updatedAt := []
  sServiceUri := []
  sEndOfValidity := []
  sSecure := []
  sMetadata := []
  sVersion := []
  vInterfaces := []
  sCreatedAt := []
  sUpdatedAt := []

/-- The fields of an entry, of its interfaces and of its provider. -/
def ServiceQueryData.withEntry (sQData : ServiceQueryData) (row : List Value) (intfs : List Interface)
    (row2 : List Value) : ServiceQueryData :=
  { sQData with
    sId := cell row 0
    vInterfaces := intfs
    sProvider_id := cell row2 0
    sProvider_systemName := cell row2 1
    sProvider_address := cell row2 2
    sProvider_port := cell row2 3
    sProvider_authenticationInfo := cell row2 4
    sProvider_createdAt := cell row2 5
    sProvider_updatedAt := cell row2 6
    sServiceUri := cell row 3
    sEndOfValidity := cell row 4
    sSecure := cell row 5
    sMetadata := cell row 6
    sVersion := cell row 7
    sCreatedAt := cell row 8
    sUpdatedAt := cell row 9 }

/-! ## `fillQueryList` -/

section
variable (link : Link)

/-- The loop over the connections of an entry; `none` when an interface is not found. -/
def fillInterfaces : List (List Value) → DbM (Option (List Interface))
  | [] => pure (some [])
  | row2 :: rows => do
    let intfID := cell row2 2
    match (← fetch link (selectWhere (bytes "service_interface") (bytes "id") intfID)).head? with
    | none => pure none
    | some row3 => return (← fillInterfaces rows).map (Interface.ofRow row3 :: ·)

/-- One pass of the loop over the entries. -/
def fillEntry (sQData : ServiceQueryData) (row : List Value) : DbM (Except Nat ServiceQueryData) := do
  let sId := cell row 0
  match ← fetch link (selectWhere (bytes "service_registry_interface_connection") (bytes "service_registry_id") sId) with
  | [] => return .error 3
  | c :: cs =>
    match ← fillInterfaces link (c :: cs) with
    | none => return .error 2
    | some intfs =>
      let systemID := cell row 2
      match (← fetch link (selectWhere (bytes "system_") (bytes "id") systemID)).head? with
      | none => return .error 4
      | some row2 => return .ok (sQData.withEntry row intfs row2)

/-- The loop over the entries. -/
def fillEntries (sQData : ServiceQueryData) : List (List Value) → DbM (Except Nat (List ServiceQueryData))
  | [] => pure (.ok [])
  | row :: rows => do
    match ← fillEntry link sQData row with
    | .error n => return .error n
    | .ok q =>
      match ← fillEntries sQData rows with
      | .error n => return .error n
      | .ok qs => return .ok (q :: qs)

/-- The list, or the number of the table that gave nothing. -/
def fillQueryList (sServiceDefinition : List UInt8) : DbM (Except Nat (List ServiceQueryData)) := do
  match (← fetch link (selectWhere (bytes "service_definition") (bytes "service_definition")
    sServiceDefinition)).head? with
  | none => return .error 1
  | some row =>
    match ← fetch link (selectWhere (bytes "service_registry") (bytes "service_id") (cell row 0)) with
    | [] => return .error 5
    | r :: rs => fillEntries link (.ofDefinition row) (r :: rs)

end

/-! ## The same in terms of the tables -/

/-- A row as `SELECT *` gives it. -/
def fullRow (t : String) (r : Row) : List Value := (columnsOf schema t).map r.get

/-- A cell of a row as a text. -/
def textOf (r : Row) (c : String) : List UInt8 := (valueText (r.get c)).getD []

section
variable (db : Database)

/-- The rows with this value in a column. -/
def rowsWhere (t c : String) (v : Value) : List Row := (db t).rows.filter fun r => (r.get c).same v

/-- The interface that a connection refers to. -/
def interfaceOf (c : Row) : Option Interface :=
  (findRow db "service_interface" "id" (.text (textOf c "interface_id"))).map fun r =>
    .ofRow (fullRow "service_interface" r)

/-- An entry of the list. -/
def queryEntry (sQData : ServiceQueryData) (r : Row) : Except Nat ServiceQueryData :=
  match rowsWhere db "service_registry_interface_connection" "service_registry_id" (.text (textOf r "id")) with
  | [] => .error 3
  | c :: cs =>
    match (c :: cs).mapM (interfaceOf db) with
    | none => .error 2
    | some intfs =>
      match findRow db "system_" "id" (.text (textOf r "system_id")) with
      | none => .error 4
      | some p => .ok (sQData.withEntry (fullRow "service_registry" r) intfs (fullRow "system_" p))

def queryList (definition : List UInt8) : Except Nat (List ServiceQueryData) :=
  match findRow db "service_definition" "service_definition" (.text definition) with
  | none => .error 1
  | some d =>
    match rowsWhere db "service_registry" "service_id" (.text (textOf d "id")) with
    | [] => .error 5
    | r :: rs => (r :: rs).mapM (queryEntry db (.ofDefinition (fullRow "service_definition" d)))

end

/-! ## What the list contains -/

section
variable {db : Database}

lemma queryEntry_ok {sQData q : ServiceQueryData} {r : Row} (h : queryEntry db sQData r = .ok q) :
    ∃ intfs p, (rowsWhere db "service_registry_interface_connection" "service_registry_id"
        (.text (textOf r "id"))).mapM (interfaceOf db) = some intfs ∧
      findRow db "system_" "id" (.text (textOf r "system_id")) = some p ∧
      q = sQData.withEntry (fullRow "service_registry" r) intfs (fullRow "system_" p) := by
  unfold queryEntry at h
  cases hc : rowsWhere db "service_registry_interface_connection" "service_registry_id" (.text (textOf r "id")) with
  | nil =>
    simp only [hc] at h
    cases h
  | cons c cs =>
    cases hi : (c :: cs).mapM (interfaceOf db) with
    | none =>
      simp only [hc, hi] at h
      cases h
    | some intfs =>
      cases hp : findRow db "system_" "id" (.text (textOf r "system_id")) with
      | none =>
        simp only [hc, hi, hp] at h
        cases h
      | some p =>
        simp only [hc, hi, hp] at h
        cases h
        exact ⟨intfs, p, rfl, rfl, rfl⟩

lemma queryList_ok {definition : List UInt8} {qs : List ServiceQueryData} (h : queryList db definition = .ok qs) :
    ∃ d, findRow db "service_definition" "service_definition" (.text definition) = some d ∧
      List.Forall₂ (fun r q => queryEntry db (.ofDefinition (fullRow "service_definition" d)) r = .ok q)
        (rowsWhere db "service_registry" "service_id" (.text (textOf d "id"))) qs := by
  unfold queryList at h
  cases hd : findRow db "service_definition" "service_definition" (.text definition) with
  | none =>
    simp only [hd] at h
    cases h
  | some d =>
    refine ⟨d, rfl, ?_⟩
    cases hr : rowsWhere db "service_registry" "service_id" (.text (textOf d "id")) with
    | nil =>
      simp only [hd, hr] at h
      cases h
    | cons r rs =>
      simp only [hd, hr] at h
      exact mapM_ok_mem h

end

/-! ## The statements read the tables -/

lemma parse_selectWhere {sTable sColumn v : List UInt8} {t c : String} (ht : IsName sTable t) (hc : IsName sColumn c)
    (hv : Plain v) : parse (selectWhere sTable sColumn v) =
      some (.select ⟨none, ⟨t, t⟩, [], some (.eq (.col none c) (.lit (.text v))), []⟩) := by
  have l1 : Lexes .idle (bytes "SELECT * FROM ") [.kw .select, .sym .star, .kw .from] .idle :=
    lexes_bytes (by decide)
  have l2 : Lexes .idle (bytes " WHERE ") [.kw .where] .idle := lexes_bytes (by decide)
  have l3 : Lexes .idle (bytes " = '") [.sym .eq] (.text []) := lexes_bytes (by decide)
  have l4 : Lexes .idle (bytes ";") [.sym .semicolon] .idle := lexes_bytes (by decide)
  have value := l3.append (l4.quoted (delimits_cons _ (by decide)) (by decide) hv)
  have cond := l2.append (value.name (delimits_cons _ (by decide)) hc)
  have all := l1.append (cond.name (delimits_cons _ (by decide)) ht)
  have e : bytes "';" = QUOTE :: bytes ";" := by decide
  rw [parse, selectWhere, e, lex_of_lexes all rfl]
  rfl

lemma select_star_run {t c : String} (hc : hasColumn schema t c) (v : Value) (db : Database) :
    Select.run schema db ⟨none, ⟨t, t⟩, [], some (.eq (.col none c) (.lit v)), []⟩ =
      some ((rowsWhere db t c v).map (fullRow t)) := by
  have hb : Select.bound schema ⟨none, ⟨t, t⟩, [], some (.eq (.col none c) (.lit v)), []⟩ := by
    simp [Select.bound, Select.sources, Expr.bound, Cond.bound, hasColumn_id hc, hc]
  rw [Select.run_table hb]
  simp only [Cond.eval, Expr.eval_column hc, Select.project, List.flatMap_cons, List.flatMap_nil, List.append_nil]
  rfl

/-- The texts of a row of `SELECT *` by the names of their columns. -/
lemma cell_fullRow {t c : String} {k : Nat} (h : (columnsOf schema t)[k]? = some c) (r : Row) :
    cell (fullRow t r) k = textOf r c := by
  simp [cell, fullRow, h, textOf]

/-- The text of a key. -/
lemma textOf_int {r : Row} {c : String} {n : Nat} (h : r.get c = .int n) : textOf r c = to_string n := by
  simp [textOf, h, valueText]

section
variable {link : Link} {db : Database}

lemma fetchWhere_gives {sTable sColumn v : List UInt8} {t c : String} (hlink : ∀ n, link.fault n = .none)
    (ht : IsName sTable t) (hc : IsName sColumn c) (hcol : hasColumn schema t c) (hv : Plain v) :
    Gives db (fetch link (selectWhere sTable sColumn v)) ((rowsWhere db t c (.text v)).map (fullRow t)) :=
  select_gives link hlink (parse_selectWhere ht hc hv) (select_star_run hcol _ _)

lemma head?_rowsWhere (t c : String) (v : Value) :
    ((rowsWhere db t c v).map (fullRow t)).head? = (findRow db t c v).map (fullRow t) := by
  rw [List.head?_map, rowsWhere, List.head?_filter, findRow]

lemma fillInterfaces_gives (hlink : ∀ n, link.fault n = .none) :
    ∀ {cs : List Row}, (∀ c ∈ cs, ∃ n : Nat, c.get "interface_id" = .int n) →
      Gives db (fillInterfaces link (cs.map (fullRow "service_registry_interface_connection")))
        (cs.mapM (interfaceOf db))
  | [], _ => Gives.pure db _
  | c :: cs, h => by
    have table := isName_interface
    have column := isName_id
    obtain ⟨n, hn⟩ := h c (by simp)
    have key : cell (fullRow "service_registry_interface_connection" c) 2 = to_string n := by
      rw [cell_fullRow (c := "interface_id") rfl, textOf_int hn]
    have ih := fillInterfaces_gives hlink fun c (hc : c ∈ cs) => h c (by simp [hc])
    rw [List.map_cons, List.mapM_cons]
    unfold fillInterfaces
    refine (fetchWhere_gives hlink table column (by decide) (key ▸ plain_to_string n)).bind ?_
    rw [head?_rowsWhere, key, interfaceOf, textOf_int hn]
    cases findRow db "service_interface" "id" (.text (to_string n)) with
    | none => exact Gives.pure db _
    | some r =>
      refine ih.bind ?_
      simp only [Option.map_some, Option.bind_eq_bind, Option.bind_some]
      cases cs.mapM (interfaceOf db) <;> exact Gives.pure db _

/-- The columns that a query splices into its statements refer to rows. -/
def KeyColumns (db : Database) : Prop :=
  (∀ c ∈ (db "service_registry_interface_connection").rows, ∃ n : Nat, c.get "interface_id" = .int n) ∧
    ∀ r ∈ (db "service_registry").rows, ∃ n : Nat, r.get "system_id" = .int n

lemma fillEntry_gives (hlink : ∀ n, link.fault n = .none) (hdb : KeyColumns db) (sQData : ServiceQueryData)
    {r : Row} (hr : r ∈ (db "service_registry").rows) :
    Gives db (fillEntry link sQData (fullRow "service_registry" r)) (queryEntry db sQData r) := by
  have id_ := isName_id
  have connection := isName_connection
  have entry := isName_entryId
  have system := isName_system
  obtain ⟨n, hn⟩ := hdb.2 r hr
  have key : cell (fullRow "service_registry" r) 0 = to_string r.id := by
    rw [cell_fullRow (c := "id") rfl]
    rfl
  have provider : cell (fullRow "service_registry" r) 2 = to_string n := by
    rw [cell_fullRow (c := "system_id") rfl, textOf_int hn]
  unfold fillEntry queryEntry
  refine (fetchWhere_gives hlink connection entry (by decide) (key ▸ plain_to_string r.id)).bind ?_
  rw [key, textOf_int (c := "id") (n := r.id) rfl]
  cases e : rowsWhere db "service_registry_interface_connection" "service_registry_id" (.text (to_string r.id)) with
  | nil => exact Gives.pure db _
  | cons c cs =>
    have refers : ∀ x ∈ c :: cs, ∃ n : Nat, x.get "interface_id" = .int n := by
      intro x hx
      rw [← e] at hx
      exact hdb.1 x (List.mem_of_mem_filter hx)
    refine (fillInterfaces_gives hlink refers).bind ?_
    dsimp only
    cases (c :: cs).mapM (interfaceOf db) with
    | none => exact Gives.pure db _
    | some intfs =>
      refine (fetchWhere_gives hlink system id_ (by decide) (provider ▸ plain_to_string n)).bind ?_
      rw [head?_rowsWhere, provider, textOf_int hn]
      cases findRow db "system_" "id" (.text (to_string n)) with
      | none => exact Gives.pure db _
      | some p => exact Gives.pure db _

lemma fillEntries_gives (hlink : ∀ n, link.fault n = .none) (hdb : KeyColumns db) (sQData : ServiceQueryData) :
    ∀ {rs : List Row}, (∀ r ∈ rs, r ∈ (db "service_registry").rows) →
      Gives db (fillEntries link sQData (rs.map (fullRow "service_registry"))) (rs.mapM (queryEntry db sQData))
  | [], _ => Gives.pure db _
  | r :: rs, h => by
    have ih := fillEntries_gives hlink hdb sQData fun r (hr : r ∈ rs) => h r (by simp [hr])
    rw [List.map_cons, List.mapM_cons]
    unfold fillEntries
    refine (fillEntry_gives hlink hdb sQData (h r (by simp))).bind ?_
    cases queryEntry db sQData r with
    | error n => exact Gives.pure db _
    | ok q =>
      refine ih.bind ?_
      cases rs.mapM (queryEntry db sQData) <;> exact Gives.pure db _

/-- Without failures a query for a plain definition reads what the tables say. -/
theorem fillQueryList_gives (hlink : ∀ n, link.fault n = .none) (hdb : KeyColumns db) {definition : List UInt8}
    (hd : Plain definition) : Gives db (fillQueryList link definition) (queryList db definition) := by
  have table := isName_definition
  have registry := isName_registry
  have column := isName_definitionId
  unfold fillQueryList queryList
  refine (fetchWhere_gives hlink table table (by decide) hd).bind ?_
  rw [head?_rowsWhere]
  cases findRow db "service_definition" "service_definition" (.text definition) with
  | none => exact Gives.pure db _
  | some d =>
    have key : cell (fullRow "service_definition" d) 0 = to_string d.id := by
      rw [cell_fullRow (c := "id") rfl]
      rfl
    refine (fetchWhere_gives hlink registry column (by decide) (key ▸ plain_to_string d.id)).bind ?_
    dsimp only
    rw [textOf_int (c := "id") (n := d.id) rfl, key]
    cases e : rowsWhere db "service_registry" "service_id" (.text (to_string d.id)) with
    | nil => exact Gives.pure db _
    | cons r rs =>
      have stored : ∀ x ∈ r :: rs, x ∈ (db "service_registry").rows := by
        intro x hx
        rw [← e] at hx
        exact List.mem_of_mem_filter hx
      exact fillEntries_gives hlink hdb _ stored

end

end ArrowheadCore.ServiceRegistry
