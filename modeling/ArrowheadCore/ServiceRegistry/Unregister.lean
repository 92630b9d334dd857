import ArrowheadCore.Db.Program
import ArrowheadCore.ServiceRegistry.Separation

/-!
# Removing entries

Embedding of `Register::processUnregister` (`core/apps/ServiceRegistry/endpoints/Register.h`) and of `MgmtDelete`.
`unregister` says in terms of the tables what the statements do: the connections of the first entry of a pair of
definition and system are deleted, and then all entries of the pair.
-/

namespace ArrowheadCore.ServiceRegistry
open Lib Lib.Sql Json Db

/-! ## `processUnregister` -/

/-- The entries of a definition and a system, as the condition of two statements. -/
def pairCondition (sServiceDefinitionID sProviderSystemID : List UInt8) : List UInt8 :=
  bytes " WHERE service_id = " ++ (sServiceDefinitionID ++ (bytes " AND " ++ (bytes "system_id = " ++
    (sProviderSystemID ++ bytes ";"))))

def processUnregister (rServiceDefinition rSystemName rsAddress rsPort : List UInt8) :
    Program (Except ErrorResp Unit) :=
  if rServiceDefinition = [] then
    pure (.error (badPayload "Service definition is blank" "serviceregistry/unregister"))
  else if rSystemName = [] then
    pure (.error (badPayload "Name of the provider system is blank" "serviceregistry/unregister"))
  else if rsAddress = [] then
    pure (.error (badPayload "Address of the provider system is blank" "serviceregistry/unregister"))
  else if rsPort = [] then
    pure (.error (badPayload "Port of the provider system is blank" "serviceregistry/unregister"))
  else
    match stoi rsPort with
    | none => .raise (.runtimeError "stoi")
    | some iPort =>
      if iPort < 0 ∨ 65535 < iPort then
        pure (.error (badPayload "Port must be between 0 and 65535." "serviceregistry/unregister"))
      else do
        let sServiceDefinitionID := (← Program.fetchString (bytes
          "SELECT * FROM service_definition WHERE service_definition = '" ++ (rServiceDefinition ++ bytes "' ;"))).getD []
        if sServiceDefinitionID = [] then
          pure (.error (badPayload "Missing information from service_definition table" "serviceregistry/unregister"))
        else do
          let sProviderSystemID := (← Program.fetchString (bytes "SELECT * FROM system_ WHERE system_name = '" ++
            (rSystemName ++ (bytes "' AND " ++ (bytes "address = '" ++ (rsAddress ++ (bytes "' AND " ++
            (bytes "port = '" ++ (rsPort ++ bytes "';"))))))))).getD []
          if sProviderSystemID = [] then
            pure (.error (badPayload "Missing information from system_ table" "serviceregistry/unregister"))
          else do
            let sServiceRegistryId := (← Program.fetchString (bytes "SELECT * FROM service_registry" ++
              pairCondition sServiceDefinitionID sProviderSystemID)).getD []
            if sServiceRegistryId = [] then
              pure (.error (badPayload "Missing information from service_registry table" "serviceregistry/unregister"))
            else do
              Program.query (bytes "DELETE FROM service_registry_interface_connection WHERE service_registry_id = '" ++
                (sServiceRegistryId ++ bytes "';"))
              Program.query (bytes "DELETE FROM service_registry" ++
                pairCondition sServiceDefinitionID sProviderSystemID)
              return .ok ()

/-! ## `MgmtDelete` -/

/-- The three requests differ in the table and in the URL of the error. -/
def deleteById (sTable : List UInt8) (errURL : String) (id : Int) : Program (Except ErrorResp Unit) :=
  if id < 1 then pure (.error (badPayload "Id must be greater than 0." errURL))
  else do
    Program.query (bytes "DELETE FROM " ++ (sTable ++ (bytes " WHERE id = '" ++ (to_string id ++ bytes "';"))))
    return .ok ()

def processMgmtDeleteSystemsId : Int → Program (Except ErrorResp Unit) :=
  deleteById (bytes "system_") "serviceregistry/mgmt/systems/{id}"

def processMgmtDeleteServicesId : Int → Program (Except ErrorResp Unit) :=
  deleteById (bytes "service_definition") "serviceregistry/mgmt/services/{id}"

def processMgmtDeleteId : Int → Program (Except ErrorResp Unit) :=
  deleteById (bytes "service_registry") "serviceregistry/mgmt/{id}"

/-! ## What the statements mean -/

section
variable {v : List UInt8}

/-- The end of a statement behind a text. -/
lemma lexes_text_end (hv : Plain v) : Lexes (.text []) (v ++ bytes "';") [.text v, .sym .semicolon] .idle := by
  have l : Lexes .idle (bytes ";") [.sym .semicolon] .idle := lexes_bytes (by decide)
  have e : bytes "';" = QUOTE :: bytes ";" := by decide
  rw [e]
  exact l.quoted (delimits_cons _ (by decide)) (by decide) hv

lemma parse_definitionQuery (hv : Plain v) :
    parse (bytes "SELECT * FROM service_definition WHERE service_definition = '" ++ (v ++ bytes "' ;")) =
      some (.select ⟨none, ⟨"service_definition", "service_definition"⟩, [],
        some (.eq (.col none "service_definition") (.lit (.text v))), []⟩) := by
  have l1 : Lexes .idle (bytes "SELECT * FROM service_definition WHERE service_definition = '") [.kw .select,
      .sym .star, .kw .from, .ident "service_definition", .kw .where, .ident "service_definition", .sym .eq]
      (.text []) := lexes_bytes (by decide)
  have l2 : Lexes .idle (bytes " ;") [.sym .semicolon] .idle := lexes_bytes (by decide)
  have e : bytes "' ;" = QUOTE :: bytes " ;" := by decide
  have all := l1.append (l2.quoted (delimits_cons _ (by decide)) (by decide) hv)
  rw [parse, e, lex_of_lexes all rfl]
  rfl

/-- The condition on the name, the address and the port of a system. -/
def systemCond (name address port : List UInt8) : Cond :=
  .and (.eq (.col none "system_name") (.lit (.text name)))
    (.and (.eq (.col none "address") (.lit (.text address))) (.eq (.col none "port") (.lit (.text port))))

lemma parse_providerQuery {name address port : List UInt8} (hn : Plain name) (ha : Plain address) (hp : Plain port) :
    parse (bytes "SELECT * FROM system_ WHERE system_name = '" ++ (name ++ (bytes "' AND " ++ (bytes "address = '" ++
      (address ++ (bytes "' AND " ++ (bytes "port = '" ++ (port ++ bytes "';")))))))) =
    some (.select ⟨none, ⟨"system_", "system_"⟩, [], some (systemCond name address port), []⟩) := by
  have l1 : Lexes .idle (bytes "SELECT * FROM system_ WHERE system_name = '") [.kw .select, .sym .star, .kw .from,
      .ident "system_", .kw .where, .ident "system_name", .sym .eq] (.text []) := lexes_bytes (by decide)
  have l2 : Lexes .idle (bytes " AND ") [.kw .and] .idle := lexes_bytes (by decide)
  have l3 : Lexes .idle (bytes "address = '") [.ident "address", .sym .eq] (.text []) := lexes_bytes (by decide)
  have l4 : Lexes .idle (bytes "port = '") [.ident "port", .sym .eq] (.text []) := lexes_bytes (by decide)
  have ne : some ' '.toUInt8 ≠ some QUOTE := by decide
  have e : bytes "' AND " = QUOTE :: bytes " AND " := by decide
  have t3 := l2.append (l4.append (lexes_text_end hp))
  have t2 := l2.append (l3.append (t3.quoted (delimits_cons _ (by decide)) ne ha))
  have all := l1.append (t2.quoted (delimits_cons _ (by decide)) ne hn)
  rw [parse, e, List.cons_append, List.cons_append, lex_of_lexes all rfl]
  rfl

/-- The condition on the definition and the system of an entry. -/
def pairCond (d p : Nat) : Cond :=
  .and (.eq (.col none "service_id") (.lit (.int d))) (.eq (.col none "system_id") (.lit (.int p)))

lemma lexes_pairCondition (d p : Nat) : Lexes .idle (pairCondition (to_string d) (to_string p))
    [.kw .where, .ident "service_id", .sym .eq, .number d, .kw .and, .ident "system_id", .sym .eq, .number p,
      .sym .semicolon] .idle := by
  have l1 : Lexes .idle (bytes " WHERE service_id = ") [.kw .where, .ident "service_id", .sym .eq] .idle :=
    lexes_bytes (by decide)
  have l2 : Lexes .idle (bytes " AND ") [.kw .and] .idle := lexes_bytes (by decide)
  have l3 : Lexes .idle (bytes "system_id = ") [.ident "system_id", .sym .eq] .idle := lexes_bytes (by decide)
  have l4 : Lexes .idle (bytes ";") [.sym .semicolon] .idle := lexes_bytes (by decide)
  have t2 := l2.append (l3.append (l4.to_string (delimits_cons _ (by decide)) p))
  exact l1.append (t2.to_string (delimits_cons _ (by decide)) d)

lemma parse_pairQuery (d p : Nat) :
    parse (bytes "SELECT * FROM service_registry" ++ pairCondition (to_string d) (to_string p)) =
      some (.select ⟨none, ⟨"service_registry", "service_registry"⟩, [], some (pairCond d p), []⟩) := by
  have l : Lexes .idle (bytes "SELECT * FROM ") [.kw .select, .sym .star, .kw .from] .idle :=
    lexes_bytes (by decide)
  have name := isName_registry
  have e : bytes "SELECT * FROM service_registry" = bytes "SELECT * FROM " ++ bytes "service_registry" := by decide
  have all := l.append ((lexes_pairCondition d p).name (delimits_cons _ (by decide)) name)
  rw [parse, e, List.append_assoc, lex_of_lexes all rfl]
  rfl

lemma parse_pairDelete (d p : Nat) :
    parse (bytes "DELETE FROM service_registry" ++ pairCondition (to_string d) (to_string p)) =
      some (.delete ⟨"service_registry", some (pairCond d p)⟩) := by
  have l : Lexes .idle (bytes "DELETE FROM ") [.kw .delete, .kw .from] .idle := lexes_bytes (by decide)
  have name := isName_registry
  have e : bytes "DELETE FROM service_registry" = bytes "DELETE FROM " ++ bytes "service_registry" := by decide
  have all := l.append ((lexes_pairCondition d p).name (delimits_cons _ (by decide)) name)
  rw [parse, e, List.append_assoc, lex_of_lexes all rfl]
  rfl

/-- A `DELETE` of the rows with a value in a column. -/
def deleteWhere (t c : String) (v : List UInt8) : Delete := ⟨t, some (.eq (.col none c) (.lit (.text v)))⟩

lemma parse_connectionDelete (hv : Plain v) :
    parse (bytes "DELETE FROM service_registry_interface_connection WHERE service_registry_id = '" ++
      (v ++ bytes "';")) =
      some (.delete (deleteWhere "service_registry_interface_connection" "service_registry_id" v)) := by
  have l : Lexes .idle (bytes "DELETE FROM service_registry_interface_connection WHERE service_registry_id = '")
      [.kw .delete, .kw .from, .ident "service_registry_interface_connection", .kw .where,
        .ident "service_registry_id", .sym .eq] (.text []) := lexes_bytes (by decide +kernel)
  rw [parse, lex_of_lexes (l.append (lexes_text_end hv)) rfl]
  rfl

lemma parse_deleteById {sTable : List UInt8} {t : String} (ht : IsName sTable t) (hv : Plain v) :
    parse (bytes "DELETE FROM " ++ (sTable ++ (bytes " WHERE id = '" ++ (v ++ bytes "';")))) =
      some (.delete (deleteWhere t "id" v)) := by
  have l1 : Lexes .idle (bytes "DELETE FROM ") [.kw .delete, .kw .from] .idle := lexes_bytes (by decide)
  have l2 : Lexes .idle (bytes " WHERE id = '") [.kw .where, .ident "id", .sym .eq] (.text []) :=
    lexes_bytes (by decide)
  have rest := l2.append (lexes_text_end hv)
  have all := l1.append (rest.name (delimits_cons _ (by decide)) ht)
  rw [parse, lex_of_lexes all rfl]
  rfl

end

/-! ## The same in terms of the tables -/

/-- The first system with this name, address and port. -/
def findSystem (db : Database) (name address port : List UInt8) : Option Row :=
  (db "system_").rows.find? fun r => (r.get "system_name").same (.text name) &&
    ((r.get "address").same (.text address) && (r.get "port").same (.text port))

lemma findSystem_mem {db : Database} {name address port : List UInt8} {r : Row}
    (h : findSystem db name address port = some r) :
    r ∈ (db "system_").rows ∧ (r.get "system_name").same (.text name) ∧ (r.get "address").same (.text address) ∧
      (r.get "port").same (.text port) :=
  ⟨List.mem_of_find?_eq_some h, by simpa [Bool.and_eq_true] using List.find?_some h⟩

/-- The entry belongs to this definition and this system. -/
def ofPair (d p : Nat) (r : Row) : Bool := (r.get "service_id").same (.int d) && (r.get "system_id").same (.int p)

/-- The connection belongs to this entry. -/
def ofEntry (n : Nat) (c : Row) : Bool := (c.get "service_registry_id").same (.text (to_string n))

/-- A table without some of its rows. -/
def removeRows (t : String) (p : Row → Bool) (db : Database) : Database :=
  Function.update db t ((db t).keep fun r => !p r)

/-- The definition, the system and the first entry of the pair. -/
structure FindsPair (db : Database) (definition name address port : List UInt8) (d p r : Row) : Prop where
  definition : findRow db "service_definition" "service_definition" (.text definition) = some d
  system : findSystem db name address port = some p
  entry : (db "service_registry").rows.find? (ofPair d.id p.id) = some r

/-- What an unregistration removes. -/
def unregister (d p r : Nat) (db : Database) : Database :=
  removeRows "service_registry" (ofPair d p)
    (removeRows "service_registry_interface_connection" (ofEntry r) db)

section
variable {t : String} {c : Cond} {db : Database}

lemma removeRows_self (p : Row → Bool) : (removeRows t p db t).rows = (db t).rows.filter fun r => !p r := by
  simp [removeRows, Table.keep]

lemma removeRows_other {u : String} (hu : u ≠ t) (p : Row → Bool) : removeRows t p db u = db u :=
  Function.update_of_ne hu _ _

/-- A `SELECT *` from one table. -/
lemma select_all_run (ht : (schema t).isSome) (hc : Cond.bound schema [⟨t, t⟩] c) :
    Select.run schema db ⟨none, ⟨t, t⟩, [], some c, []⟩ =
      some (((db t).rows.filter fun r => c.eval schema [(⟨t, t⟩, r)]).map (fullRow t)) := by
  have hb : Select.bound schema ⟨none, ⟨t, t⟩, [], some c, []⟩ := by
    simp [Select.bound, Select.sources, ht, hc]
  rw [Select.run_table hb]
  simp only [Select.project, List.flatMap_cons, List.flatMap_nil, List.append_nil]
  rfl

lemma delete_run (ht : (schema t).isSome) (hc : Cond.bound schema [⟨t, t⟩] c) :
    Delete.run schema db ⟨t, some c⟩ = some (removeRows t (fun r => c.eval schema [(⟨t, t⟩, r)]) db) := by
  have hb : Delete.bound schema ⟨t, some c⟩ := by simp [Delete.bound, ht, hc]
  rw [Delete.run, if_pos hb]
  rfl

lemma systemCond_eval (name address port : List UInt8) (r : Row) :
    (systemCond name address port).eval schema [(⟨"system_", "system_"⟩, r)] =
      ((r.get "system_name").same (.text name) &&
        ((r.get "address").same (.text address) && (r.get "port").same (.text port))) := rfl

lemma pairCond_eval (d p : Nat) (r : Row) :
    (pairCond d p).eval schema [(⟨"service_registry", "service_registry"⟩, r)] = ofPair d p r := rfl

lemma deleteWhere_run {col : String} (hc : hasColumn schema t col) (v : List UInt8) :
    (deleteWhere t col v).run schema db = some (removeRows t (fun r => (r.get col).same (.text v)) db) := by
  have hb : Cond.bound schema [⟨t, t⟩] (.eq (.col none col) (.lit (.text v))) := by
    simp [Cond.bound, Expr.bound, hc]
  rw [deleteWhere, delete_run (hasColumn_id hc).1 hb]
  simp only [Cond.eval, Expr.eval_column hc]
  rfl

end

/-! ## The statements do what the tables say -/

section
variable {link : Link} {s s' : Session} {t : String} {c : Cond} {statement : List UInt8}

/-- The first column of a row is its key. -/
lemma head?_key (t : String) (p : Row → Bool) (rows : List Row) :
    ((rows.filter p).map (fullRow t)).head?.bind (·.head?.bind valueText) =
      (rows.find? p).map fun r : Row => to_string r.id := by
  rw [← List.head?_filter, List.head?_map]
  cases (rows.filter p).head? <;> rfl

/-- The key of the first row that meets the condition. -/
lemma fetchKey_ok (hp : parse statement = some (.select ⟨none, ⟨t, t⟩, [], some c, []⟩)) (ht : (schema t).isSome)
    (hc : Cond.bound schema [⟨t, t⟩] c) {o : Option (List UInt8)} (run : fetchString link statement s = (.ok o, s')) :
    s'.db = s.db ∧
      o = ((s.db t).rows.find? fun r => c.eval schema [(⟨t, t⟩, r)]).map fun r : Row => to_string r.id := by
  obtain ⟨hdb, rows, hr, rfl⟩ := fetchString_ok link hp run
  rw [select_all_run ht hc] at hr
  cases hr
  exact ⟨hdb, head?_key t _ _⟩

lemma fetchKey_gives (hlink : ∀ n, link.fault n = .none) (db : Database)
    (hp : parse statement = some (.select ⟨none, ⟨t, t⟩, [], some c, []⟩)) (ht : (schema t).isSome)
    (hc : Cond.bound schema [⟨t, t⟩] c) :
    Gives db (fetchString link statement)
      (((db t).rows.find? fun r => c.eval schema [(⟨t, t⟩, r)]).map fun r : Row => to_string r.id) := by
  have read : Gives db (fetchString link statement)
      ((((db t).rows.filter fun r => c.eval schema [(⟨t, t⟩, r)]).map (fullRow t)).head?.bind
        (·.head?.bind valueText)) :=
    (select_gives link hlink hp (select_all_run ht hc)).bind (Gives.pure db _)
  rw [← head?_key t]
  exact read

/-- A `DELETE` is done or throws. -/
lemma query_delete_cases {q : Delete} {db : Database} {r : Except Exn Unit} (hp : parse statement = some (.delete q))
    (hq : q.run schema s.db = some db) (h : query link statement s = (r, s')) :
    (r = .ok () ∧ s'.db = db) ∨ ∃ e, r = .error e ∧ s'.db = s.db := by
  unfold query send at h
  cases e : link.fault s.sent with
  | none =>
    simp only [e, hp, hq] at h
    cases h
    exact .inl ⟨rfl, rfl⟩
  | refuse =>
    rw [e] at h
    cases h
    exact .inr ⟨_, rfl, rfl⟩
  | throw =>
    rw [e] at h
    cases h
    exact .inr ⟨_, rfl, rfl⟩

lemma query_delete_returns {q : Delete} {db : Database} (hlink : ∀ n, link.fault n = .none)
    (hp : parse statement = some (.delete q)) (hq : q.run schema s.db = some db) :
    query link statement s = (.ok (), { s with db := db, sent := s.sent + 1 }) := by
  unfold query send
  simp only [hlink, hp, hq]

variable {definition name address port : List UInt8}

/-- The arguments of an unregistration stand for themselves. -/
structure PlainPair (definition name address port : List UInt8) : Prop where
  definition : Plain definition
  name : Plain name
  address : Plain address
  port : Plain port

/-- The arguments pass the checks in front of the statements. -/
def ValidPair (definition name address port : List UInt8) : Prop :=
  definition ≠ [] ∧ name ≠ [] ∧ address ≠ [] ∧ port ≠ [] ∧ ∃ z, stoi port = some z ∧ 0 ≤ z ∧ z ≤ 65535

lemma bound_definition (v : List UInt8) : Cond.bound schema [⟨"service_definition", "service_definition"⟩]
    (.eq (.col none "service_definition") (.lit (.text v))) := rfl

lemma bound_system (name address port : List UInt8) :
    Cond.bound schema [⟨"system_", "system_"⟩] (systemCond name address port) := rfl

lemma bound_pair (d p : Nat) : Cond.bound schema [⟨"service_registry", "service_registry"⟩] (pairCond d p) := rfl

lemma connectionDelete_run (n : Nat) (db : Database) :
    (deleteWhere "service_registry_interface_connection" "service_registry_id" (to_string n)).run schema db =
      some (removeRows "service_registry_interface_connection" (ofEntry n) db) :=
  deleteWhere_run (by decide) _

lemma pairDelete_run (d p : Nat) (db : Database) : Delete.run schema db ⟨"service_registry", some (pairCond d p)⟩ =
    some (removeRows "service_registry" (ofPair d p) db) :=
  delete_run rfl (bound_pair d p)

/-- A row is looked for, and its key goes into what follows. -/
lemma lookup_cases {missing : ErrorResp} {go : Option (List UInt8) → Program (Except ErrorResp Unit)}
    {r : Except Exn (Except ErrorResp Unit)} (hp : parse statement = some (.select ⟨none, ⟨t, t⟩, [], some c, []⟩))
    (ht : (schema t).isSome) (hc : Cond.bound schema [⟨t, t⟩] c)
    (run : Program.run link (do
      let o ← Program.fetchString statement
      if o.getD [] = [] then pure (.error missing) else go o) s = (r, s')) :
    (r ≠ .ok (.ok ()) ∧ s'.db = s.db) ∨
    ∃ x s1, (s.db t).rows.find? (fun r => c.eval schema [(⟨t, t⟩, r)]) = some x ∧ s1.db = s.db ∧
      (go (some (to_string x.id))).run link s1 = (r, s') := by
  rw [Program.run_bind, Program.run_fetchString] at run
  obtain ⟨e, h1, rfl⟩ | ⟨o, s1, h1, run⟩ := bind_cases run
  · exact .inl ⟨by simp, fetchString_db link h1⟩
  obtain ⟨hdb, rfl⟩ := fetchKey_ok hp ht hc h1
  cases hx : (s.db t).rows.find? (fun r => c.eval schema [(⟨t, t⟩, r)]) with
  | none =>
    rw [hx] at run
    cases run
    exact .inl ⟨by simp, hdb⟩
  | some x =>
    rw [hx] at run
    simp only [Option.map_some, Option.getD_some, to_string_ne_nil, if_false] at run
    exact .inr ⟨x, s1, rfl, hdb, run⟩

/-- An unregistration finds nothing, or it removes the connections of the first entry of the pair and then, unless
    the statement fails, the entries of the pair. -/
theorem processUnregister_cases (plain : PlainPair definition name address port) {r : Except Exn (Except ErrorResp Unit)}
    (run : (processUnregister definition name address port).run link s = (r, s')) :
    (r ≠ .ok (.ok ()) ∧ s'.db = s.db) ∨
    ValidPair definition name address port ∧ ∃ d p x, FindsPair s.db definition name address port d p x ∧
      ((r ≠ .ok (.ok ()) ∧ s'.db = removeRows "service_registry_interface_connection" (ofEntry x.id) s.db) ∨
        r = .ok (.ok ()) ∧ s'.db = unregister d.id p.id x.id s.db) := by
  unfold processUnregister at run
  have stop : ∀ {e : Except Exn (Except ErrorResp Unit)} {s s' : Session}, e ≠ .ok (.ok ()) → (e, s) = (r, s') →
      r ≠ .ok (.ok ()) ∧ s'.db = s.db := by
    rintro e s s' he h
    cases h
    exact ⟨he, rfl⟩
  split at run
  · exact .inl (stop (by simp) run)
  split at run
  · exact .inl (stop (by simp) run)
  split at run
  · exact .inl (stop (by simp) run)
  split at run
  · exact .inl (stop (by simp) run)
  cases hz : stoi port with
  | none =>
    simp only [hz] at run
    exact .inl (stop (by simp) run)
  | some z =>
    simp only [hz] at run
    split at run
    · exact .inl (stop (by simp) run)
    have valid : ValidPair definition name address port := ⟨‹_›, ‹_›, ‹_›, ‹_›, z, hz, by omega, by omega⟩
    obtain h | ⟨d, s1, hd, hdb1, run⟩ := lookup_cases (parse_definitionQuery plain.definition) rfl
      (bound_definition _) run
    · exact .inl h
    obtain h | ⟨p, s2, hp, hdb2, run⟩ := lookup_cases (parse_providerQuery plain.name plain.address plain.port) rfl
      (bound_system _ _ _) run
    · exact .inl ⟨h.1, h.2.trans hdb1⟩
    obtain h | ⟨x, s3, hx, hdb3, run⟩ := lookup_cases (parse_pairQuery d.id p.id) rfl (bound_pair _ _) run
    · exact .inl ⟨h.1, h.2.trans (hdb2.trans hdb1)⟩
    rw [hdb1] at hdb2 hp
    rw [hdb2] at hdb3 hx
    have finds : FindsPair s.db definition name address port d p x := ⟨hd, hp, hx⟩
    rw [Program.run_bind, Program.run_query] at run
    obtain ⟨e, h4, rfl⟩ | ⟨u, s4, h4, run⟩ := bind_cases run
    · obtain ⟨h, -⟩ | ⟨-, -, hdb4⟩ := query_delete_cases (parse_connectionDelete (plain_to_string x.id))
        (connectionDelete_run x.id _) h4
      · cases h
      · exact .inl ⟨by simp, hdb4.trans hdb3⟩
    obtain ⟨-, hdb4⟩ | ⟨e, h, -⟩ := query_delete_cases (parse_connectionDelete (plain_to_string x.id))
        (connectionDelete_run x.id _) h4
    · rw [hdb3] at hdb4
      refine .inr ⟨valid, d, p, x, finds, ?_⟩
      rw [Program.run_bind, Program.run_query] at run
      obtain ⟨e, h5, rfl⟩ | ⟨u, s5, h5, run⟩ := bind_cases run
      · obtain ⟨h, -⟩ | ⟨-, -, hdb5⟩ := query_delete_cases (parse_pairDelete d.id p.id) (pairDelete_run _ _ _) h5
        · cases h
        · exact .inl ⟨by simp, hdb5.trans hdb4⟩
      · obtain ⟨-, hdb5⟩ | ⟨e, h, -⟩ := query_delete_cases (parse_pairDelete d.id p.id) (pairDelete_run _ _ _) h5
        · cases run
          rw [hdb4] at hdb5
          exact .inr ⟨rfl, hdb5⟩
        · cases h
    · cases h

/-- Without failures a lookup that finds a row goes on with its key. -/
lemma lookup_returns {missing : ErrorResp} {go : Option (List UInt8) → Program (Except ErrorResp Unit)} {x : Row}
    (hlink : ∀ n, link.fault n = .none) (hp : parse statement = some (.select ⟨none, ⟨t, t⟩, [], some c, []⟩))
    (ht : (schema t).isSome) (hc : Cond.bound schema [⟨t, t⟩] c)
    (hx : (s.db t).rows.find? (fun r => c.eval schema [(⟨t, t⟩, r)]) = some x) :
    ∃ k, Program.run link (do
      let o ← Program.fetchString statement
      if o.getD [] = [] then pure (.error missing) else go o) s =
      (go (some (to_string x.id))).run link { s with sent := k } := by
  obtain ⟨k, h⟩ := fetchKey_gives hlink s.db hp ht hc s rfl
  rw [hx, Option.map_some] at h
  refine ⟨k, ?_⟩
  rw [Program.run_bind, Program.run_fetchString, bind_of_ok h, Option.getD_some, if_neg (to_string_ne_nil _)]

/-- Without failures an unregistration that finds its pair succeeds. -/
theorem processUnregister_returns (hlink : ∀ n, link.fault n = .none) (plain : PlainPair definition name address port)
    (valid : ValidPair definition name address port) {d p x : Row}
    (finds : FindsPair s.db definition name address port d p x) :
    ∃ s', (processUnregister definition name address port).run link s = (.ok (.ok ()), s') := by
  obtain ⟨h1, h2, h3, h4, z, hz, h5, h6⟩ := valid
  have range : ¬(z < 0 ∨ 65535 < z) := by omega
  unfold processUnregister
  simp only [if_neg h1, if_neg h2, if_neg h3, if_neg h4, hz, if_neg range]
  obtain ⟨k1, e1⟩ := lookup_returns hlink (parse_definitionQuery plain.definition) rfl (bound_definition _)
    finds.definition
  rw [e1]
  obtain ⟨k2, e2⟩ := lookup_returns (s := { s with sent := k1 }) hlink
    (parse_providerQuery plain.name plain.address plain.port) rfl (bound_system _ _ _) finds.system
  rw [e2]
  simp only [Option.getD_some]
  obtain ⟨k3, e3⟩ := lookup_returns (s := { s with sent := k2 }) hlink (parse_pairQuery d.id p.id) rfl
    (bound_pair _ _) finds.entry
  rw [e3]
  simp only [Option.getD_some]
  rw [Program.run_bind, Program.run_query, bind_of_ok (query_delete_returns hlink
    (parse_connectionDelete (plain_to_string x.id)) (connectionDelete_run x.id _)), Program.run_bind,
    Program.run_query, bind_of_ok (query_delete_returns hlink (parse_pairDelete d.id p.id) (pairDelete_run _ _ _))]
  exact ⟨_, rfl⟩

end

end ArrowheadCore.ServiceRegistry
