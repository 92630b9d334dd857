import ArrowheadCore.Db.Session

/-!
# Inserting authorization rules

Embedding of `insRecord` of `Queries::IntraCloud` and `Queries::InterCloud`
(`core/apps/Authorization/queries`). Both insert, under one transaction, a rule for every pair of a provider
and a service and a connection of every rule to every interface. They differ in the texts of the two
statements, which are parameters here.
-/

namespace ArrowheadCore.Authorization
open Lib Lib.Sql Db

/-- C++ `Models::IntraCloud` -/
structure IntraCloud where
  consumerId : Nat
  providerIds : List Nat
  interfaceIds : List Nat
  serviceDefIds : List Nat

/-- C++ `Models::InterCloud` -/
structure InterCloud where
  cloudId : Int
  providerIds : List Int
  interfaceIds : List Int
  serviceDefIds : List Int

section
variable (link : Link) (rule connection : List UInt8)

/-- The innermost loop: one connection for every interface. -/
def insConnections (id : Nat) : List Int → DbM Unit
  | [] => pure ()
  | iface :: ifaces => do
    let iq := connection ++ (to_string id ++ (bytes "," ++ (to_string iface ++ bytes ")")))
    match ← insert link iq with
    | some _ => insConnections id ifaces
    | none => throwExn (.runtimeError "Cannot insert interface.")

/-- One rule with its connections. -/
def insRule (consumer provider service : Int) (ifaces : List Int) : DbM Nat := do
  let q := rule ++ (to_string consumer ++ (bytes "," ++ (to_string provider ++ (bytes "," ++
    (to_string service ++ bytes ")")))))
  match ← insert link q with
  | some id => do
    insConnections link connection id ifaces
    pure id
  | none => throwExn (.runtimeError "Cannot insert record.")

/-- The loop over the services of one provider. -/
def insServices (consumer provider : Int) (ifaces : List Int) (ids : List Nat) : List Int → DbM (List Nat)
  | [] => pure ids
  | service :: services => do
    let id ← insRule link rule connection consumer provider service ifaces
    insServices consumer provider ifaces (ids ++ [id]) services

/-- The loop over the providers. -/
def insProviders (consumer : Int) (services ifaces : List Int) (ids : List Nat) : List Int → DbM (List Nat)
  | [] => pure ids
  | provider :: providers => do
    let ids ← insServices link rule connection consumer provider ifaces ids services
    insProviders consumer services ifaces ids providers

/-- All rules in one transaction. -/
def insRules (consumer : Int) (providers services ifaces : List Int) : DbM (List Nat) :=
  transactionLock link (insProviders link rule connection consumer services ifaces [] providers)

end

/-- C++ `Queries::IntraCloud::insRecord` -/
def IntraCloud.insRecord (link : Link) (model : IntraCloud) : DbM (List Nat) :=
  insRules link
    (bytes "INSERT INTO authorization_intra_cloud (consumer_system_id, provider_system_id, service_id) VALUES (")
    (bytes "INSERT INTO authorization_intra_cloud_interface_connection " ++
      bytes "(authorization_intra_cloud_id, interface_id) VALUES (")
    model.consumerId (model.providerIds.map (↑)) (model.serviceDefIds.map (↑)) (model.interfaceIds.map (↑))

/-- C++ `Queries::InterCloud::insRecord` -/
def InterCloud.insRecord (link : Link) (model : InterCloud) : DbM (List Nat) :=
  insRules link
    (bytes "INSERT INTO authorization_inter_cloud (consumer_cloud_id, provider_system_id, service_id) VALUES (")
    (bytes "INSERT INTO authorization_inter_cloud_interface_connection " ++
      bytes "(authorization_inter_cloud_id, interface_id) VALUES (")
    model.cloudId model.providerIds model.serviceDefIds model.interfaceIds

/-! ## The statements -/

/-- The values of a statement. -/
def valuesText : List Int → List UInt8
  | [] => bytes ")"
  | [z] => to_string z ++ bytes ")"
  | z :: w :: zs => to_string z ++ (bytes "," ++ valuesText (w :: zs))

lemma lexes_values : ∀ {zs : List Int}, zs ≠ [] →
    Lexes .idle (valuesText zs) (commas Value.tokens (zs.map .int) ++ [Token.sym .rparen]) .idle
  | [], h => absurd rfl h
  | [z], _ => by
    have close : Lexes .idle (bytes ")") [.sym .rparen] .idle := lexes_bytes (by decide)
    exact close.to_string (delimits_cons _ (by decide)) z
  | z :: w :: zs, _ => by
    have ih := lexes_values (List.cons_ne_nil w zs)
    have comma : Lexes .idle (bytes ",") [.sym .comma] .idle := lexes_bytes (by decide)
    have := (comma.append ih).to_string (delimits_cons _ (by decide)) z
    simpa [valuesText, commas, Value.tokens] using this

/-- A statement as far as its values. -/
def Begins (head : List UInt8) (table : String) (columns : List String) : Prop :=
  Lexes .idle head
    (.kw .insert :: .kw .into :: .ident table :: .sym .lparen ::
      (commas (fun c => [.ident c]) columns ++ [Token.sym .rparen, .kw .values, .sym .lparen])) .idle

lemma parse_values {head : List UInt8} {table : String} {columns : List String} {zs : List Int}
    (h : Begins head table columns) (hc : columns ≠ []) (hz : zs ≠ []) :
    parse (head ++ valuesText zs) = some (.insert ⟨table, columns, zs.map .int⟩) := by
  have hl := lex_of_lexes (h.append (lexes_values hz)) rfl
  have hp : parseTokens (Insert.tokens ⟨table, columns, zs.map .int⟩ ++ []) =
      some (.insert ⟨table, columns, zs.map .int⟩) :=
    parseTokens_insert hc (by simpa using hz) (by simp) (.inl rfl)
  rw [parse, hl, Option.bind_eq_bind, Option.bind_some, ← hp]
  simp [Insert.tokens]

/-! ## What is inserted -/

/-- The two tables and their columns. -/
structure RuleTables where
  rules : String
  ruleColumns : List String
  connections : String
  connectionColumns : List String

/-- The rows that are new in `b`, and that nothing else has changed. -/
structure Grown (T : RuleTables) (a b : Database) (rules connections : List Row) : Prop where
  rules : (b T.rules).rows = (a T.rules).rows ++ rules
  connections : (b T.connections).rows = (a T.connections).rows ++ connections
  others : ∀ t, t ≠ T.rules → t ≠ T.connections → b t = a t

lemma Grown.refl (T : RuleTables) (a : Database) : Grown T a a [] [] := ⟨by simp, by simp, fun _ _ _ => rfl⟩

lemma Grown.trans {T : RuleTables} {a b c : Database} {rs rs' cs cs' : List Row} (h : Grown T a b rs cs)
    (h' : Grown T b c rs' cs') : Grown T a c (rs ++ rs') (cs ++ cs') :=
  ⟨by rw [h'.rules, h.rules, List.append_assoc], by rw [h'.connections, h.connections, List.append_assoc],
    fun t h1 h2 => (h'.others t h1 h2).trans (h.others t h1 h2)⟩

/-- The database has gained the rules with the keys `ids`, one for each pair of a provider and a service in
    this order, each with one connection for each interface, and nothing else. -/
def Inserted (T : RuleTables) (consumer : Int) (ifaces : List Int) (pairs : List (Int × Int)) (ids : List Nat)
    (a b : Database) : Prop :=
  ∃ rules connections, Grown T a b rules connections ∧ rules.map Row.id = ids ∧
    rules.map (fun r => T.ruleColumns.map r.get) =
      pairs.map (fun p => [.int consumer, .int p.1, .int p.2]) ∧
    connections.map (fun r => T.connectionColumns.map r.get) =
      ids.flatMap fun id => ifaces.map fun i => [.int id, .int i]

lemma Inserted.refl (T : RuleTables) (consumer : Int) (ifaces : List Int) (a : Database) :
    Inserted T consumer ifaces [] [] a a := ⟨[], [], .refl T a, rfl, rfl, rfl⟩

lemma Inserted.trans {T : RuleTables} {consumer : Int} {ifaces : List Int} {ps ps' : List (Int × Int)}
    {ids ids' : List Nat} {a b c : Database} (h : Inserted T consumer ifaces ps ids a b)
    (h' : Inserted T consumer ifaces ps' ids' b c) :
    Inserted T consumer ifaces (ps ++ ps') (ids ++ ids') a c := by
  obtain ⟨rs, cs, hg, h1, h2, h3⟩ := h
  obtain ⟨rs', cs', hg', h1', h2', h3'⟩ := h'
  exact ⟨rs ++ rs', cs ++ cs', hg.trans hg', by simp [h1, h1'], by simp [h2, h2'], by simp [h3, h3']⟩

/-- The texts of the statements name these tables. -/
structure RuleTables.Spells (T : RuleTables) (rule connection : List UInt8) : Prop where
  rule : Begins rule T.rules T.ruleColumns
  connection : Begins connection T.connections T.connectionColumns
  tables : T.rules ≠ T.connections
  rule_ne : T.ruleColumns ≠ []
  connection_ne : T.connectionColumns ≠ []
  rule_id : "id" ∉ T.ruleColumns
  connection_id : "id" ∉ T.connectionColumns

section
variable {link : Link} {T : RuleTables} {rule connection : List UInt8} {s s' : Session}

lemma insConnections_ok (h : T.Spells rule connection) {id : Nat} :
    ∀ {ifaces : List Int} {s : Session}, insConnections link connection id ifaces s = (.ok (), s') →
      ∃ cs, Grown T s.db s'.db [] cs ∧
        cs.map (fun r => T.connectionColumns.map r.get) = ifaces.map fun i => [.int id, .int i]
  | [], s, run => by
    cases run
    exact ⟨[], .refl T _, rfl⟩
  | i :: ifaces, s, run => by
    obtain ⟨r, s1, h1, h2⟩ := bind_eq_ok run
    cases r with
    | none => cases h2
    | some cid =>
      have hp : parse (connection ++ valuesText [id, i]) = _ := parse_values h.connection h.connection_ne (by simp)
      obtain ⟨c, -, hrows, hcols, hother⟩ := Insert.run_some (insert_some link hp h1) h.connection_id
      have step : Grown T s.db s1.db [] [c] :=
        ⟨by rw [hother _ h.tables, List.append_nil], hrows, fun t _ ht => hother t ht⟩
      obtain ⟨cs, hg, hcs⟩ := insConnections_ok h h2
      exact ⟨c :: cs, step.trans hg, by simp only [List.map_cons, hcs, hcols]; rfl⟩

lemma insRule_ok (h : T.Spells rule connection) {consumer provider service : Int} {ifaces : List Int} {id : Nat}
    (run : insRule link rule connection consumer provider service ifaces s = (.ok id, s')) :
    Inserted T consumer ifaces [(provider, service)] [id] s.db s'.db := by
  obtain ⟨r, s1, h1, h2⟩ := bind_eq_ok run
  cases r with
  | none => cases h2
  | some rid =>
    obtain ⟨u, s2, h3, h4⟩ := bind_eq_ok h2
    cases h4
    have hp : parse (rule ++ valuesText [consumer, provider, service]) = _ :=
      parse_values h.rule h.rule_ne (by simp)
    obtain ⟨r, hid, hrows, hcols, hother⟩ := Insert.run_some (insert_some link hp h1) h.rule_id
    have step : Grown T s.db s1.db [r] [] :=
      ⟨hrows, by rw [hother _ h.tables.symm, List.append_nil], fun t ht _ => hother t ht⟩
    obtain ⟨cs, hg, hcs⟩ := insConnections_ok h h3
    refine ⟨[r], cs, step.trans hg, by simp [hid], ?_, by simpa using hcs⟩
    simp only [List.map_cons, List.map_nil, hcols]

lemma insServices_ok (h : T.Spells rule connection) {consumer provider : Int} {ifaces : List Int} :
    ∀ {services : List Int} {ids ids' : List Nat} {s : Session},
      insServices link rule connection consumer provider ifaces ids services s = (.ok ids', s') →
      ∃ new, ids' = ids ++ new ∧
        Inserted T consumer ifaces (services.map fun service => (provider, service)) new s.db s'.db
  | [], ids, _, s, run => by
    cases run
    exact ⟨[], by simp, .refl T consumer ifaces _⟩
  | service :: services, ids, ids', s, run => by
    obtain ⟨id, s1, h1, h2⟩ := bind_eq_ok run
    obtain ⟨new, rfl, hi⟩ := insServices_ok h h2
    exact ⟨id :: new, by simp, (insRule_ok h h1).trans hi⟩

lemma insProviders_ok (h : T.Spells rule connection) {consumer : Int} {services ifaces : List Int} :
    ∀ {providers : List Int} {ids ids' : List Nat} {s : Session},
      insProviders link rule connection consumer services ifaces ids providers s = (.ok ids', s') →
      ∃ new, ids' = ids ++ new ∧
        Inserted T consumer ifaces
          (providers.flatMap fun provider => services.map fun service => (provider, service)) new s.db s'.db
  | [], ids, _, s, run => by
    cases run
    exact ⟨[], by simp, .refl T consumer ifaces _⟩
  | provider :: providers, ids, ids', s, run => by
    obtain ⟨ids1, s1, h1, h2⟩ := bind_eq_ok run
    obtain ⟨new1, rfl, hi1⟩ := insServices_ok h h1
    obtain ⟨new2, rfl, hi2⟩ := insProviders_ok h h2
    exact ⟨new1 ++ new2, by simp, hi1.trans hi2⟩

lemma insConnections_keeps (id : Nat) :
    ∀ ifaces, KeepsTransaction (insConnections link connection id ifaces)
  | [] => fun _ => rfl
  | _ :: ifaces => by
    refine KeepsTransaction.bind (insert_keeps link _) fun r => ?_
    cases r with
    | none => exact throwExn_keeps _
    | some _ => exact insConnections_keeps id ifaces

lemma insRule_keeps (consumer provider service : Int) (ifaces : List Int) :
    KeepsTransaction (insRule link rule connection consumer provider service ifaces) := by
  refine KeepsTransaction.bind (insert_keeps link _) fun r => ?_
  cases r with
  | none => exact throwExn_keeps _
  | some id => exact KeepsTransaction.bind (insConnections_keeps id ifaces) fun _ _ => rfl

lemma insServices_keeps (consumer provider : Int) (ifaces : List Int) :
    ∀ services ids, KeepsTransaction (insServices link rule connection consumer provider ifaces ids services)
  | [], _ => fun _ => rfl
  | service :: services, _ =>
    KeepsTransaction.bind (insRule_keeps consumer provider service ifaces) fun _ =>
      insServices_keeps consumer provider ifaces services _

lemma insProviders_keeps (consumer : Int) (services ifaces : List Int) :
    ∀ providers ids, KeepsTransaction (insProviders link rule connection consumer services ifaces ids providers)
  | [], _ => fun _ => rfl
  | provider :: providers, _ =>
    KeepsTransaction.bind (insServices_keeps consumer provider ifaces services _) fun _ =>
      insProviders_keeps consumer services ifaces providers _

/-- The outcome of inserting rules: an exception and the old rows, or all rules and their keys. -/
def AllOrNothing (T : RuleTables) (consumer : Int) (providers services ifaces : List Int) (before : Database)
    (r : Except Exn (List Nat) × Session) : Prop :=
  r.2.saved = none ∧
  match r.1 with
  | .error _ => SameRows r.2.db before
  | .ok ids =>
    Inserted T consumer ifaces
      (providers.flatMap fun provider => services.map fun service => (provider, service)) ids before r.2.db

lemma insRules_allOrNothing (h : T.Spells rule connection) (consumer : Int) (providers services ifaces : List Int)
    (hs : s.saved = none) :
    AllOrNothing T consumer providers services ifaces s.db
      (insRules link rule connection consumer providers services ifaces s) := by
  unfold insRules
  obtain ⟨e, s', run, h1, h2⟩ | ⟨ids, s', s1, s2, run, h1, h2, h3, h4⟩ :=
    transactionLock_cases link (insProviders_keeps consumer services ifaces providers []) hs
  · rw [run]
    exact ⟨h1, h2⟩
  · obtain ⟨new, rfl, hi⟩ := insProviders_ok h h3
    rw [run]
    refine ⟨h1, ?_⟩
    rw [← h2, h4]
    exact hi

/-- The statements fit the tables, whatever the values. -/
def RuleTables.Fits (T : RuleTables) : Prop :=
  (∀ c p s, Insert.fits schema ⟨T.rules, T.ruleColumns, [.int c, .int p, .int s]⟩) ∧
    ∀ r i, Insert.fits schema ⟨T.connections, T.connectionColumns, [.int r, .int i]⟩

lemma insConnections_returns (hlink : ∀ n, link.fault n = .none) (h : T.Spells rule connection) (hf : T.Fits)
    (id : Nat) : ∀ ifaces, Returns (fun _ => True) (insConnections link connection id ifaces)
  | [] => fun s => ⟨(), s, rfl, trivial⟩
  | i :: ifaces => by
    have hp : parse (connection ++ valuesText [id, i]) = _ := parse_values h.connection h.connection_ne (by simp)
    refine Returns.bind (insert_returns link hlink hp (hf.2 id i)) fun r hr => ?_
    cases r with
    | none => cases hr
    | some _ => exact insConnections_returns hlink h hf id ifaces

lemma insRule_returns (hlink : ∀ n, link.fault n = .none) (h : T.Spells rule connection) (hf : T.Fits)
    (consumer provider service : Int) (ifaces : List Int) :
    Returns (fun _ => True) (insRule link rule connection consumer provider service ifaces) := by
  have hp : parse (rule ++ valuesText [consumer, provider, service]) = _ :=
    parse_values h.rule h.rule_ne (by simp)
  refine Returns.bind (insert_returns link hlink hp (hf.1 consumer provider service)) fun r hr => ?_
  cases r with
  | none => cases hr
  | some id =>
    exact Returns.bind (insConnections_returns hlink h hf id ifaces) fun _ _ s => ⟨id, s, rfl, trivial⟩

lemma insServices_returns (hlink : ∀ n, link.fault n = .none) (h : T.Spells rule connection) (hf : T.Fits)
    (consumer provider : Int) (ifaces : List Int) :
    ∀ services ids,
      Returns (fun _ => True) (insServices link rule connection consumer provider ifaces ids services)
  | [], ids => fun s => ⟨ids, s, rfl, trivial⟩
  | service :: services, _ =>
    Returns.bind (insRule_returns hlink h hf consumer provider service ifaces) fun _ _ =>
      insServices_returns hlink h hf consumer provider ifaces services _

lemma insProviders_returns (hlink : ∀ n, link.fault n = .none) (h : T.Spells rule connection) (hf : T.Fits)
    (consumer : Int) (services ifaces : List Int) :
    ∀ providers ids,
      Returns (fun _ => True) (insProviders link rule connection consumer services ifaces ids providers)
  | [], ids => fun s => ⟨ids, s, rfl, trivial⟩
  | provider :: providers, _ =>
    Returns.bind (insServices_returns hlink h hf consumer provider ifaces services _) fun _ _ =>
      insProviders_returns hlink h hf consumer services ifaces providers _

end

/-- The tables of `Queries::IntraCloud`. -/
def intraTables : RuleTables :=
  ⟨"authorization_intra_cloud", ["consumer_system_id", "provider_system_id", "service_id"],
    "authorization_intra_cloud_interface_connection", ["authorization_intra_cloud_id", "interface_id"]⟩

/-- The tables of `Queries::InterCloud`. -/
def interTables : RuleTables :=
  ⟨"authorization_inter_cloud", ["consumer_cloud_id", "provider_system_id", "service_id"],
    "authorization_inter_cloud_interface_connection", ["authorization_inter_cloud_id", "interface_id"]⟩

lemma intraTables_spells : intraTables.Spells
    (bytes "INSERT INTO authorization_intra_cloud (consumer_system_id, provider_system_id, service_id) VALUES (")
    (bytes "INSERT INTO authorization_intra_cloud_interface_connection " ++
      bytes "(authorization_intra_cloud_id, interface_id) VALUES (") := by
  have c1 : Lexes .idle (bytes "INSERT INTO authorization_intra_cloud_interface_connection ")
      [.kw .insert, .kw .into, .ident "authorization_intra_cloud_interface_connection"] .idle :=
    lexes_bytes (by decide)
  have c2 : Lexes .idle (bytes "(authorization_intra_cloud_id, interface_id) VALUES (")
      (.sym .lparen :: (commas (fun c => [.ident c]) intraTables.connectionColumns ++
        [Token.sym .rparen, .kw .values, .sym .lparen])) .idle :=
    lexes_bytes (by decide)
  exact ⟨lexes_bytes (by decide), c1.append c2, by decide, by decide, by decide, by decide, by decide⟩

lemma interTables_spells : interTables.Spells
    (bytes "INSERT INTO authorization_inter_cloud (consumer_cloud_id, provider_system_id, service_id) VALUES (")
    (bytes "INSERT INTO authorization_inter_cloud_interface_connection " ++
      bytes "(authorization_inter_cloud_id, interface_id) VALUES (") := by
  have c1 : Lexes .idle (bytes "INSERT INTO authorization_inter_cloud_interface_connection ")
      [.kw .insert, .kw .into, .ident "authorization_inter_cloud_interface_connection"] .idle :=
    lexes_bytes (by decide)
  have c2 : Lexes .idle (bytes "(authorization_inter_cloud_id, interface_id) VALUES (")
      (.sym .lparen :: (commas (fun c => [.ident c]) interTables.connectionColumns ++
        [Token.sym .rparen, .kw .values, .sym .lparen])) .idle :=
    lexes_bytes (by decide)
  exact ⟨lexes_bytes (by decide), c1.append c2, by decide, by decide, by decide, by decide, by decide⟩

lemma intraTables_fits : intraTables.Fits := ⟨fun _ _ _ => rfl, fun _ _ => rfl⟩

lemma interTables_fits : interTables.Fits := ⟨fun _ _ _ => rfl, fun _ _ => rfl⟩

/-- Both `insRecord` are all or nothing, wherever a statement fails: an exception leaves the rows of every
    table as they were, and the keys that are returned are those of the rules that were inserted. Without
    failures they are inserted. -/
theorem insRecord_all_or_nothing (link : Link) (before : Database) (sent : Nat) :
    (∀ m : IntraCloud,
      AllOrNothing intraTables m.consumerId (m.providerIds.map (↑)) (m.serviceDefIds.map (↑))
        (m.interfaceIds.map (↑)) before (m.insRecord link ⟨before, none, sent⟩) ∧
      ((∀ n, link.fault n = .none) → ∃ ids, (m.insRecord link ⟨before, none, sent⟩).1 = .ok ids)) ∧
    ∀ m : InterCloud,
      AllOrNothing interTables m.cloudId m.providerIds m.serviceDefIds m.interfaceIds before
        (m.insRecord link ⟨before, none, sent⟩) ∧
      ((∀ n, link.fault n = .none) → ∃ ids, (m.insRecord link ⟨before, none, sent⟩).1 = .ok ids) := by
  refine ⟨fun m => ⟨insRules_allOrNothing intraTables_spells _ _ _ _ rfl, fun hlink => ?_⟩,
    fun m => ⟨insRules_allOrNothing interTables_spells _ _ _ _ rfl, fun hlink => ?_⟩⟩
  · obtain ⟨ids, s', h, -⟩ := transactionLock_returns link hlink
      (insProviders_returns hlink intraTables_spells intraTables_fits _ _ _ _ _) ⟨before, none, sent⟩
    exact ⟨ids, congrArg Prod.fst h⟩
  · obtain ⟨ids, s', h, -⟩ := transactionLock_returns link hlink
      (insProviders_returns hlink interTables_spells interTables_fits _ _ _ _ _) ⟨before, none, sent⟩
    exact ⟨ids, congrArg Prod.fst h⟩

end ArrowheadCore.Authorization
