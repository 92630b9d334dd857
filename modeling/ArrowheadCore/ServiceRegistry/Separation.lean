import ArrowheadCore.Lib.Trace
import ArrowheadCore.ServiceRegistry.Interfaces

/-!
# Registrations side by side

Runs of the registry: each step is a request that succeeds, `POST /register`, `POST /mgmt`,
`POST /mgmt/systems` or `POST /mgmt/services`, over any connection. The checks in front of the insertions look
at the system name only and at the service URI only. As long as every registration agrees with the first rows
they find, registrations do not interfere (`registrations_separate`).
-/

namespace ArrowheadCore.ServiceRegistry
open Lib Lib.Sql Json Db

/-! ## The requests of `MgmtPost` -/

section
variable {link : Link} {s s' : Session}

lemma parse_systemQuery {name address port : List UInt8} (hn : Plain name) (ha : Plain address) (hp : Plain port) :
    parse (bytes "SELECT * FROM system_ where system_name = '" ++ (name ++ (bytes "' AND address = '" ++ (address ++
      (bytes "' AND port = '" ++ (port ++ bytes "';")))))) =
    some (.select ⟨none, ⟨"system_", "system_"⟩, [], some (.and (.eq (.col none "system_name") (.lit (.text name)))
      (.and (.eq (.col none "address") (.lit (.text address))) (.eq (.col none "port") (.lit (.text port))))), []⟩) := by
  have l1 : Lexes .idle (bytes "SELECT * FROM system_ where system_name = '") [.kw .select, .sym .star, .kw .from,
      .ident "system_", .kw .where, .ident "system_name", .sym .eq] (.text []) := lexes_bytes (by decide)
  have l2 : Lexes .idle (bytes " AND address = '") [.kw .and, .ident "address", .sym .eq] (.text []) :=
    lexes_bytes (by decide)
  have l3 : Lexes .idle (bytes " AND port = '") [.kw .and, .ident "port", .sym .eq] (.text []) :=
    lexes_bytes (by decide)
  have l4 : Lexes .idle (bytes ";") [.sym .semicolon] .idle := lexes_bytes (by decide)
  have ne : some ' '.toUInt8 ≠ some QUOTE := by decide
  have t3 := l3.append (l4.quoted (delimits_cons _ (by decide)) (by decide) hp)
  have t2 := l2.append (t3.quoted (delimits_cons _ (by decide)) ne ha)
  have t1 := l1.append (t2.quoted (delimits_cons _ (by decide)) ne hn)
  have e1 : bytes "' AND address = '" = QUOTE :: bytes " AND address = '" := by decide
  have e2 : bytes "' AND port = '" = QUOTE :: bytes " AND port = '" := by decide
  have e3 : bytes "';" = QUOTE :: bytes ";" := by decide
  rw [parse, e1, e2, e3, List.cons_append, List.cons_append, lex_of_lexes t1 rfl]
  rfl

lemma select_system_run (name address port : List UInt8) (db : Database) :
    Select.run schema db ⟨none, ⟨"system_", "system_"⟩, [],
      some (.and (.eq (.col none "system_name") (.lit (.text name)))
        (.and (.eq (.col none "address") (.lit (.text address))) (.eq (.col none "port") (.lit (.text port))))), []⟩ =
      some (((db "system_").rows.filter fun r => (r.get "system_name").same (.text name) &&
        ((r.get "address").same (.text address) && (r.get "port").same (.text port))).map (fullRow "system_")) := by
  have c1 : hasColumn schema "system_" "system_name" := by decide
  have c2 : hasColumn schema "system_" "address" := by decide
  have c3 : hasColumn schema "system_" "port" := by decide
  have hb : Select.bound schema ⟨none, ⟨"system_", "system_"⟩, [],
      some (.and (.eq (.col none "system_name") (.lit (.text name)))
        (.and (.eq (.col none "address") (.lit (.text address))) (.eq (.col none "port") (.lit (.text port))))), []⟩ := by
    simp [Select.bound, Select.sources, Expr.bound, Cond.bound, hasColumn_id c1, c1, c2, c3]
  rw [Select.run_table hb]
  simp only [Cond.eval, Expr.eval_column c1, Expr.eval_column c2, Expr.eval_column c3, Select.project,
    List.flatMap_cons, List.flatMap_nil, List.append_nil]
  rfl

/-- The texts of a system stand for themselves. -/
structure SRSystem.Plain (p : SRSystem) : Prop where
  systemName : Sql.Plain p.sSystemName
  address : Sql.Plain p.sAddress
  authInfo : Sql.Plain p.sAuthInfo

/-- A system that is posted with success is stored with its name, address and port. -/
lemma processMgmtPostSystems_ok {root : JsonValue} {p : SRSystem} {a : StSystem}
    (hroot : (validSystem root).run = some (.ok p)) (hp : p.Plain)
    (run : processMgmtPostSystems link (some root) s = (.ok (.ok a), s')) :
    s'.db = (storeSystem link.stamp p.sSystemName p.sAddress p.port p.sAuthInfo s.db).2 ∧
    ∃ x ∈ (s'.db "system_").rows, a.sId = to_string x.id ∧ (x.get "system_name").same (.text p.sSystemName) ∧
      (x.get "address").same (.text p.sAddress) ∧ (x.get "port").same (.text p.sPort) := by
  obtain ⟨p', hp', run⟩ := withPayload_ok run
  have same : p' = p := by simpa using hp'.symm.trans hroot
  subst same
  obtain ⟨r, s1, h1, run⟩ := bind_eq_ok run
  obtain ⟨id, -, hid⟩ := (checks_system p'.port hp.systemName hp.address hp.authInfo).ok h1
  have hdb1 : s1.db = (storeSystem link.stamp p'.sSystemName p'.sAddress p'.port p'.sAuthInfo s.db).2 := by
    rw [storeSystem, ← hid]
  obtain ⟨rows, s2, h2, run⟩ := bind_eq_ok run
  have hparse := parse_systemQuery hp.systemName hp.address (plain_to_string p'.port)
  obtain ⟨hdb2, hrows⟩ := fetch_ok link hparse h2
  cases hrows' : rows.head? with
  | none =>
    rw [hrows'] at run
    cases run
  | some row =>
    rw [hrows'] at run
    cases run
    refine ⟨hdb2.trans hdb1, ?_⟩
    obtain hrows | rfl := hrows
    · rw [select_system_run, Option.some.injEq] at hrows
      have hm := List.mem_of_mem_head? hrows'
      rw [← hrows, List.mem_map] at hm
      obtain ⟨x, hx, rfl⟩ := hm
      rw [List.mem_filter, Bool.and_eq_true, Bool.and_eq_true] at hx
      rw [hdb2]
      exact ⟨x, hx.1, rfl, hx.2.1, hx.2.2.1, hx.2.2.2⟩
    · cases hrows'

lemma processMgmtPostServiceDefinition_ok {root : JsonValue} {definition : List UInt8} {a : StServDef}
    (hroot : (validJSONPayload root).run = some (.ok definition)) (hd : Plain definition)
    (run : processMgmtPostServiceDefinition link (some root) s = (.ok (.ok a), s')) :
    s'.db = (storeDefinition link.stamp definition s.db).2 := by
  obtain ⟨d', hd', run⟩ := withPayload_ok run
  have same : d' = definition := by simpa using hd'.symm.trans hroot
  subst same
  obtain ⟨r, s1, h1, run⟩ := bind_eq_ok run
  obtain ⟨id, -, hid⟩ := (checks_definition hd).ok h1
  have hdb1 : s1.db = (storeDefinition link.stamp d' s.db).2 := by
    rw [storeDefinition, ← hid]
  obtain ⟨rows, s2, h2, run⟩ := bind_eq_ok run
  have hdb2 : s2.db = s1.db := select_db link h2
  cases hrows : rows.head? with
  | none =>
    rw [hrows] at run
    cases run
  | some row =>
    rw [hrows] at run
    cases run
    exact hdb2.trans hdb1

end

/-! ## Runs -/

/-- A request that has succeeded, with what was sent and what came back. -/
inductive Registration where
  | service (e : ServiceRegistryEntry) (a : ServiceQueryData)
  | system (p : SRSystem) (a : StSystem)
  | definition (serviceDefinition : List UInt8) (a : StServDef)

/-- The requests and what they do to the database. -/
inductive Registers (db : Database) : Registration → Database → Prop where
  | service {link root errURL n e a s'} : Accepts root e →
    processRegister link (some root) errURL ⟨db, none, n⟩ = (.ok (.ok a), s') → Registers db (.service e a) s'.db
  | system {link root n p a s'} : (validSystem root).run = some (.ok p) →
    processMgmtPostSystems link (some root) ⟨db, none, n⟩ = (.ok (.ok a), s') → Registers db (.system p a) s'.db
  | definition {link root n definition a s'} : (validJSONPayload root).run = some (.ok definition) →
    processMgmtPostServiceDefinition link (some root) ⟨db, none, n⟩ = (.ok (.ok a), s') →
      Registers db (.definition definition a) s'.db

/-- The row of the entry belongs to its definition and to its provider. -/
def RefersTo (db : Database) (e : ServiceRegistryEntry) (r : Row) : Prop :=
  (∃ d, findRow db "service_definition" "service_definition" (.text e.sServiceDefinition) = some d ∧
    r.get "service_id" = .int d.id) ∧
  ∃ p ∈ (db "system_").rows, r.get "system_id" = .int p.id ∧ IsProvider e p

/-- The request agrees with what is stored: its texts are plain, the first system with the name of its provider
    has the provider's address and port, and the first entry with its URI belongs to its definition and to its
    provider. -/
def Agrees (db : Database) : Registration → Prop
  | .service e _ => e.Plain ∧
    (∀ p, findRow db "system_" "system_name" (.text e.sProviderSystem_SystemName) = some p → IsProvider e p) ∧
    ∀ r, findRow db "service_registry" "service_uri" (.text e.sServiceUri) = some r → RefersTo db e r
  | .system p _ => p.Plain
  | .definition serviceDefinition _ => Plain serviceDefinition

/-- The tables are consistent and every entry has an interface. -/
structure Sound (db : Database) : Prop where
  consistent : Consistent db
  connected : ∀ r ∈ (db "service_registry").rows, HasConnection db r.id

/-- What was registered is stored under the keys of the response. -/
def Found (db : Database) : Registration → Prop
  | .service e a => e.Plain ∧ (∃ p ∈ (db "system_").rows, a.sProvider_id = to_string p.id ∧ IsProvider e p) ∧
    ∃ r ∈ (db "service_registry").rows, a.sId = to_string r.id ∧ r.get "service_uri" = .text e.sServiceUri ∧
      RefersTo db e r
  | .system p a => ∃ x ∈ (db "system_").rows, a.sId = to_string x.id ∧ IsSystem p.sSystemName p.sAddress p.port x
  | .definition _ _ => True

section
variable {db db₁ : Database} {l : Registration}

lemma RefersTo.mono (ext : Extends db db₁) {e : ServiceRegistryEntry} {r : Row} (h : RefersTo db e r) :
    RefersTo db₁ e r := by
  obtain ⟨⟨d, hd, hs⟩, p, hp, hp'⟩ := h
  exact ⟨⟨d, ext.findRow hd, hs⟩, p, ext.mem hp, hp'⟩

lemma Found.mono (ext : Extends db db₁) (h : Found db l) : Found db₁ l := by
  cases l with
  | service e a =>
    obtain ⟨plain, ⟨p, hp, hp'⟩, r, hr, hid, huri, href⟩ := h
    exact ⟨plain, ⟨p, ext.mem hp, hp'⟩, r, ext.mem hr, hid, huri, href.mono ext⟩
  | system p a =>
    obtain ⟨x, hx, hx'⟩ := h
    exact ⟨x, ext.mem hx, hx'⟩
  | definition d a => trivial

lemma HasConnection.mono (ext : Extends db db₁) {n : Nat} (h : HasConnection db n) : HasConnection db₁ n := by
  obtain ⟨c, hc, h⟩ := h
  exact ⟨c, ext.mem hc, h⟩

/-- Steps that leave the entries alone keep a database sound. -/
lemma Sound.of_grows (h : Sound db) (grows : Grows db db₁)
    (same : (db₁ "service_registry").rows = (db "service_registry").rows) : Sound db₁ :=
  ⟨grows.consistent h.consistent, fun r hr => (h.connected r (same ▸ hr)).mono grows.ext⟩

/-- A registration that agrees with the database is found in it afterwards. -/
lemma service_step {link : Link} {root : JsonValue} {errURL : String} {s s' : Session} {e : ServiceRegistryEntry}
    {a : ServiceQueryData} (sound : Sound s.db) (hroot : Accepts root e) (agrees : Agrees s.db (.service e a))
    (run : processRegister link (some root) errURL s = (.ok (.ok a), s')) :
    Extends s.db s'.db ∧ Sound s'.db ∧ Found s'.db (.service e a) := by
  obtain ⟨plain, hsystem, hentry⟩ := agrees
  obtain ⟨k, d, p, r, st, resp⟩ := processRegister_stored hroot plain run
  have cons := st.grows.consistent sound.consistent
  have provider : IsProvider e p := by
    obtain hold | ⟨-, hnew⟩ := st.newProvider
    · exact hsystem p hold
    · exact hnew
  have refers : RefersTo s'.db e r := by
    obtain ⟨hold, -⟩ | ⟨-, -, -, hd, hp, -⟩ := st.newEntry
    · exact (hentry r hold).mono st.grows.ext
    · exact ⟨⟨d, st.definition, hd⟩, p, (findRow_mem st.provider).1, hp, provider⟩
  -- the new entry, if there is one, has got a connection
  have connected : HasConnection s'.db r.id := by
    obtain ⟨rows, hids | hids⟩ | ⟨c, i, is, -, -, rows, h1, -⟩ := st.connections
    · have each := st.interfaces
      rw [hids] at each
      exact absurd (List.forall₂_nil_right_iff.1 each) hroot.interfaces
    · exact ((sound.consistent.findConnection r.id).1 hids).mono st.grows.ext
    · exact ⟨c, by rw [rows]; simp, h1⟩
  refine ⟨st.grows.ext, ⟨cons, ?_⟩, ?_⟩
  · intro x hx
    obtain ⟨-, rows⟩ | ⟨-, rows, -⟩ := st.newEntry
    · exact (sound.connected x (rows ▸ hx)).mono st.grows.ext
    · rw [rows, List.mem_append, List.mem_singleton] at hx
      obtain hx | rfl := hx
      · exact (sound.connected x hx).mono st.grows.ext
      · exact connected
  · refine ⟨plain, ⟨p, (findRow_mem st.provider).1, ?_, provider⟩, r, (findRow_mem st.entry).1, ?_, ?_, refers⟩
    · rw [resp.provider, st.keys.2.1]
    · rw [resp.id, st.keys.2.2]
    · exact cons.found (by simp [textColumns]) st.entry

lemma system_step {link : Link} {root : JsonValue} {s s' : Session} {p : SRSystem} {a : StSystem}
    (sound : Sound s.db) (hroot : (validSystem root).run = some (.ok p)) (plain : p.Plain)
    (run : processMgmtPostSystems link (some root) s = (.ok (.ok a), s')) :
    Extends s.db s'.db ∧ Sound s'.db ∧ Found s'.db (.system p a) := by
  obtain ⟨hdb, x, hx, hid, hname, haddress, hport⟩ := processMgmtPostSystems_ok hroot plain run
  have grows : Grows s.db s'.db := hdb ▸ storeSystem_grows link.stamp s.db _ _ _ _
  have cons := grows.consistent sound.consistent
  have same : (s'.db "service_registry").rows = (s.db "service_registry").rows := by
    rw [hdb, storeSystem_other link.stamp s.db (by decide)]
  refine ⟨grows.ext, sound.of_grows grows same, x, hx, hid, ?_, ?_, ?_⟩
  · exact cons.same_text (t := "system_") (by simp [textColumns]) hx hname
  · exact cons.same_text (t := "system_") (by simp [textColumns]) hx haddress
  · cases e : x.get "port" with
    | null => simp [e, Value.same] at hport
    | int z =>
      rw [e] at hport
      simpa [Value.same, SRSystem.sPort, leadingInt_to_string] using hport
    | text t => exact absurd e (cons.ports x hx t)

lemma definition_step {link : Link} {root : JsonValue} {s s' : Session} {definition : List UInt8} {a : StServDef}
    (sound : Sound s.db) (hroot : (validJSONPayload root).run = some (.ok definition)) (plain : Plain definition)
    (run : processMgmtPostServiceDefinition link (some root) s = (.ok (.ok a), s')) :
    Extends s.db s'.db ∧ Sound s'.db := by
  have hdb := processMgmtPostServiceDefinition_ok hroot plain run
  have grows : Grows s.db s'.db := hdb ▸ storeDefinition_grows link.stamp s.db definition
  have same : (s'.db "service_registry").rows = (s.db "service_registry").rows := by
    rw [hdb]
    refine congrArg Table.rows (ensure_other ?_ link.stamp s.db)
    show "service_registry" ≠ "service_definition"
    decide
  exact ⟨grows.ext, sound.of_grows grows same⟩

/-- One step of a run. -/
lemma registers_step (sound : Sound db) (agrees : Agrees db l) (h : Registers db l db₁) :
    Extends db db₁ ∧ Sound db₁ ∧ Found db₁ l := by
  cases h with
  | service hroot run => exact service_step sound hroot agrees run
  | system hroot run => exact system_step sound hroot agrees run
  | definition hroot run =>
    obtain ⟨ext, sound'⟩ := definition_step sound hroot agrees run
    exact ⟨ext, sound', trivial⟩

end

/-- In a run of requests that agree with what is stored, everything is found. -/
theorem trace_found {db db₁ : Database} {ls : List Registration} (sound : Sound db)
    (h : Trace (fun db l db₁ => Registers db l db₁ ∧ Agrees db l) db ls db₁) :
    Sound db₁ ∧ ∀ l ∈ ls, Found db₁ l := by
  refine h.inv_labels (I := fun ls db => Sound db ∧ ∀ l ∈ ls, Found db l) ⟨sound, by simp⟩ ?_
  rintro ls t l u ⟨sound, found⟩ ⟨step, agrees⟩
  obtain ⟨ext, sound', new⟩ := registers_step sound agrees step
  refine ⟨sound', fun l' hl' => ?_⟩
  rw [List.mem_append, List.mem_singleton] at hl'
  obtain hl' | rfl := hl'
  · exact (found l' hl').mono ext
  · exact new

/-! ## Queries of a sound database -/

section
variable {db : Database}

/-- Every entry can be listed. -/
lemma Sound.queryEntry_ok (sound : Sound db) (sQData : ServiceQueryData) {r : Row}
    (hr : r ∈ (db "service_registry").rows) : ∃ q, queryEntry db sQData r = .ok q := by
  obtain ⟨c, hc, hkey⟩ := sound.connected r hr
  have mem : c ∈ rowsWhere db "service_registry_interface_connection" "service_registry_id"
      (.text (textOf r "id")) := by
    rw [textOf_int (c := "id") (n := r.id) rfl]
    exact List.mem_filter.2 ⟨hc, by rw [hkey, same_key]⟩
  have known : ∀ x ∈ rowsWhere db "service_registry_interface_connection" "service_registry_id"
      (.text (textOf r "id")), ∃ i, interfaceOf db x = some i := by
    intro x hx
    obtain ⟨y, hy, hkey⟩ := sound.consistent.keys ("service_registry_interface_connection", "interface_id",
      "service_interface") (by simp [foreignKeys]) x (List.mem_of_mem_filter hx)
    exact ⟨_, by rw [interfaceOf, textOf_int hkey, findRow_id hy]; rfl⟩
  obtain ⟨intfs, hintfs⟩ := mapM_some_of_forall known
  obtain ⟨p, hp, hsystem⟩ := sound.consistent.keys ("service_registry", "system_id", "system_")
    (by simp [foreignKeys]) r hr
  unfold queryEntry
  cases e : rowsWhere db "service_registry_interface_connection" "service_registry_id" (.text (textOf r "id")) with
  | nil =>
    rw [e] at mem
    cases mem
  | cons x xs =>
    rw [e] at hintfs
    dsimp only
    rw [hintfs, textOf_int hsystem, findRow_id hp]
    exact ⟨_, rfl⟩

/-- A query for a definition lists the entries that refer to it. -/
lemma Sound.queryList_ok (sound : Sound db) {definition : List UInt8} {d r : Row}
    (hd : findRow db "service_definition" "service_definition" (.text definition) = some d)
    (hr : r ∈ (db "service_registry").rows) (hkey : r.get "service_id" = .int d.id) :
    ∃ qs, queryList db definition = .ok qs ∧
      ∃ q ∈ qs, queryEntry db (.ofDefinition (fullRow "service_definition" d)) r = .ok q := by
  have mem : r ∈ rowsWhere db "service_registry" "service_id" (.text (textOf d "id")) := by
    rw [textOf_int (c := "id") (n := d.id) rfl]
    exact List.mem_filter.2 ⟨hr, by rw [hkey, same_key]⟩
  have known : ∀ x ∈ rowsWhere db "service_registry" "service_id" (.text (textOf d "id")),
      ∃ q, queryEntry db (.ofDefinition (fullRow "service_definition" d)) x = .ok q :=
    fun x hx => sound.queryEntry_ok _ (List.mem_of_mem_filter hx)
  obtain ⟨qs, hqs⟩ := mapM_ok_of_forall known
  obtain ⟨q, hq, hrq⟩ := forall₂_exists_left (mapM_ok_mem hqs).flip mem
  refine ⟨qs, ?_, q, hq, hrq⟩
  unfold queryList
  simp only [hd]
  cases e : rowsWhere db "service_registry" "service_id" (.text (textOf d "id")) with
  | nil =>
    rw [e] at mem
    cases mem
  | cons x xs =>
    rw [e] at hqs
    exact hqs

/-- The item of a list of services is the registered service. -/
def Lists (q : ServiceQueryData) (e : ServiceRegistryEntry) (a : ServiceQueryData) : Prop :=
  q.sId = a.sId ∧ q.sServiceDefinition_serviceDefinition = e.sServiceDefinition ∧ q.sServiceUri = e.sServiceUri ∧
    q.sProvider_systemName = e.sProviderSystem_SystemName ∧ q.sProvider_address = e.sProviderSystem_Address ∧
    q.sProvider_port = e.sProviderSystem_Port

lemma textOf_text {r : Row} {c : String} {v : List UInt8} (h : r.get c = .text v) : textOf r c = v := by
  simp [textOf, h, valueText]

/-- What is found is listed by a query for its definition. -/
lemma Found.listed (sound : Sound db) {e : ServiceRegistryEntry} {a : ServiceQueryData}
    (h : Found db (.service e a)) : ∃ qs, queryList db e.sServiceDefinition = .ok qs ∧ ∃ q ∈ qs, Lists q e a := by
  obtain ⟨-, -, r, hr, hid, huri, ⟨d, hd, hservice⟩, p, hp, hsystem, hname, haddress, hport⟩ := h
  obtain ⟨qs, hqs, q, hq, hrq⟩ := sound.queryList_ok hd hr hservice
  refine ⟨qs, hqs, q, hq, ?_⟩
  obtain ⟨intfs, p', -, hp', rfl⟩ := queryEntry_ok hrq
  rw [textOf_int hsystem, findRow_id hp] at hp'
  cases hp'
  have hdef := sound.consistent.found (by simp [textColumns]) hd
  have port : textOf p "port" = e.sProviderSystem_Port := by
    simp [textOf, hport, valueText, ServiceRegistryEntry.sProviderSystem_Port]
  have key : cell (fullRow "service_registry" r) 0 = to_string r.id :=
    (cell_fullRow (c := "id") rfl r).trans (textOf_int rfl)
  refine ⟨key.trans hid.symm, (cell_fullRow (c := "service_definition") rfl d).trans (textOf_text hdef),
    (cell_fullRow (c := "service_uri") rfl r).trans (textOf_text huri),
    (cell_fullRow (c := "system_name") rfl p).trans (textOf_text hname),
    (cell_fullRow (c := "address") rfl p).trans (textOf_text haddress),
    (cell_fullRow (c := "port") rfl p).trans port⟩

end

/-! ## Registrations do not interfere -/

/-- Name, address and port of a provider, and the key of its row. -/
def Registration.provider : Registration → Option ((List UInt8 × List UInt8 × Int) × List UInt8)
  | .service e a => some ((e.sProviderSystem_SystemName, e.sProviderSystem_Address, e.port), a.sProvider_id)
  | .system p a => some ((p.sSystemName, p.sAddress, p.port), a.sId)
  | .definition _ _ => none

/-- Two keys are those of different rows of a table. -/
def DifferentRows (db : Database) (t : String) (k k' : List UInt8) : Prop :=
  ∃ r ∈ (db t).rows, ∃ r' ∈ (db t).rows, k = to_string r.id ∧ k' = to_string r'.id ∧ r ≠ r'

/-- The registrations so far stand side by side: different services are different entries, different providers
    are different systems, and each service is found by a query for its definition. -/
structure Separate (ls : List Registration) (db : Database) : Prop where
  entries : ∀ e a e' a', .service e a ∈ ls → .service e' a' ∈ ls →
    (e.sServiceDefinition, e.sProviderSystem_SystemName, e.sProviderSystem_Address, e.port, e.sServiceUri) ≠
      (e'.sServiceDefinition, e'.sProviderSystem_SystemName, e'.sProviderSystem_Address, e'.port, e'.sServiceUri) →
    DifferentRows db "service_registry" a.sId a'.sId
  providers : ∀ l ∈ ls, ∀ l' ∈ ls, ∀ p k p' k', l.provider = some (p, k) → l'.provider = some (p', k') → p ≠ p' →
    DifferentRows db "system_" k k'
  listed : ∀ e a, .service e a ∈ ls → ∀ (link : Link) (s : Session), (∀ n, link.fault n = .none) → s.db = db →
    ∃ qs s', fillQueryList link e.sServiceDefinition s = (.ok (.ok qs), s') ∧ ∃ q ∈ qs, Lists q e a

section
variable {db : Database}

lemma Found.provider {l : Registration} (h : Found db l) {p : List UInt8 × List UInt8 × Int} {k : List UInt8}
    (hl : l.provider = some (p, k)) : ∃ x ∈ (db "system_").rows, k = to_string x.id ∧ IsSystem p.1 p.2.1 p.2.2 x := by
  cases l with
  | service e a =>
    cases hl
    exact h.2.1
  | system q a =>
    cases hl
    exact h
  | definition d a => cases hl

/-- A row tells which entry it was stored for. -/
lemma Found.entries_ne (cons : Consistent db) {e e' : ServiceRegistryEntry} {a a' : ServiceQueryData}
    (h : Found db (.service e a)) (h' : Found db (.service e' a'))
    (hne : (e.sServiceDefinition, e.sProviderSystem_SystemName, e.sProviderSystem_Address, e.port, e.sServiceUri) ≠
      (e'.sServiceDefinition, e'.sProviderSystem_SystemName, e'.sProviderSystem_Address, e'.port, e'.sServiceUri)) :
    DifferentRows db "service_registry" a.sId a'.sId := by
  obtain ⟨-, -, r, hr, hid, huri, ⟨d, hd, hservice⟩, p, hp, hsystem, hname, haddress, hport⟩ := h
  obtain ⟨-, -, r', hr', hid', huri', ⟨d', hd', hservice'⟩, p', hp', hsystem', hname', haddress', hport'⟩ := h'
  refine ⟨r, hr, r', hr', hid, hid', ?_⟩
  rintro rfl
  have ed : d = d' := by
    refine (db "service_definition").row_unique (findRow_mem hd).1 (findRow_mem hd').1 ?_
    rw [hservice] at hservice'
    simpa using hservice'
  have ep : p = p' := by
    refine (db "system_").row_unique hp hp' ?_
    rw [hsystem] at hsystem'
    simpa using hsystem'
  subst ed ep
  have e1 := (cons.found (by simp [textColumns]) hd).symm.trans (cons.found (by simp [textColumns]) hd')
  have e2 := hname.symm.trans hname'
  have e3 := haddress.symm.trans haddress'
  have e4 := hport.symm.trans hport'
  have e5 := huri.symm.trans huri'
  simp only [Value.text.injEq, Value.int.injEq] at e1 e2 e3 e4 e5
  exact hne (by rw [e1, e2, e3, e4, e5])

end

lemma sound_empty : Sound emptyDatabase := ⟨consistent_empty, by simp [emptyDatabase]⟩

end ArrowheadCore.ServiceRegistry
