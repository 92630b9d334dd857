import ArrowheadCore.ServiceRegistry.Query

/-!
# Consistent databases

What the schema promises of the tables of the registry: text columns hold no numbers, the port is no text,
and foreign keys refer to rows. Finding or inserting rows keeps it and never removes or changes a row.
-/

namespace ArrowheadCore.ServiceRegistry
open Lib Lib.Sql Db

/-! ## Rows are only added -/

/-- Every table keeps its rows, new ones stand behind them. -/
def Extends (db db₁ : Database) : Prop := ∀ t, (db t).rows <+: (db₁ t).rows

namespace Extends
variable {db db₁ db₂ : Database} {t c : String} {v : Value} {r : Row}

lemma refl (db : Database) : Extends db db := fun _ => List.prefix_rfl

lemma trans (h : Extends db db₁) (h' : Extends db₁ db₂) : Extends db db₂ := fun t => (h t).trans (h' t)

lemma mem (h : Extends db db₁) (hr : r ∈ (db t).rows) : r ∈ (db₁ t).rows := (h t).subset hr

/-- The first row with a value stays the first one. -/
lemma findRow (h : Extends db db₁) (hr : findRow db t c v = some r) : findRow db₁ t c v = some r := by
  obtain ⟨rest, e⟩ := h t
  unfold ServiceRegistry.findRow at hr ⊢
  rw [← e, List.find?_append, hr]
  rfl

end Extends

lemma findRow_mem {db : Database} {t c : String} {v : Value} {r : Row} (h : findRow db t c v = some r) :
    r ∈ (db t).rows ∧ (r.get c).same v :=
  ⟨List.mem_of_find?_eq_some h, by simpa using List.find?_some h⟩

lemma extends_append (db : Database) (t : String) (cells : String → Value) :
    Extends db (Function.update db t ((db t).append cells)) := by
  intro u
  rcases eq_or_ne u t with rfl | hu
  · rw [Function.update_self]
    exact List.prefix_append _ _
  · simp only [Function.update_of_ne hu, List.prefix_rfl]

/-- Other tables are left alone. -/
lemma ensure_other {q : Insert} {c : String} {v : Value} {t : String} (ht : t ≠ q.table)
    (stamp : String → Nat → List UInt8) (db : Database) : (ensure stamp q c v db).2 t = db t := by
  unfold ensure
  cases findRow db q.table c v with
  | some r => rfl
  | none => exact Function.update_of_ne ht _ _

/-- What `ensure` finds or inserts. -/
lemma ensure_spec {q : Insert} {c : String} {v : Value} (hq : Storable q c v) (stamp : String → Nat → List UInt8)
    (db : Database) :
    ∃ r, (ensure stamp q c v db).1 = r.id ∧ findRow (ensure stamp q c v db).2 q.table c v = some r ∧
      ((findRow db q.table c v = some r ∧ (ensure stamp q c v db).2 = db) ∨
        (findRow db q.table c v = none ∧ r.id = (db q.table).lastId + 1 ∧ q.columns.map r.get = q.values ∧
          ((ensure stamp q c v db).2 q.table).rows = (db q.table).rows ++ [r] ∧
          (ensure stamp q c v db).2 = Function.update db q.table ((db q.table).append r.cells))) := by
  unfold ensure
  cases hf : findRow db q.table c v with
  | some r => exact ⟨r, rfl, hf, .inl ⟨rfl, rfl⟩⟩
  | none =>
    have hrun : q.run schema db stamp = some ((db q.table).lastId + 1, Function.update db q.table
        ((db q.table).append (q.cells schema stamp ((db q.table).lastId + 1)))) := by
      rw [Insert.run, if_pos hq.fits]
    obtain ⟨r, hr, hrows, hvalues, -⟩ := Insert.run_some hrun hq.noKey
    rw [Function.update_self] at hrows
    have er : ⟨(db q.table).lastId + 1, q.cells schema stamp ((db q.table).lastId + 1)⟩ = r := by
      have := List.append_cancel_left hrows
      exact List.head_eq_of_cons_eq this
    subst er
    refine ⟨_, rfl, ?_, .inr ⟨rfl, rfl, hvalues, ?_, rfl⟩⟩
    · unfold findRow at hf ⊢
      dsimp only
      rw [Function.update_self]
      show List.find? _ ((db q.table).rows ++ [_]) = _
      rw [List.find?_append, hf]
      simp [hq.found _ hvalues]
    · dsimp only
      rw [Function.update_self]
      rfl

/-! ## Consistency -/

/-- The text columns that rows are found by. -/
def textColumns : List (String × String) :=
  [("service_definition", "service_definition"), ("system_", "system_name"), ("system_", "address"),
    ("service_interface", "interface_name"), ("service_registry", "service_uri")]

/-- The columns that hold keys of other tables. -/
def foreignKeys : List (String × String × String) :=
  [("service_registry", "service_id", "service_definition"), ("service_registry", "system_id", "system_"),
    ("service_registry_interface_connection", "service_registry_id", "service_registry"),
    ("service_registry_interface_connection", "interface_id", "service_interface")]

structure Consistent (db : Database) : Prop where
  texts : ∀ k ∈ textColumns, ∀ r ∈ (db k.1).rows, ∀ z, r.get k.2 ≠ .int z
  ports : ∀ r ∈ (db "system_").rows, ∀ s, r.get "port" ≠ .text s
  keys : ∀ k ∈ foreignKeys, ∀ r ∈ (db k.1).rows, ∃ x ∈ (db k.2.2).rows, r.get k.2.1 = .int x.id

/-- The row `r` of the table `t` keeps to the promises. -/
structure Promises (db : Database) (t : String) (r : Row) : Prop where
  texts : ∀ k ∈ textColumns, k.1 = t → ∀ z, r.get k.2 ≠ .int z
  ports : t = "system_" → ∀ s, r.get "port" ≠ .text s
  keys : ∀ k ∈ foreignKeys, k.1 = t → ∃ x ∈ (db k.2.2).rows, r.get k.2.1 = .int x.id

/-- A row of the database behind an insertion is an old one or the new one. -/
lemma mem_append_row {db : Database} {t u : String} {r x : Row} (hr : r.id = (db t).lastId + 1)
    (hx : x ∈ (Function.update db t ((db t).append r.cells) u).rows) : x ∈ (db u).rows ∨ u = t ∧ x = r := by
  rcases eq_or_ne u t with rfl | hu
  · rw [Function.update_self] at hx
    obtain hx | hx := List.mem_append.1 hx
    · exact .inl hx
    · rw [List.mem_singleton] at hx
      exact .inr ⟨rfl, by rw [hx, ← hr]⟩
  · rw [Function.update_of_ne hu] at hx
    exact .inl hx

lemma Consistent.append {db : Database} (h : Consistent db) {t : String} {r : Row}
    (hr : r.id = (db t).lastId + 1) (new : Promises db t r) :
    Consistent (Function.update db t ((db t).append r.cells)) := by
  have mem := fun u x hx => mem_append_row (u := u) (x := x) hr hx
  have ext := extends_append db t r.cells
  refine ⟨fun k hk x hx z => ?_, fun x hx s => ?_, fun k hk x hx => ?_⟩
  · obtain hx | ⟨e, rfl⟩ := mem _ x hx
    · exact h.texts k hk x hx z
    · exact new.texts k hk e z
  · obtain hx | ⟨e, rfl⟩ := mem _ x hx
    · exact h.ports x hx s
    · exact new.ports e.symm s
  · obtain hx | ⟨e, rfl⟩ := mem _ x hx
    · obtain ⟨y, hy, e⟩ := h.keys k hk x hx
      exact ⟨y, ext.mem hy, e⟩
    · obtain ⟨y, hy, e⟩ := new.keys k hk e
      exact ⟨y, ext.mem hy, e⟩

/-- In a text column what equals a text is that text. -/
lemma Consistent.same_text {db : Database} (h : Consistent db) {t c : String} (hc : (t, c) ∈ textColumns)
    {r : Row} {v : List UInt8} (hm : r ∈ (db t).rows) (hs : (r.get c).same (.text v)) : r.get c = .text v := by
  have hz := h.texts (t, c) hc r hm
  cases e : r.get c with
  | null => simp [e, Value.same] at hs
  | int z => exact absurd e (hz z)
  | text s =>
    rw [e] at hs
    simpa [Value.same] using hs

lemma Consistent.found {db : Database} (h : Consistent db) {t c : String} (hc : (t, c) ∈ textColumns)
    {r : Row} {v : List UInt8} (hr : findRow db t c (.text v) = some r) : r.get c = .text v := by
  obtain ⟨hm, hs⟩ := findRow_mem hr
  exact h.same_text hc hm hs

/-! ## The steps of a registration -/

/-- What every step does: rows are only added, and the database stays consistent. -/
structure Grows (db db₁ : Database) : Prop where
  ext : Extends db db₁
  consistent : Consistent db → Consistent db₁

lemma Grows.refl (db : Database) : Grows db db := ⟨Extends.refl db, id⟩

lemma Grows.trans {db db₁ db₂ : Database} (h : Grows db db₁) (h' : Grows db₁ db₂) : Grows db db₂ :=
  ⟨h.ext.trans h'.ext, h'.consistent ∘ h.consistent⟩

lemma ensure_grows {q : Insert} {c : String} {v : Value} {db : Database} (hq : Storable q c v)
    (new : ∀ r : Row, q.columns.map r.get = q.values → Promises db q.table r) (stamp : String → Nat → List UInt8) :
    Grows db (ensure stamp q c v db).2 := by
  obtain ⟨r, -, -, ⟨-, e⟩ | ⟨-, hid, hvals, -, e⟩⟩ := ensure_spec hq stamp db
  · rw [e]
    exact Grows.refl db
  · rw [e]
    exact ⟨extends_append _ _ _, fun h => h.append hid (new r hvals)⟩

section
variable (stamp : String → Nat → List UInt8) (db : Database)

lemma promises_definition {definition : List UInt8} {r : Row}
    (h : (definitionInsert definition).columns.map r.get = (definitionInsert definition).values) :
    Promises db "service_definition" r := by
  have hv : r.get "service_definition" = .text definition := (List.cons.inj h).1
  exact ⟨by simp [textColumns, hv], by simp, by simp [foreignKeys]⟩

lemma promises_interface {name : List UInt8} {r : Row}
    (h : (interfaceInsert name).columns.map r.get = (interfaceInsert name).values) :
    Promises db "service_interface" r := by
  have hv : r.get "interface_name" = .text name := (List.cons.inj h).1
  exact ⟨by simp [textColumns, hv], by simp, by simp [foreignKeys]⟩

/-- The columns of a new system. -/
lemma systemInsert_get {name address authInfo : List UInt8} {port : Int} {r : Row}
    (h : (systemInsert name address port authInfo).columns.map r.get =
      (systemInsert name address port authInfo).values) :
    r.get "system_name" = .text name ∧ r.get "address" = .text address ∧ r.get "port" = .int port := by
  unfold systemInsert at h
  split at h
  · simpa using h
  · simp only [List.map_cons, List.cons.injEq] at h
    exact ⟨h.1, h.2.1, h.2.2.1⟩

lemma promises_system {name address authInfo : List UInt8} {port : Int} {r : Row}
    (h : (systemInsert name address port authInfo).columns.map r.get =
      (systemInsert name address port authInfo).values) :
    Promises db (systemInsert name address port authInfo).table r := by
  obtain ⟨h1, h2, h3⟩ := systemInsert_get h
  rw [systemInsert_table]
  exact ⟨by simp [textColumns, h1, h2], by simp [h3], by simp [foreignKeys]⟩

lemma promises_entry {e : ServiceRegistryEntry} {d p r : Row} (hd : d ∈ (db "service_definition").rows)
    (hp : p ∈ (db "system_").rows)
    (h : (entryInsert e d.id p.id).columns.map r.get = (entryInsert e d.id p.id).values) :
    Promises db "service_registry" r := by
  simp only [entryInsert, List.map_cons, List.cons.injEq] at h
  obtain ⟨h1, h2, h3, -⟩ := h
  refine ⟨by simp [textColumns, h3], by simp, ?_⟩
  simp only [foreignKeys, List.forall_mem_cons, h1, h2]
  exact ⟨fun _ => ⟨d, hd, rfl⟩, fun _ => ⟨p, hp, rfl⟩, by simp⟩

lemma promises_connection {r i c : Row} (hr : r ∈ (db "service_registry").rows)
    (hi : i ∈ (db "service_interface").rows)
    (h : (connectionInsert r.id i.id).columns.map c.get = (connectionInsert r.id i.id).values) :
    Promises db "service_registry_interface_connection" c := by
  simp only [connectionInsert, List.map_cons, List.cons.injEq] at h
  obtain ⟨h1, h2, -⟩ := h
  refine ⟨by simp [textColumns], by simp, ?_⟩
  simp only [foreignKeys, List.forall_mem_cons, h1, h2]
  exact ⟨by simp, by simp, fun _ => ⟨r, hr, rfl⟩, fun _ => ⟨i, hi, rfl⟩, by simp⟩

lemma storeDefinition_grows (definition : List UInt8) : Grows db (storeDefinition stamp definition db).2 :=
  ensure_grows (storable_text rfl (by decide) _) (fun _ h => promises_definition db h) stamp

lemma storeInterface_grows (name : List UInt8) : Grows db (storeInterface stamp name db).2 :=
  ensure_grows (storable_text rfl (by decide) _) (fun _ h => promises_interface db h) stamp

lemma storeSystem_grows (name address : List UInt8) (port : Int) (authInfo : List UInt8) :
    Grows db (storeSystem stamp name address port authInfo db).2 :=
  ensure_grows (storable_system name address port authInfo) (fun _ h => promises_system db h) stamp

lemma storeRow_grows (e : ServiceRegistryEntry) {d p : Row} (hd : d ∈ (db "service_definition").rows)
    (hp : p ∈ (db "system_").rows) : Grows db (storeRow stamp e d.id p.id db).2 :=
  ensure_grows (storable_entry e d.id p.id) (fun _ h => promises_entry db hd hp h) stamp

lemma storeConnection_grows {r i : Row} (hr : r ∈ (db "service_registry").rows)
    (hi : i ∈ (db "service_interface").rows) : Grows db (storeConnection stamp r.id i.id db).2 :=
  ensure_grows (storable_connection r.id i.id) (fun _ h => promises_connection db hr hi h) stamp

lemma storeDefinition_spec (definition : List UInt8) :
    ∃ d, (storeDefinition stamp definition db).1 = d.id ∧ findRow (storeDefinition stamp definition db).2
      "service_definition" "service_definition" (.text definition) = some d := by
  obtain ⟨d, hk, hf, -⟩ := ensure_spec (storable_text (t := "service_definition") (c := "service_definition") rfl
    (by decide) definition) stamp db
  exact ⟨d, hk, hf⟩

/-- The row is the system with this name, address and port. -/
def IsSystem (name address : List UInt8) (port : Int) (p : Row) : Prop :=
  p.get "system_name" = .text name ∧ p.get "address" = .text address ∧ p.get "port" = .int port

lemma storeSystem_spec (name address : List UInt8) (port : Int) (authInfo : List UInt8) :
    ∃ p, (storeSystem stamp name address port authInfo db).1 = p.id ∧
      findRow (storeSystem stamp name address port authInfo db).2 "system_" "system_name" (.text name) = some p ∧
      (findRow db "system_" "system_name" (.text name) = some p ∨
        findRow db "system_" "system_name" (.text name) = none ∧ IsSystem name address port p) := by
  obtain ⟨p, hk, hf, hnew⟩ := ensure_spec (storable_system name address port authInfo) stamp db
  rw [systemInsert_table] at hf hnew
  refine ⟨p, hk, hf, ?_⟩
  obtain ⟨h, -⟩ | ⟨h, -, hvals, -⟩ := hnew
  · exact .inl h
  · exact .inr ⟨h, systemInsert_get hvals⟩

lemma storeSystem_other {t : String} (ht : t ≠ "system_") (name address : List UInt8) (port : Int)
    (authInfo : List UInt8) : (storeSystem stamp name address port authInfo db).2 t = db t := by
  refine ensure_other ?_ stamp db
  rw [systemInsert_table]
  exact ht

lemma storeRow_spec (e : ServiceRegistryEntry) (definition provider : Nat) :
    ∃ r, (storeRow stamp e definition provider db).1 = r.id ∧
      findRow (storeRow stamp e definition provider db).2 "service_registry" "service_uri" (.text e.sServiceUri) =
        some r ∧
      ((findRow db "service_registry" "service_uri" (.text e.sServiceUri) = some r ∧
          ((storeRow stamp e definition provider db).2 "service_registry").rows = (db "service_registry").rows) ∨
        findRow db "service_registry" "service_uri" (.text e.sServiceUri) = none ∧
          ((storeRow stamp e definition provider db).2 "service_registry").rows =
            (db "service_registry").rows ++ [r] ∧
          r.id = (db "service_registry").lastId + 1 ∧ r.get "service_id" = .int definition ∧
          r.get "system_id" = .int provider ∧ r.get "service_uri" = .text e.sServiceUri) := by
  obtain ⟨r, hk, hf, hnew⟩ := ensure_spec (storable_entry e definition provider) stamp db
  refine ⟨r, hk, hf, ?_⟩
  obtain ⟨h, hdb⟩ | ⟨h, hid, hvals, rows, -⟩ := hnew
  · exact .inl ⟨h, by rw [storeRow, hdb]⟩
  · simp only [entryInsert, List.map_cons, List.cons.injEq] at hvals
    exact .inr ⟨h, rows, hid, hvals.1, hvals.2.1, hvals.2.2.1⟩

/-! ## A registration as a whole -/

/-- The interfaces of a registration have their rows. -/
lemma storeInterfaces_spec (names : List (List UInt8)) :
    Grows db (storeInterfaces stamp names db).2 ∧
    List.Forall₂ (fun name id => ∃ i, findRow (storeInterfaces stamp names db).2 "service_interface"
      "interface_name" (.text name) = some i ∧ i.id = id) names (storeInterfaces stamp names db).1 ∧
    ∀ t, t ≠ "service_interface" → (storeInterfaces stamp names db).2 t = db t := by
  induction names generalizing db with
  | nil => exact ⟨Grows.refl db, .nil, fun _ _ => rfl⟩
  | cons name names ih =>
    obtain ⟨grows, each, other⟩ := ih (storeInterface stamp name db).2
    obtain ⟨i, hi, hf, -⟩ := ensure_spec (storable_text (t := "service_interface") (c := "interface_name") rfl
      (by decide) name) stamp db
    refine ⟨(storeInterface_grows stamp db name).trans grows, .cons ⟨i, grows.ext.findRow hf, hi.symm⟩ each, ?_⟩
    intro t ht
    exact (other t ht).trans (ensure_other ht stamp db)

/-- An entry that has a connection gets no further one. -/
lemma storeConnections_found {entry : Nat} (ids : List Nat)
    (h : (findRow db "service_registry_interface_connection" "service_registry_id" (.text (to_string entry))).isSome) :
    storeConnections stamp entry ids db = db := by
  obtain ⟨c, hc⟩ := Option.isSome_iff_exists.1 h
  induction ids with
  | nil => rfl
  | cons i ids ih =>
    have same : (storeConnection stamp entry i db).2 = db := by
      obtain ⟨r, -, -, ⟨-, kept⟩ | ⟨hnone, -⟩⟩ := ensure_spec (storable_connection entry i) stamp db
      · exact kept
      · exact absurd (hc.symm.trans hnone) (by simp)
    rw [storeConnections, same, ih]

lemma storeConnection_new {entry : Nat} (i : Nat)
    (h : findRow db "service_registry_interface_connection" "service_registry_id" (.text (to_string entry)) = none) :
    ∃ c, ((storeConnection stamp entry i db).2 "service_registry_interface_connection").rows =
        (db "service_registry_interface_connection").rows ++ [c] ∧
      c.get "service_registry_id" = .int entry ∧ c.get "interface_id" = .int i := by
  obtain ⟨c, -, -, ⟨hsome, -⟩ | ⟨-, -, hvals, rows, -⟩⟩ := ensure_spec (storable_connection entry i) stamp db
  · exact absurd (hsome.symm.trans h) (by simp)
  · simp only [connectionInsert, List.map_cons, List.cons.injEq] at hvals
    exact ⟨c, rows, hvals.1, hvals.2.1⟩

/-- Only the first interface of an entry without connections is connected. -/
lemma storeConnections_cases (entry : Nat) (ids : List Nat) :
    (storeConnections stamp entry ids db = db ∧ (ids = [] ∨ (findRow db "service_registry_interface_connection"
      "service_registry_id" (.text (to_string entry))).isSome)) ∨
    ∃ i is, ids = i :: is ∧ findRow db "service_registry_interface_connection" "service_registry_id"
        (.text (to_string entry)) = none ∧
      storeConnections stamp entry ids db = (storeConnection stamp entry i db).2 := by
  cases ids with
  | nil => exact .inl ⟨rfl, .inl rfl⟩
  | cons i is =>
    cases h : findRow db "service_registry_interface_connection" "service_registry_id" (.text (to_string entry)) with
    | some c =>
      have found : (findRow db "service_registry_interface_connection" "service_registry_id"
          (.text (to_string entry))).isSome := by rw [h]; rfl
      exact .inl ⟨storeConnections_found stamp db _ found, .inr rfl⟩
    | none =>
      refine .inr ⟨i, is, rfl, rfl, ?_⟩
      obtain ⟨c, -, hf, -⟩ := ensure_spec (storable_connection entry i) stamp db
      exact storeConnections_found stamp _ is (Option.isSome_iff_exists.2 ⟨c, hf⟩)

end

/-- The row is the provider of the entry. -/
def IsProvider (e : ServiceRegistryEntry) (p : Row) : Prop :=
  IsSystem e.sProviderSystem_SystemName e.sProviderSystem_Address e.port p

/-- What a registration leaves behind: the rows of the definition, the provider, the interfaces and the entry,
    and at most one new connection. -/
structure Stored (db : Database) (e : ServiceRegistryEntry) (k : Keys) (db₁ : Database) (d p r : Row) : Prop where
  grows : Grows db db₁
  keys : k.definition = d.id ∧ k.provider = p.id ∧ k.entry = r.id
  definition : findRow db₁ "service_definition" "service_definition" (.text e.sServiceDefinition) = some d
  provider : findRow db₁ "system_" "system_name" (.text e.sProviderSystem_SystemName) = some p
  newProvider : findRow db "system_" "system_name" (.text e.sProviderSystem_SystemName) = some p ∨
    findRow db "system_" "system_name" (.text e.sProviderSystem_SystemName) = none ∧ IsProvider e p
  interfaces : List.Forall₂ (fun name id => ∃ i, findRow db₁ "service_interface" "interface_name" (.text name) =
    some i ∧ i.id = id) e.vInterfaces k.interfaces
  entry : findRow db₁ "service_registry" "service_uri" (.text e.sServiceUri) = some r
  newEntry : (findRow db "service_registry" "service_uri" (.text e.sServiceUri) = some r ∧
      (db₁ "service_registry").rows = (db "service_registry").rows) ∨
    findRow db "service_registry" "service_uri" (.text e.sServiceUri) = none ∧
      (db₁ "service_registry").rows = (db "service_registry").rows ++ [r] ∧
      r.id = (db "service_registry").lastId + 1 ∧ r.get "service_id" = .int d.id ∧ r.get "system_id" = .int p.id ∧
      r.get "service_uri" = .text e.sServiceUri
  connections : ((db₁ "service_registry_interface_connection").rows =
      (db "service_registry_interface_connection").rows ∧ (k.interfaces = [] ∨
        (findRow db "service_registry_interface_connection" "service_registry_id" (.text (to_string r.id))).isSome)) ∨
    ∃ c i is, k.interfaces = i :: is ∧
      findRow db "service_registry_interface_connection" "service_registry_id" (.text (to_string r.id)) = none ∧
      (db₁ "service_registry_interface_connection").rows =
        (db "service_registry_interface_connection").rows ++ [c] ∧
      c.get "service_registry_id" = .int r.id ∧ c.get "interface_id" = .int i

lemma findRow_congr {db db₁ : Database} {t : String} (h : db t = db₁ t) (c : String) (v : Value) :
    findRow db t c v = findRow db₁ t c v := by
  rw [findRow, findRow, h]

theorem store_spec (stamp : String → Nat → List UInt8) (e : ServiceRegistryEntry) (db : Database) :
    ∃ d p r, Stored db e (store stamp e db).1 (store stamp e db).2 d p r := by
  -- the databases behind the definition, the provider, the interfaces and the entry
  let db1 := (storeDefinition stamp e.sServiceDefinition db).2
  let db2 := (storeSystem stamp e.sProviderSystem_SystemName e.sProviderSystem_Address e.port
    e.sProviderSystem_AuthInfo db1).2
  let db3 := (storeInterfaces stamp e.vInterfaces db2).2
  have g1 : Grows db db1 := storeDefinition_grows stamp db e.sServiceDefinition
  have g2 : Grows db1 db2 := storeSystem_grows stamp db1 _ _ _ _
  obtain ⟨d, hdk, hd⟩ := storeDefinition_spec stamp db e.sServiceDefinition
  obtain ⟨p, hpk, hp, hpnew⟩ := storeSystem_spec stamp db1 e.sProviderSystem_SystemName e.sProviderSystem_Address
    e.port e.sProviderSystem_AuthInfo
  obtain ⟨g3, each, other3⟩ := storeInterfaces_spec stamp db2 e.vInterfaces
  have hd3 := g3.ext.findRow (g2.ext.findRow hd)
  have hp3 := g3.ext.findRow hp
  have g4 := storeRow_grows stamp db3 e (findRow_mem hd3).1 (findRow_mem hp3).1
  obtain ⟨r, hrk, hr, hrnew⟩ := storeRow_spec stamp db3 e d.id p.id
  let db4 := (storeRow stamp e d.id p.id db3).2
  have hstore : store stamp e db = (⟨d.id, p.id, (storeInterfaces stamp e.vInterfaces db2).1, r.id⟩,
      storeConnections stamp r.id (storeInterfaces stamp e.vInterfaces db2).1 db4) := by
    simp only [store, db1, db2, db3, db4, hdk, hpk, hrk]
  have g : Grows db db4 := ((g1.trans g2).trans g3).trans g4
  -- tables that these steps leave alone
  have keep : ∀ t, t ≠ "service_definition" → t ≠ "system_" → t ≠ "service_interface" → db3 t = db t := by
    intro t h1 h2 h3
    calc db3 t = db2 t := other3 t h3
      _ = db1 t := storeSystem_other stamp db1 h2 _ _ _ _
      _ = db t := ensure_other h1 stamp db
  have system : db1 "system_" = db "system_" := by
    refine ensure_other ?_ stamp db
    show "system_" ≠ "service_definition"
    decide
  have registry : db3 "service_registry" = db "service_registry" := keep _ (by decide) (by decide) (by decide)
  have connection : db4 "service_registry_interface_connection" = db "service_registry_interface_connection" := by
    refine (ensure_other ?_ stamp db3).trans (keep _ (by decide) (by decide) (by decide))
    show "service_registry_interface_connection" ≠ "service_registry"
    decide
  rw [findRow_congr system] at hpnew
  rw [findRow_congr registry, registry] at hrnew
  rw [hstore]
  obtain ⟨he, hids⟩ | ⟨i, is, hids, hnone, he⟩ := storeConnections_cases stamp db4 r.id
    (storeInterfaces stamp e.vInterfaces db2).1
  · rw [he]
    refine ⟨d, p, r, g, ⟨rfl, rfl, rfl⟩, g4.ext.findRow hd3, g4.ext.findRow hp3, hpnew, ?_, hr, hrnew, .inl ?_⟩
    · refine each.imp fun _ _ found => ?_
      obtain ⟨i, hf, hi⟩ := found
      exact ⟨i, g4.ext.findRow hf, hi⟩
    · rw [← findRow_congr connection]
      exact ⟨congrArg Table.rows connection, hids⟩
  · rw [he]
    rw [hids] at each
    obtain ⟨n, ns, ⟨i0, hi0, rfl⟩, -, -⟩ := List.forall₂_cons_right_iff.1 each
    have g5 := storeConnection_grows stamp db4 (findRow_mem hr).1 (g4.ext.mem (findRow_mem hi0).1)
    obtain ⟨c, rows, hc1, hc2⟩ := storeConnection_new stamp db4 i0.id hnone
    rw [connection] at rows
    have registry' : (storeConnection stamp r.id i0.id db4).2 "service_registry" = db4 "service_registry" := by
      refine ensure_other ?_ stamp db4
      show "service_registry" ≠ "service_registry_interface_connection"
      decide
    rw [show (storeRow stamp e d.id p.id db3).2 = db4 from rfl, ← registry'] at hrnew
    refine ⟨d, p, r, g.trans g5, ⟨rfl, rfl, rfl⟩, g5.ext.findRow (g4.ext.findRow hd3),
      g5.ext.findRow (g4.ext.findRow hp3), hpnew, ?_, g5.ext.findRow hr, hrnew,
      .inr ⟨c, i0.id, is, hids, ?_, rows, hc1, hc2⟩⟩
    · rw [hids]
      refine each.imp fun _ _ found => ?_
      obtain ⟨i, hf, hi⟩ := found
      exact ⟨i, g5.ext.findRow (g4.ext.findRow hf), hi⟩
    · rw [← findRow_congr connection]
      exact hnone

end ArrowheadCore.ServiceRegistry
