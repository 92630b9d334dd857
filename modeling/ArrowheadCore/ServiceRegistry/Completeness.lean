import ArrowheadCore.ServiceRegistry.QueryForm
import ArrowheadCore.ServiceRegistry.Undo

/-!
# What a query lists

A query reads the entries of a definition one after the other and gives up at the first one that has lost its system,
its connections or an interface. So it lists the complete entries if and only if all entries of the definition are
complete or none is (`processQuery_complete_iff`).
-/

namespace ArrowheadCore.ServiceRegistry
open Lib Lib.Sql Json Db

/-! ## The entries of a definition -/

/-- The system, the connections and the interfaces of the entry exist. -/
structure Complete (db : Database) (r : Row) : Prop where
  system : ∃ p ∈ (db "system_").rows, r.get "system_id" = .int p.id
  connections : ∃ c ∈ (db "service_registry_interface_connection").rows, c.get "service_registry_id" = .int r.id
  interfaces : ∀ c ∈ (db "service_registry_interface_connection").rows, c.get "service_registry_id" = .int r.id →
    ∃ i ∈ (db "service_interface").rows, c.get "interface_id" = .int i.id

instance (db : Database) (r : Row) : Decidable (Complete db r) :=
  decidable_of_iff ((∃ p ∈ (db "system_").rows, r.get "system_id" = .int p.id) ∧
      (∃ c ∈ (db "service_registry_interface_connection").rows, c.get "service_registry_id" = .int r.id) ∧
      ∀ c ∈ (db "service_registry_interface_connection").rows, c.get "service_registry_id" = .int r.id →
        ∃ i ∈ (db "service_interface").rows, c.get "interface_id" = .int i.id)
    ⟨fun h => ⟨h.1, h.2.1, h.2.2⟩, fun h => ⟨h.system, h.connections, h.interfaces⟩⟩

/-- The entries of the definition with this name. -/
def entriesOf (db : Database) (definition : List UInt8) : List Row :=
  match findRow db "service_definition" "service_definition" (.text definition) with
  | none => []
  | some d => (db "service_registry").rows.filter fun r => r.get "service_id" = .int d.id

def completeEntries (db : Database) (definition : List UInt8) : List Row :=
  (entriesOf db definition).filter fun r => Complete db r

/-- The data of an entry, with its definition, its interfaces and its system. -/
def Describes (db : Database) (definition : List UInt8) (r : Row) (q : ServiceQueryData) : Prop :=
  ∃ d, findRow db "service_definition" "service_definition" (.text definition) = some d ∧
    queryEntry db (.ofDefinition (fullRow "service_definition" d)) r = .ok q

/-- The list has the complete entries of the definition, and as many hits. -/
structure ListsComplete (db : Database) (definition : List UInt8) (l : ServiceQueryList) : Prop where
  entries : List.Forall₂ (Describes db definition) (completeEntries db definition) l.vServQueryData
  hits : l.hits = (completeEntries db definition).length

/-- What a response lists; an error lists nothing. -/
def listed : Except ErrorResp ServiceQueryList → ServiceQueryList
  | .ok l => l
  | .error _ => ⟨0, []⟩

section
variable {db : Database}

lemma Typed.keyColumns (h : Typed db) : KeyColumns db := by
  refine ⟨fun c hc => ?_, fun r hr => ?_⟩
  · obtain ⟨n, -, hn⟩ := h.key (c := "interface_id") (u := "service_interface") (by simp [foreignKeys]) hc
    exact ⟨n, hn⟩
  · obtain ⟨n, -, hn⟩ := h.key (c := "system_id") (u := "system_") (by simp [foreignKeys]) hr
    exact ⟨n, hn⟩

/-- A row is found by the text of a key if and only if there is one with the key. -/
lemma findRow_key (db : Database) (t : String) (n : Nat) :
    (∃ x, findRow db t "id" (.text (to_string n)) = some x) ↔ ∃ x ∈ (db t).rows, x.id = n := by
  constructor
  · rintro ⟨x, hx⟩
    obtain ⟨hm, hs⟩ := findRow_mem hx
    have hs : (Value.int x.id).same (.text (to_string n)) := hs
    rw [same_key, Nat.cast_inj] at hs
    exact ⟨x, hm, hs⟩
  · rintro ⟨x, hx, rfl⟩
    exact ⟨x, findRow_id hx⟩

lemma Typed.connectionsOf (typed : Typed db) (r : Row) :
    rowsWhere db "service_registry_interface_connection" "service_registry_id" (.text (textOf r "id")) =
      (db "service_registry_interface_connection").rows.filter fun c => c.get "service_registry_id" = .int r.id := by
  rw [rowsWhere, textOf_int (c := "id") (n := r.id) rfl]
  refine List.filter_congr fun c hc => ?_
  rw [Bool.eq_iff_iff, decide_eq_true_iff]
  exact ofEntry_iff typed hc r.id

lemma interfaceOf_isSome (typed : Typed db) {c : Row} (hc : c ∈ (db "service_registry_interface_connection").rows) :
    (∃ i, interfaceOf db c = some i) ↔ ∃ i ∈ (db "service_interface").rows, c.get "interface_id" = .int i.id := by
  obtain ⟨n, -, hn⟩ := typed.key (c := "interface_id") (u := "service_interface") (by simp [foreignKeys]) hc
  have found := findRow_key db "service_interface" n
  rw [interfaceOf, textOf_int hn, hn]
  simp only [Option.map_eq_some_iff, Value.int.injEq, Nat.cast_inj]
  constructor
  · rintro ⟨i, x, hx, -⟩
    obtain ⟨y, hy, e⟩ := found.1 ⟨x, hx⟩
    exact ⟨y, hy, e.symm⟩
  · rintro ⟨y, hy, e⟩
    obtain ⟨x, hx⟩ := found.2 ⟨y, hy, e.symm⟩
    exact ⟨_, x, hx, rfl⟩

/-- An entry can be described if and only if it is complete. -/
lemma queryEntry_complete (typed : Typed db) {r : Row} (hr : r ∈ (db "service_registry").rows)
    (sQData : ServiceQueryData) : (∃ q, queryEntry db sQData r = .ok q) ↔ Complete db r := by
  obtain ⟨n, -, hn⟩ := typed.key (c := "system_id") (u := "system_") (by simp [foreignKeys]) hr
  have system := findRow_key db "system_" n
  constructor
  · rintro ⟨q, hq⟩
    obtain ⟨intfs, p, hm, hp, -⟩ := queryEntry_ok hq
    rw [typed.connectionsOf] at hm
    rw [textOf_int hn] at hp
    obtain ⟨x, hx, rfl⟩ := system.1 ⟨p, hp⟩
    refine ⟨⟨x, hx, hn⟩, ?_, fun c hc hkey => ?_⟩
    · by_contra hno
      have none_ : rowsWhere db "service_registry_interface_connection" "service_registry_id"
          (.text (textOf r "id")) = [] := by
        rw [typed.connectionsOf, List.filter_eq_nil_iff]
        intro c hc hkey
        exact hno ⟨c, hc, by simpa using hkey⟩
      simp only [queryEntry, none_] at hq
      cases hq
    · obtain ⟨i, -, hi⟩ := forall₂_exists_left (mapM_some_mem hm).flip
        (List.mem_filter.2 ⟨hc, by simpa using hkey⟩)
      exact (interfaceOf_isSome typed hc).1 ⟨i, hi⟩
  · rintro ⟨⟨x, hx, hsys⟩, ⟨c, hc, hkey⟩, interfaces⟩
    have e : n = x.id := by simpa using hn.symm.trans hsys
    obtain ⟨p, hp⟩ := system.2 ⟨x, hx, e.symm⟩
    have found : ∀ c ∈ rowsWhere db "service_registry_interface_connection" "service_registry_id"
        (.text (textOf r "id")), ∃ i, interfaceOf db c = some i := by
      intro c hc
      rw [typed.connectionsOf, List.mem_filter, decide_eq_true_iff] at hc
      exact (interfaceOf_isSome typed hc.1).2 (interfaces c hc.1 hc.2)
    have nonempty : c ∈ rowsWhere db "service_registry_interface_connection" "service_registry_id"
        (.text (textOf r "id")) := by
      rw [typed.connectionsOf, List.mem_filter]
      exact ⟨hc, by simpa using hkey⟩
    obtain ⟨intfs, hintfs⟩ := mapM_some_of_forall found
    rw [← textOf_int hn] at hp
    cases hw : rowsWhere db "service_registry_interface_connection" "service_registry_id" (.text (textOf r "id")) with
    | nil =>
      rw [hw] at nonempty
      cases nonempty
    | cons c' cs =>
      rw [hw] at hintfs
      refine ⟨sQData.withEntry (fullRow "service_registry" r) intfs (fullRow "system_" p), ?_⟩
      simp only [queryEntry, hw, hintfs, hp]

lemma Typed.entriesOf_eq (typed : Typed db) {definition : List UInt8} {d : Row}
    (hd : findRow db "service_definition" "service_definition" (.text definition) = some d) :
    entriesOf db definition = rowsWhere db "service_registry" "service_id" (.text (textOf d "id")) := by
  rw [entriesOf, hd, rowsWhere, textOf_int (c := "id") (n := d.id) rfl]
  refine List.filter_congr fun r hr => ?_
  obtain ⟨n, -, hn⟩ := typed.key (c := "service_id") (u := "service_definition") (by simp [foreignKeys]) hr
  rw [Bool.eq_iff_iff, decide_eq_true_iff, hn, same_key]
  simp

lemma mem_entriesOf {definition : List UInt8} {r : Row} (h : r ∈ entriesOf db definition) :
    r ∈ (db "service_registry").rows := by
  unfold entriesOf at h
  split at h
  · cases h
  · exact List.mem_of_mem_filter h

/-- A list is read if the definition has entries and all are complete. -/
lemma queryList_all (typed : Typed db) {definition : List UInt8}
    (all : ∀ r ∈ entriesOf db definition, Complete db r) {r : Row} (hr : r ∈ entriesOf db definition) :
    ∃ q qs, queryList db definition = .ok (q :: qs) ∧
      List.Forall₂ (Describes db definition) (entriesOf db definition) (q :: qs) := by
  cases hd : findRow db "service_definition" "service_definition" (.text definition) with
  | none =>
    rw [entriesOf, hd] at hr
    cases hr
  | some d =>
    have entries := typed.entriesOf_eq hd
    cases hw : rowsWhere db "service_registry" "service_id" (.text (textOf d "id")) with
    | nil =>
      rw [entries, hw] at hr
      cases hr
    | cons x xs =>
      rw [hw] at entries
      have each : ∀ y ∈ x :: xs, ∃ q, queryEntry db (.ofDefinition (fullRow "service_definition" d)) y = .ok q := by
        intro y hy
        rw [← entries] at hy
        exact (queryEntry_complete typed (mem_entriesOf hy) _).2 (all y hy)
      obtain ⟨qs, hqs⟩ := mapM_ok_of_forall each
      have rel := mapM_ok_mem hqs
      have list_ : queryList db definition = .ok qs := by
        rw [queryList, hd]
        simp only [hw, hqs]
      cases rel with
      | cons h1 h2 =>
        refine ⟨_, _, list_, ?_⟩
        rw [entries]
        exact .cons ⟨d, hd, h1⟩ (h2.imp fun y q hy => ⟨d, hd, hy⟩)

/-- Otherwise it fails. -/
lemma queryList_error (typed : Typed db) {definition : List UInt8}
    (h : ¬((∀ r ∈ entriesOf db definition, Complete db r) ∧ ∃ r, r ∈ entriesOf db definition)) :
    ∃ n, queryList db definition = .error n := by
  cases hq : queryList db definition with
  | error n => exact ⟨n, rfl⟩
  | ok qs =>
    obtain ⟨d, hd, rel⟩ := queryList_ok hq
    rw [← typed.entriesOf_eq hd] at rel
    refine absurd ⟨fun r hr => ?_, ?_⟩ h
    · obtain ⟨q, -, e⟩ := forall₂_exists_left rel.flip hr
      exact (queryEntry_complete typed (mem_entriesOf hr) _).1 ⟨q, e⟩
    · by_contra hno
      have none_ : entriesOf db definition = [] := List.eq_nil_iff_forall_not_mem.2 fun r hr => hno ⟨r, hr⟩
      rw [typed.entriesOf_eq hd] at none_
      simp only [queryList, hd, none_] at hq
      cases hq

end

/-! ## The answer -/

/-- The form asks for nothing but its definition. -/
def ServiceQueryForm.OnlyDefinition (form : ServiceQueryForm) : Prop :=
  form.OnlyMetadata ∧ form.mMetadataRequirements = []

section
variable {qs : List Request} {db : Database} {link : Link} {root : JsonValue} {form : ServiceQueryForm}

/-- Without failures a query for the entries of a definition lists all of them, or none. -/
lemma processQuery_lists (connects : Connects) (typed : Typed db)
    (hform : (parseQueryForm root).run = some (.ok form)) (only : form.OnlyDefinition)
    (plain : Plain form.sServiceDefinition) (hlink : ∀ n, link.fault n = .none) (n : Nat) :
    ∃ reply k, processQuery link connects (some root) ⟨db, none, n⟩ = (.ok reply, ⟨db, none, k⟩) ∧
      ((∀ r ∈ entriesOf db form.sServiceDefinition, Complete db r) →
        List.Forall₂ (Describes db form.sServiceDefinition) (entriesOf db form.sServiceDefinition)
          (listed reply).vServQueryData ∧
        (listed reply).hits = (entriesOf db form.sServiceDefinition).length) ∧
      ((¬∀ r ∈ entriesOf db form.sServiceDefinition, Complete db r) → listed reply = ⟨0, []⟩) := by
  obtain ⟨k, run⟩ := processQuery_gives connects hlink typed.keyColumns hform plain only.1 ⟨db, none, n⟩ rfl
  refine ⟨_, k, run, ?_⟩
  by_cases h : (∀ r ∈ entriesOf db form.sServiceDefinition, Complete db r) ∧
    ∃ r, r ∈ entriesOf db form.sServiceDefinition
  · obtain ⟨all, r, hr⟩ := h
    obtain ⟨q, qs, hqs, rel⟩ := queryList_all typed all hr
    have every : (q :: qs).filter (metadataMatches form) = q :: qs :=
      List.filter_eq_self.2 fun x _ => by rw [metadataMatches, only.2, List.all_nil]
    rw [hqs, queryReply, listed, every]
    exact ⟨fun _ => ⟨rel, rel.length_eq.symm⟩, fun hno => absurd all hno⟩
  · obtain ⟨m, hm⟩ := queryList_error typed h
    have nothing : listed (queryReply form (.error m)) = ⟨0, []⟩ := by
      unfold queryReply
      split <;> first | rfl | contradiction
    rw [hm, nothing]
    refine ⟨fun all => ?_, fun _ => rfl⟩
    have none_ : entriesOf db form.sServiceDefinition = [] :=
      List.eq_nil_iff_forall_not_mem.2 fun r hr => h ⟨all, r, hr⟩
    rw [none_]
    exact ⟨.nil, rfl⟩

/-- In every state that registrations, unregistrations and deletions of plain texts reach: a query with nothing but
    the requirement of a definition lists the complete entries of the definition and counts them if and only if all
    its entries are complete or none is. -/
theorem processQuery_complete_iff (connects : Connects) (reach : Reachable qs db)
    (hform : (parseQueryForm root).run = some (.ok form)) (only : form.OnlyDefinition)
    (plain : Plain form.sServiceDefinition) (hlink : ∀ n, link.fault n = .none) (n : Nat) :
    (∃ reply s', processQuery link connects (some root) ⟨db, none, n⟩ = (.ok reply, s') ∧
        ListsComplete db form.sServiceDefinition (listed reply)) ↔
      (∀ r ∈ entriesOf db form.sServiceDefinition, Complete db r) ∨
        ∀ r ∈ entriesOf db form.sServiceDefinition, ¬Complete db r := by
  obtain ⟨reply, k, run, lists, nothing⟩ := processQuery_lists connects reach.typed hform only plain hlink n
  constructor
  · rintro ⟨reply', s', run', complete⟩
    rw [run] at run'
    cases run'
    by_cases all : ∀ r ∈ entriesOf db form.sServiceDefinition, Complete db r
    · exact .inl all
    · have none_ : completeEntries db form.sServiceDefinition = [] := by
        have hits := complete.hits
        rw [nothing all] at hits
        exact List.eq_nil_of_length_eq_zero hits.symm
      exact .inr fun r hr => by simpa using List.filter_eq_nil_iff.1 none_ r hr
  · intro h
    refine ⟨reply, _, run, ?_⟩
    by_cases all : ∀ r ∈ entriesOf db form.sServiceDefinition, Complete db r
    · have every : completeEntries db form.sServiceDefinition = entriesOf db form.sServiceDefinition :=
        List.filter_eq_self.2 fun r hr => by simpa using all r hr
      exact ⟨every ▸ (lists all).1, every ▸ (lists all).2⟩
    · have none_ : completeEntries db form.sServiceDefinition = [] :=
        List.filter_eq_nil_iff.2 fun r hr => by simpa using (h.resolve_left all) r hr
      rw [nothing all]
      exact ⟨none_ ▸ .nil, none_ ▸ rfl⟩

end

/-! ## Two providers of one service -/

/-- Another thermometer with the service `temperature`. -/
def otherThermometer : JsonValue := .object [
  (bytes "serviceDefinition", .string (bytes "temperature")),
  (bytes "providerSystem", .object [
    (bytes "systemName", .string (bytes "other")),
    (bytes "address", .string (bytes "10.0.0.2")),
    (bytes "port", .number 8080)]),
  (bytes "serviceUri", .string (bytes "/b")),
  (bytes "endOfValidity", .string (bytes "2030-01-01 00:00:00")),
  (bytes "secure", .string (bytes "NOT_SECURE")),
  (bytes "version", .number 1),
  (bytes "interfaces", .array [.string (bytes "http-secure-json")])]

def otherThermometerEntry : ServiceRegistryEntry :=
  { thermometerAtEntry "/b" with
    sProviderSystem_SystemName := bytes "other"
    sProviderSystem_Address := bytes "10.0.0.2" }

/-- The tables with both thermometers. -/
def twoProviders : Database := (store ({} : Link).stamp otherThermometerEntry oneService).2

/-- The tables when the system of the other one is gone. -/
def oneProvider : Database := ((Request.deleteSystem 2).after {} ⟨twoProviders, none, 0⟩).db

/-- A query for `temperature`. -/
def temperatureQuery : JsonValue := .object [(bytes "serviceDefinitionRequirement", .string (bytes "temperature"))]

def temperatureForm : ServiceQueryForm := ⟨bytes "temperature", [], [], [], none, none, none, false⟩

lemma temperatureForm_only : temperatureForm.OnlyDefinition := ⟨⟨rfl, rfl, rfl, rfl, rfl, rfl⟩, rfl⟩

lemma parse_temperatureQuery : (parseQueryForm temperatureQuery).run = some (.ok temperatureForm) := by
  decide +kernel

lemma reachable_twoProviders :
    Reachable [.register (some (thermometerAt "/a")) "serviceregistry/register",
      .register (some otherThermometer) "serviceregistry/register"] twoProviders := by
  have accepts : Accepts otherThermometer otherThermometerEntry := by decide +kernel
  have plain : otherThermometerEntry.Plain := by decide +kernel
  exact reachable_oneService.snoc (handles_register accepts plain _ oneService)

lemma reachable_oneProvider :
    Reachable [.register (some (thermometerAt "/a")) "serviceregistry/register",
      .register (some otherThermometer) "serviceregistry/register", .deleteSystem 2] oneProvider :=
  reachable_twoProviders.snoc ⟨⟨{}, 0, rfl⟩, trivial⟩

/-- A query for the service of both thermometers lists both. -/
theorem processQuery_complete_two :
    ∃ reply s', processQuery {} (fun _ => none) (some temperatureQuery) ⟨twoProviders, none, 0⟩ = (.ok reply, s') ∧
      ListsComplete twoProviders (bytes "temperature") (listed reply) := by
  have plain : Plain temperatureForm.sServiceDefinition := by decide +kernel
  have all : ∀ r ∈ entriesOf twoProviders temperatureForm.sServiceDefinition, Complete twoProviders r := by
    decide +kernel
  exact (processQuery_complete_iff _ reachable_twoProviders parse_temperatureQuery temperatureForm_only plain
    (fun _ => rfl) 0).2 (.inl all)

/-- Without the system of the other thermometer, the first one is not listed either. -/
theorem processQuery_hides_entry :
    ∃ qs, Reachable qs oneProvider ∧ (completeEntries oneProvider (bytes "temperature")).map Row.id = [1] ∧
      ∃ reply s', processQuery {} (fun _ => none) (some temperatureQuery) ⟨oneProvider, none, 0⟩ = (.ok reply, s') ∧
        listed reply = ⟨0, []⟩ ∧ ¬ListsComplete oneProvider (bytes "temperature") (listed reply) := by
  have plain : Plain temperatureForm.sServiceDefinition := by decide
  have hlink : ∀ n, ({} : Link).fault n = .none := fun _ => rfl
  have complete : (completeEntries oneProvider (bytes "temperature")).map Row.id = [1] := by decide +kernel
  have notAll : ¬∀ r ∈ entriesOf oneProvider temperatureForm.sServiceDefinition, Complete oneProvider r := by
    decide +kernel
  obtain ⟨reply, k, run, -, nothing⟩ := processQuery_lists (fun _ => none) reachable_oneProvider.typed
    parse_temperatureQuery temperatureForm_only plain hlink 0
  refine ⟨_, reachable_oneProvider, complete, reply, _, run, nothing notAll, fun lists => ?_⟩
  have hits := lists.hits
  rw [nothing notAll, ← List.length_map (f := Row.id), complete] at hits
  cases hits

end ArrowheadCore.ServiceRegistry
