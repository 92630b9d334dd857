import ArrowheadCore.ServiceRegistry.Outcomes

/-!
# What an unregistration removes

A pair of definition and system may own several entries, one for each service URI. An unregistration deletes the
connections of the first of them only, so that the connections of the others stay behind
(`processUnregister_removes_iff`).
-/

namespace ArrowheadCore.ServiceRegistry
open Lib Lib.Sql Json Db

/-- The entries of the pair and their connections are removed, everything else stays, and no connection refers to an
    entry that is missing. -/
structure Removed (d p : Nat) (db db₁ : Database) : Prop where
  entries : (db₁ "service_registry").rows = (db "service_registry").rows.filter fun r => !ofPair d p r
  connections : (db₁ "service_registry_interface_connection").rows =
    (db "service_registry_interface_connection").rows.filter fun c =>
      !((db "service_registry").rows.filter (ofPair d p)).any fun r => c.get "service_registry_id" == .int r.id
  others : ∀ t, t ≠ "service_registry" → t ≠ "service_registry_interface_connection" → (db₁ t).rows = (db t).rows
  referred : ∀ c ∈ (db₁ "service_registry_interface_connection").rows, ∃ r ∈ (db₁ "service_registry").rows,
    c.get "service_registry_id" = .int r.id

lemma FindsPair.unique {db : Database} {definition name address port : List UInt8} {d p x d' p' x' : Row}
    (h : FindsPair db definition name address port d p x) (h' : FindsPair db definition name address port d' p' x') :
    d = d' ∧ p = p' ∧ x = x' := by
  have hd : d = d' := Option.some.inj (h.definition.symm.trans h'.definition)
  have hp : p = p' := Option.some.inj (h.system.symm.trans h'.system)
  subst hd hp
  exact ⟨rfl, rfl, Option.some.inj (h.entry.symm.trans h'.entry)⟩

section
variable {db : Database} {d p : Nat} {x : Row}

lemma unregister_entries (x : Nat) : (unregister d p x db "service_registry").rows =
    (db "service_registry").rows.filter fun r => !ofPair d p r := by
  rw [unregister, removeRows_self, removeRows_other (by decide)]

lemma unregister_connections (x : Nat) : (unregister d p x db "service_registry_interface_connection").rows =
    (db "service_registry_interface_connection").rows.filter fun c => !ofEntry x c := by
  rw [unregister, removeRows_other (by decide), removeRows_self]

lemma unregister_others (x : Nat) {t : String} (h : t ≠ "service_registry")
    (h' : t ≠ "service_registry_interface_connection") : unregister d p x db t = db t := by
  rw [unregister, removeRows_other h, removeRows_other h']

/-- The check of a connection for its entry. -/
lemma ofEntry_iff (typed : Typed db) {c : Row} (hc : c ∈ (db "service_registry_interface_connection").rows) (n : Nat) :
    ofEntry n c ↔ c.get "service_registry_id" = .int n := by
  obtain ⟨k, -, e⟩ := typed.keys ("service_registry_interface_connection", "service_registry_id", "service_registry")
    (by simp [foreignKeys]) c hc
  dsimp only at e
  rw [ofEntry, e, same_key]
  simp

/-- The unregistration is exact as long as no entry of the pair but the first has connections. -/
theorem unregister_removed_iff (cons : Consistent db)
    (hx : (db "service_registry").rows.find? (ofPair d p) = some x) :
    Removed d p db (unregister d p x.id db) ↔
      ∀ r ∈ (db "service_registry").rows, ofPair d p r → HasConnection db r.id → r = x := by
  have hxm : x ∈ (db "service_registry").rows := List.mem_of_find?_eq_some hx
  have hxp : ofPair d p x := by simpa using List.find?_some hx
  have entry : ∀ {c}, c ∈ (db "service_registry_interface_connection").rows →
      (ofEntry x.id c ↔ c.get "service_registry_id" = .int x.id) := fun hc => ofEntry_iff cons.typed hc x.id
  constructor
  · rintro ⟨-, connections, -, -⟩ r hr hpair ⟨c, hc, hkey⟩
    by_contra hne
    rw [unregister_connections] at connections
    -- the connection of another entry stays, though its entry is removed
    have stays : c ∈ (db "service_registry_interface_connection").rows.filter fun c => !ofEntry x.id c := by
      rw [List.mem_filter]
      refine ⟨hc, ?_⟩
      rw [Bool.not_eq_true', Bool.eq_false_iff, ne_eq, entry hc, hkey]
      intro e
      exact hne ((db "service_registry").row_unique hr hxm (by simpa using e))
    rw [connections, List.mem_filter, Bool.not_eq_true', List.any_eq_false] at stays
    exact stays.2 r (List.mem_filter.2 ⟨hr, hpair⟩) (by simp [hkey])
  · intro only
    refine ⟨unregister_entries x.id, ?_, fun t h h' => by rw [unregister_others x.id h h'], ?_⟩
    · rw [unregister_connections]
      refine List.filter_congr fun c hc => congrArg (!·) (Bool.eq_iff_iff.2 ?_)
      rw [entry hc, List.any_eq_true]
      constructor
      · intro e
        exact ⟨x, List.mem_filter.2 ⟨hxm, hxp⟩, by simp [e]⟩
      · rintro ⟨r, hr, hkey⟩
        rw [beq_iff_eq] at hkey
        obtain ⟨hrm, hrp⟩ := List.mem_filter.1 hr
        rw [hkey, only r hrm hrp ⟨c, hc, hkey⟩]
    · intro c hc
      rw [unregister_connections, List.mem_filter, Bool.not_eq_true', Bool.eq_false_iff, ne_eq] at hc
      obtain ⟨hcm, hcx⟩ := hc
      obtain ⟨y, hy, hkey⟩ := cons.keys ("service_registry_interface_connection", "service_registry_id",
        "service_registry") (by simp [foreignKeys]) c hcm
      refine ⟨y, ?_, hkey⟩
      rw [unregister_entries, List.mem_filter, Bool.not_eq_true', Bool.eq_false_iff, ne_eq]
      refine ⟨hy, fun hyp => hcx ((entry hcm).2 ?_)⟩
      rw [← only y hy hyp ⟨c, hcm, hkey⟩]
      exact hkey

end

/-- Behind any registrations of plain texts: an unregistration that succeeds removes exactly the entries of its pair
    with all their connections if and only if the first entry of the pair is the only one of them that has any. -/
theorem processUnregister_removes_iff {qs : List Request} {db : Database} (reach : Reachable qs db)
    (registers : ∀ q ∈ qs, q.isRegister) {definition name address port : List UInt8}
    (plain : PlainPair definition name address port) {link : Link} {n : Nat} {s' : Session}
    (run : (processUnregister definition name address port).run link ⟨db, none, n⟩ = (.ok (.ok ()), s')) :
    ∃ d p x, FindsPair db definition name address port d p x ∧
      (Removed d.id p.id db s'.db ↔
        ∀ r ∈ (db "service_registry").rows, ofPair d.id p.id r → HasConnection db r.id → r = x) := by
  obtain ⟨h, -⟩ | ⟨-, d, p, x, finds, ⟨h, -⟩ | ⟨-, hdb⟩⟩ := processUnregister_cases plain run
  · exact absurd rfl h
  · exact absurd rfl h
  · refine ⟨d, p, x, finds, ?_⟩
    rw [hdb]
    exact unregister_removed_iff (reach.consistent registers) finds.entry

/-! ## A thermometer with two services -/

/-- The service `temperature` of a thermometer under this URI. -/
def thermometerAt (uri : String) : JsonValue := .object [
  (bytes "serviceDefinition", .string (bytes "temperature")),
  (bytes "providerSystem", .object [
    (bytes "systemName", .string (bytes "thermometer")),
    (bytes "address", .string (bytes "10.0.0.1")),
    (bytes "port", .number 8080)]),
  (bytes "serviceUri", .string (bytes uri)),
  (bytes "endOfValidity", .string (bytes "2030-01-01 00:00:00")),
  (bytes "secure", .string (bytes "NOT_SECURE")),
  (bytes "version", .number 1),
  (bytes "interfaces", .array [.string (bytes "http-secure-json")])]

def thermometerAtEntry (uri : String) : ServiceRegistryEntry :=
  { thermometerEntry "10.0.0.1" ["http-secure-json"] with sServiceUri := bytes uri }

/-- A registration over a connection without failures, as a step of a run. -/
lemma handles_register {v : JsonValue} {e : ServiceRegistryEntry} (hroot : Accepts v e) (he : e.Plain)
    (errURL : String) (db : Database) :
    Handles db (.register (some v) errURL) (store ({} : Link).stamp e db).2 ∧
      (Request.register (some v) errURL).Plain := by
  have hlink : ∀ n, ({} : Link).fault n = .none := fun _ => rfl
  obtain ⟨a, s', run⟩ := processRegister_returns hlink hroot he errURL ⟨db, none, 0⟩
  obtain ⟨e', hroot', runDB⟩ := processRegister_ok run
  have same : e' = e := by simpa using hroot'.2.symm.trans hroot.2
  subst same
  refine ⟨⟨{}, 0, ?_⟩, ?_⟩
  · rw [← (processDB_ok he runDB).1]
    exact (congrArg (fun x => x.2.db) run).symm
  · rintro v' e'' h h'
    cases h
    have : e'' = e' := by simpa using h'.2.symm.trans hroot.2
    exact this ▸ he

/-- The tables with the thermometer's first service. -/
def oneService : Database := (store ({} : Link).stamp (thermometerAtEntry "/a") emptyDatabase).2

/-- The tables with both. -/
def twoServices : Database := (store ({} : Link).stamp (thermometerAtEntry "/b") oneService).2

lemma reachable_oneService :
    Reachable [.register (some (thermometerAt "/a")) "serviceregistry/register"] oneService := by
  have accepts : Accepts (thermometerAt "/a") (thermometerAtEntry "/a") := by decide +kernel
  have plain : (thermometerAtEntry "/a").Plain := by decide +kernel
  exact Trace.nil.snoc (handles_register accepts plain _ emptyDatabase)

lemma reachable_twoServices :
    Reachable [.register (some (thermometerAt "/a")) "serviceregistry/register",
      .register (some (thermometerAt "/b")) "serviceregistry/register"] twoServices := by
  have accepts : Accepts (thermometerAt "/b") (thermometerAtEntry "/b") := by decide +kernel
  have plain : (thermometerAtEntry "/b").Plain := by decide +kernel
  exact reachable_oneService.snoc (handles_register accepts plain _ oneService)

lemma plainPair_thermometer :
    PlainPair (bytes "temperature") (bytes "thermometer") (bytes "10.0.0.1") (bytes "8080") :=
  ⟨by decide, by decide, by decide, by decide⟩

lemma validPair_thermometer :
    ValidPair (bytes "temperature") (bytes "thermometer") (bytes "10.0.0.1") (bytes "8080") :=
  ⟨by decide, by decide, by decide, by decide, 8080, by decide, by decide, by decide⟩

/-- A row that is found under a known key. -/
lemma exists_of_map_id {o : Option Row} {n : Nat} (h : o.map Row.id = some n) : ∃ r, o = some r ∧ r.id = n :=
  Option.map_eq_some_iff.1 h

/-- The pair of the thermometer and its first entry. -/
lemma findsPair_thermometer (db : Database)
    (hd : (findRow db "service_definition" "service_definition" (.text (bytes "temperature"))).map Row.id = some 1)
    (hp : (findSystem db (bytes "thermometer") (bytes "10.0.0.1") (bytes "8080")).map Row.id = some 1)
    (hx : ((db "service_registry").rows.find? (ofPair 1 1)).map Row.id = some 1) :
    ∃ d p x, FindsPair db (bytes "temperature") (bytes "thermometer") (bytes "10.0.0.1") (bytes "8080") d p x ∧
      d.id = 1 ∧ p.id = 1 ∧ x.id = 1 := by
  obtain ⟨d, hd, hd1⟩ := exists_of_map_id hd
  obtain ⟨p, hp, hp1⟩ := exists_of_map_id hp
  obtain ⟨x, hx, hx1⟩ := exists_of_map_id hx
  refine ⟨d, p, x, ⟨hd, hp, ?_⟩, hd1, hp1, hx1⟩
  rw [hd1, hp1]
  exact hx

/-- The only service of the thermometer is removed with its connection. -/
theorem processUnregister_removes_one :
    ∃ d p x s', (processUnregister (bytes "temperature") (bytes "thermometer") (bytes "10.0.0.1") (bytes "8080")).run {}
        ⟨oneService, none, 0⟩ = (.ok (.ok ()), s') ∧
      FindsPair oneService (bytes "temperature") (bytes "thermometer") (bytes "10.0.0.1") (bytes "8080") d p x ∧
      Removed d.id p.id oneService s'.db := by
  have hlink : ∀ n, ({} : Link).fault n = .none := fun _ => rfl
  obtain ⟨d, p, x, finds, -⟩ := findsPair_thermometer oneService (by decide +kernel) (by decide +kernel)
    (by decide +kernel)
  obtain ⟨s', run⟩ := processUnregister_returns (s := ⟨oneService, none, 0⟩) hlink plainPair_thermometer
    validPair_thermometer finds
  obtain ⟨d, p, x, finds, exact_⟩ := processUnregister_removes_iff reachable_oneService (by simp [Request.isRegister])
    plainPair_thermometer run
  refine ⟨d, p, x, s', run, finds, exact_.2 fun r hr _ _ => ?_⟩
  have single : (oneService "service_registry").rows.map Row.id = [1] := by decide +kernel
  have hxm : x ∈ (oneService "service_registry").rows := List.mem_of_find?_eq_some finds.entry
  have key : ∀ y ∈ (oneService "service_registry").rows, y.id = 1 := by
    intro y hy
    simpa [single] using List.mem_map_of_mem (f := Row.id) hy
  exact (oneService "service_registry").row_unique hr hxm ((key r hr).trans (key x hxm).symm)

/-- Of two services the connection of the second stays behind. -/
theorem processUnregister_leaves_connection :
    ∃ d p x s', Reachable [.register (some (thermometerAt "/a")) "serviceregistry/register",
        .register (some (thermometerAt "/b")) "serviceregistry/register"] twoServices ∧
      (processUnregister (bytes "temperature") (bytes "thermometer") (bytes "10.0.0.1") (bytes "8080")).run {}
        ⟨twoServices, none, 0⟩ = (.ok (.ok ()), s') ∧
      FindsPair twoServices (bytes "temperature") (bytes "thermometer") (bytes "10.0.0.1") (bytes "8080") d p x ∧
      ¬Removed d.id p.id twoServices s'.db := by
  have hlink : ∀ n, ({} : Link).fault n = .none := fun _ => rfl
  obtain ⟨d, p, x, finds, hd, hp, hx⟩ := findsPair_thermometer twoServices (by decide +kernel)
    (by decide +kernel) (by decide +kernel)
  obtain ⟨s', run⟩ := processUnregister_returns (s := ⟨twoServices, none, 0⟩) hlink plainPair_thermometer
    validPair_thermometer finds
  refine ⟨d, p, x, s', reachable_twoServices, run, finds, fun removed => ?_⟩
  obtain ⟨h, -⟩ | ⟨-, d', p', x', finds', ⟨h, -⟩ | ⟨-, hdb⟩⟩ := processUnregister_cases plainPair_thermometer run
  · exact absurd rfl h
  · exact absurd rfl h
  obtain ⟨rfl, rfl, rfl⟩ := finds.unique finds'
  have cons := reachable_twoServices.consistent (by simp [Request.isRegister])
  rw [hdb, unregister_removed_iff cons finds.entry, hd, hp] at removed
  -- the second entry of the pair has a connection as well
  have entry : (2, true) ∈ (twoServices "service_registry").rows.map fun r => (r.id, ofPair 1 1 r) := by
    decide +kernel
  have connection : Value.int 2 ∈ (twoServices "service_registry_interface_connection").rows.map
      fun c => c.get "service_registry_id" := by
    decide +kernel
  obtain ⟨r, hr, e⟩ := List.mem_map.1 entry
  obtain ⟨hid, hpair⟩ := Prod.mk.inj e
  obtain ⟨c, hc, hkey⟩ := List.mem_map.1 connection
  have := removed r hr hpair ⟨c, hc, by rw [hid]; exact hkey⟩
  rw [this, hx] at hid
  cases hid

end ArrowheadCore.ServiceRegistry
