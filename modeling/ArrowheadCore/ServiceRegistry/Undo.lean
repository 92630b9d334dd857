import ArrowheadCore.ServiceRegistry.Removal

/-!
# Registering and unregistering

A registration stores the names of its definition and of its system in lower case and without blanks, an
unregistration looks for the names as they are given to it. It takes back what the registration did if and only if
the names are given in the stored spelling and the registration has not found a row of another provider
(`unregister_undoes_iff`).
-/

namespace ArrowheadCore.ServiceRegistry
open Lib Lib.Sql Json Db

/-! ## The names of a payload -/

/-- The payload names this definition and this system. -/
def NamesPair (root : JsonValue) (definition name : List UInt8) : Prop :=
  (root.child (bytes "serviceDefinition") >>= JsonValue.toString) = some definition ∧
    ∃ provider, root.child (bytes "providerSystem") = some provider ∧
      (provider.child (bytes "systemName") >>= JsonValue.toString) = some name

/-- Where the entry has its names, its port and its metadata from. -/
lemma parseRegistryEntry_reads {root : JsonValue} {e : ServiceRegistryEntry}
    (h : (parseRegistryEntry root).run = some (.ok e)) :
    ∃ definition name metadata, NamesPair root definition name ∧ root.child (bytes "metadata") = some metadata ∧
      e.sServiceDefinition = toLowerAndTrim definition ∧ e.sProviderSystem_SystemName = toLowerAndTrim name ∧
      0 ≤ e.port ∧ e.port ≤ 65535 ∧
      (if metadata.isSet then parseMetadata metadata else some []) = some e.sMetaData := by
  obtain ⟨definition, h1, h⟩ := payload_bind_ok h
  obtain ⟨provider, h2, h⟩ := payload_bind_ok h
  obtain ⟨name, h3, h⟩ := payload_bind_ok h
  obtain ⟨-, h⟩ := payload_if_ok h
  obtain ⟨address, -, h⟩ := payload_bind_ok h
  obtain ⟨port, -, h⟩ := payload_bind_ok h
  obtain ⟨range, h⟩ := payload_if_ok h
  have low : 0 ≤ port := by omega
  have high : port ≤ 65535 := by omega
  obtain ⟨authInfo, -, h⟩ := payload_bind_ok h
  obtain ⟨uri, -, h⟩ := payload_bind_ok h
  obtain ⟨validity, -, h⟩ := payload_bind_ok h
  obtain ⟨-, h⟩ := payload_if_ok h
  obtain ⟨secure, -, h⟩ := payload_bind_ok h
  obtain ⟨-, h⟩ := payload_if_ok h
  obtain ⟨version, -, h⟩ := payload_bind_ok h
  obtain ⟨metadata, h4, h⟩ := payload_bind_ok h
  have names : NamesPair root definition name := ⟨check_ok h1, provider, check_ok h2, check_ok h3⟩
  refine ⟨definition, name, metadata, names, check_ok h4, ?_⟩
  cases hm : metadata.isSet with
  | false =>
    simp only [hm] at h
    obtain ⟨text, h5, h⟩ := payload_bind_ok h
    obtain ⟨interfaces, -, h⟩ := payload_bind_ok h
    obtain ⟨_, -, h⟩ := payload_bind_ok h
    cases h
    cases h5
    exact ⟨rfl, rfl, low, high, rfl⟩
  | true =>
    simp only [hm] at h
    obtain ⟨text, h5, h⟩ := payload_bind_ok h
    obtain ⟨interfaces, -, h⟩ := payload_bind_ok h
    obtain ⟨_, -, h⟩ := payload_bind_ok h
    cases h
    exact ⟨rfl, rfl, low, high, check_ok h5⟩

/-- A payload that is valid has a definition that is not empty. -/
lemma validRegistryEntry_definition {root : JsonValue} (h : (validRegistryEntry root).run = some (.ok ()))
    {definition : List UInt8} (hd : (root.child (bytes "serviceDefinition") >>= JsonValue.toString) = some definition) :
    definition ≠ [] := by
  obtain ⟨v, hv, h⟩ := payload_bind_ok h
  rw [check_ok hv] at hd
  obtain ⟨-, h⟩ := payload_if_ok h
  cases v with
  | string t =>
    obtain ⟨ht, -⟩ := payload_if_ok h
    cases hd
    exact ht
  | _ => cases h

lemma NamesPair.unique {root : JsonValue} {d n d' n' : List UInt8} (h : NamesPair root d n) (h' : NamesPair root d' n') :
    d = d' ∧ n = n' := by
  obtain ⟨hd, p, hp, hn⟩ := h
  obtain ⟨hd', p', hp', hn'⟩ := h'
  have e : p = p' := Option.some.inj (hp.symm.trans hp')
  subst e
  exact ⟨Option.some.inj (hd.symm.trans hd'), Option.some.inj (hn.symm.trans hn')⟩

lemma toString_no_nul {v : JsonValue} {s : List UInt8} (h : v.toString = some s) : 0 ∉ s := by
  cases v with
  | string t =>
    cases h
    intro h0
    simpa using List.mem_takeWhile_imp h0
  | _ => cases h

lemma tolower_quote {c : UInt8} (h : c = QUOTE ∨ c = BACKSLASH) : tolower c = c ∧ isTrimmed c = false := by
  rcases h with rfl | rfl <;> decide

/-- The normaliser takes no quote and no backslash away. -/
lemma plain_of_toLowerAndTrim {s : List UInt8} (h0 : 0 ∉ s) (h : Plain (toLowerAndTrim s)) : Plain s := by
  intro c hc
  have kept : ∀ q, (q = QUOTE ∨ q = BACKSLASH) → c ≠ q := by
    rintro q hq rfl
    obtain ⟨e, ht⟩ := tolower_quote hq
    have hm : c ∈ toLowerAndTrim s := by
      rw [toLowerAndTrim, List.mem_filter]
      exact ⟨List.mem_map.2 ⟨c, hc, e⟩, by simp [ht]⟩
    rcases hq with rfl | rfl
    · exact (h _ hm).2.1 rfl
    · exact (h _ hm).2.2 rfl
  exact ⟨fun e => h0 (e ▸ hc), kept _ (.inl rfl), kept _ (.inr rfl)⟩

lemma stoi_port {z : Int} (h0 : 0 ≤ z) (h1 : z ≤ 65535) : stoi (to_string z) = some z := by
  obtain ⟨n, rfl⟩ := Int.eq_ofNat_of_zero_le h0
  rw [stoi_to_string, if_pos (by omega)]

/-! ## New rows have new keys -/

lemma StoreStep.lastId {db db₁ : Database} (h : StoreStep db db₁) (t : String) :
    (db t).lastId ≤ (db₁ t).lastId ∧ ∀ x ∈ (db₁ t).rows, x ∈ (db t).rows ∨ (db t).lastId < x.id := by
  obtain ⟨stamp, hq, -⟩ := h
  rename_i q c v
  obtain ⟨r, -, -, ⟨-, e⟩ | ⟨-, hid, -, -, e⟩⟩ := ensure_spec hq stamp db
  · rw [e]
    exact ⟨le_rfl, fun _ hx => .inl hx⟩
  · rw [e]
    refine ⟨?_, fun x hx => ?_⟩
    · rcases eq_or_ne t q.table with rfl | ht
      · rw [Function.update_self]
        exact Nat.le_succ _
      · rw [Function.update_of_ne ht]
    · obtain hx | ⟨rfl, rfl⟩ := mem_append_row hid hx
      · exact .inl hx
      · exact .inr (by rw [hid]; exact Nat.lt_succ_self _)

/-- A row that was not there before has a key that was not assigned before. -/
lemma Stores.new_key {db db₁ : Database} (h : Stores db db₁) (t : String) :
    (db t).lastId ≤ (db₁ t).lastId ∧ ∀ x ∈ (db₁ t).rows, x ∈ (db t).rows ∨ (db t).lastId < x.id := by
  induction h with
  | refl => exact ⟨le_rfl, fun _ hx => .inl hx⟩
  | tail _ step ih =>
    obtain ⟨le, new⟩ := ih
    obtain ⟨le', new'⟩ := step.lastId t
    refine ⟨le.trans le', fun x hx => ?_⟩
    obtain hx | hx := new' x hx
    · exact new x hx
    · exact .inr (le.trans_lt hx)

/-- A registration of plain texts has taken some steps. -/
lemma Accepts.stores {root : JsonValue} {e : ServiceRegistryEntry} {link : Link} {s s₁ : Session} {errURL : String}
    {r : Except Exn (Except ErrorResp ServiceQueryData)} (hroot : Accepts root e) (plain : e.Plain)
    (run : processRegister link (some root) errURL s = (r, s₁)) : Stores s.db s₁.db := by
  have plainRoot : ∀ v e', some root = some v → Accepts v e' → e'.Plain := by
    rintro v e' hv h'
    cases hv
    have same : e' = e := by simpa using h'.2.symm.trans hroot.2
    exact same ▸ plain
  have stores : Stores s.db (processRegister link (some root) errURL s).2.db :=
    processRegister_stores plainRoot errURL s
  rwa [run] at stores

/-! ## The way back -/

/-- No entry belongs to a definition and a system with these names. -/
def NoEntry (db : Database) (definition name : List UInt8) : Prop :=
  ∀ r ∈ (db "service_registry").rows, ∀ d ∈ (db "service_definition").rows, ∀ p ∈ (db "system_").rows,
    d.get "service_definition" = .text definition → p.get "system_name" = .text name →
      ¬(r.get "service_id" = .int d.id ∧ r.get "system_id" = .int p.id)

/-- The names are given as they are stored and the name of the system and its address are not empty; the first system
    with the name, if there is one, has the address and the port, and no entry has the URI. -/
def CanBeUndone (db : Database) (e : ServiceRegistryEntry) (definition name : List UInt8) : Prop :=
  definition = e.sServiceDefinition ∧ name = e.sProviderSystem_SystemName ∧ name ≠ [] ∧
    e.sProviderSystem_Address ≠ [] ∧
    (∀ p, findRow db "system_" "system_name" (.text e.sProviderSystem_SystemName) = some p → IsProvider e p) ∧
    findRow db "service_registry" "service_uri" (.text e.sServiceUri) = none

/-- The tables of the entries and of their connections hold the same rows. -/
def SameEntries (db db₁ : Database) : Prop :=
  (db₁ "service_registry").rows = (db "service_registry").rows ∧
    (db₁ "service_registry_interface_connection").rows = (db "service_registry_interface_connection").rows

section
variable {db db₁ : Database} {e : ServiceRegistryEntry} {k : Keys} {d p r : Row}

lemma Typed.same_text (h : Typed db) {t c : String} (hc : (t, c) ∈ textColumns) {x : Row} {v : List UInt8}
    (hm : x ∈ (db t).rows) (hs : (x.get c).same (.text v)) : x.get c = .text v := by
  have hz := h.texts (t, c) hc x hm
  cases e : x.get c with
  | null => simp [e, Value.same] at hs
  | int z => exact absurd e (hz z)
  | text s =>
    rw [e] at hs
    simpa [Value.same] using hs

lemma same_int {a : Value} {n : Nat} (typed : ∃ m : Nat, a = .int m) : a.same (.int n) ↔ a = .int n := by
  obtain ⟨m, rfl⟩ := typed
  simp [Value.same]

lemma Typed.key (h : Typed db) {t c u : String} (hk : (t, c, u) ∈ foreignKeys) {x : Row} (hx : x ∈ (db t).rows) :
    ∃ n : Nat, n ≤ (db u).lastId ∧ x.get c = .int n := h.keys (t, c, u) hk x hx

/-- The entries of a pair by their keys. -/
lemma ofPair_iff (typed : Typed db) {x : Row} (hx : x ∈ (db "service_registry").rows) (d p : Nat) :
    ofPair d p x ↔ x.get "service_id" = .int d ∧ x.get "system_id" = .int p := by
  obtain ⟨n, -, hn⟩ := typed.key (c := "service_id") (u := "service_definition") (by simp [foreignKeys]) hx
  obtain ⟨m, -, hm⟩ := typed.key (c := "system_id") (u := "system_") (by simp [foreignKeys]) hx
  rw [ofPair, Bool.and_eq_true, same_int ⟨n, hn⟩, same_int ⟨m, hm⟩]

/-- An unregistration that restores the entries behind a registration has removed the entry of the registration. -/
lemma Stored.of_restored (st : Stored db e k db₁ d p r) {d' p' x : Row} {definition name address port : List UInt8}
    (finds : FindsPair db₁ definition name address port d' p' x)
    (same : (unregister d'.id p'.id x.id db₁ "service_registry").rows = (db "service_registry").rows) :
    findRow db "service_registry" "service_uri" (.text e.sServiceUri) = none ∧ ofPair d'.id p'.id r := by
  rw [unregister_entries] at same
  have hxm : x ∈ (db₁ "service_registry").rows := List.mem_of_find?_eq_some finds.entry
  have hxp : ofPair d'.id p'.id x := by simpa using List.find?_some finds.entry
  have removed : x ∉ (db "service_registry").rows := by
    rw [← same, List.mem_filter]
    simp [hxp]
  obtain ⟨-, rows⟩ | ⟨none_, rows, -⟩ := st.newEntry
  · rw [rows] at hxm
    exact absurd hxm removed
  · rw [rows, List.mem_append, List.mem_singleton] at hxm
    obtain hxm | rfl := hxm
    · exact absurd hxm removed
    · exact ⟨none_, hxp⟩

/-- A registration that an unregistration can take back has found no row of another provider. -/
lemma Stored.canBeUndone (typed : Typed db₁) (st : Stored db e k db₁ d p r) {d' p' x : Row}
    {definition name : List UInt8}
    (valid : ValidPair definition name e.sProviderSystem_Address e.sProviderSystem_Port)
    (finds : FindsPair db₁ definition name e.sProviderSystem_Address e.sProviderSystem_Port d' p' x)
    (same : (unregister d'.id p'.id x.id db₁ "service_registry").rows = (db "service_registry").rows) :
    CanBeUndone db e definition name := by
  obtain ⟨none_, hpair⟩ := st.of_restored finds same
  have hrm : r ∈ (db₁ "service_registry").rows := (findRow_mem st.entry).1
  obtain ⟨hd, hp⟩ := (ofPair_iff typed hrm _ _).1 hpair
  -- the pair that was found is the one of the registration
  obtain ⟨hold, -⟩ | ⟨-, -, -, hd', hp', -⟩ := st.newEntry
  · rw [none_] at hold
    cases hold
  have hdm : d ∈ (db₁ "service_definition").rows := (findRow_mem st.definition).1
  have hpm : p ∈ (db₁ "system_").rows := (findRow_mem st.provider).1
  have hd'm := findRow_mem finds.definition
  obtain ⟨hp'm, hname, haddress, hport⟩ := findSystem_mem finds.system
  have e1 : d = d' := (db₁ "service_definition").row_unique hdm hd'm.1 (by simpa using hd'.symm.trans hd)
  have e2 : p = p' := (db₁ "system_").row_unique hpm hp'm (by simpa using hp'.symm.trans hp)
  subst e1 e2
  have textName : ("system_", "system_name") ∈ textColumns := by simp [textColumns]
  have textAddress : ("system_", "address") ∈ textColumns := by simp [textColumns]
  have textDefinition : ("service_definition", "service_definition") ∈ textColumns := by simp [textColumns]
  have definition_ : definition = e.sServiceDefinition := by
    have h1 := typed.same_text textDefinition hdm hd'm.2
    have h2 := typed.same_text textDefinition hdm (findRow_mem st.definition).2
    simpa using h1.symm.trans h2
  have name_ : name = e.sProviderSystem_SystemName := by
    have h1 := typed.same_text textName hpm hname
    have h2 := typed.same_text textName hpm (findRow_mem st.provider).2
    simpa using h1.symm.trans h2
  have provider : IsProvider e p := by
    refine ⟨name_ ▸ typed.same_text textName hpm hname, typed.same_text textAddress hpm haddress, ?_⟩
    cases ep : p.get "port" with
    | null => simp [ep, Value.same] at hport
    | int z =>
      rw [ep, ServiceRegistryEntry.sProviderSystem_Port] at hport
      simpa [Value.same, leadingInt_to_string] using hport
    | text t => exact absurd ep (typed.ports p hpm t)
  refine ⟨definition_, name_, valid.2.1, valid.2.2.1, fun q hq => ?_, none_⟩
  obtain hold | ⟨hnone, -⟩ := st.newProvider
  · rw [hq] at hold
    cases hold
    exact provider
  · rw [hq] at hnone
    cases hnone

/-- The first row that meets a condition is the first one that meets a stronger one, if it meets it. -/
lemma find?_of_imp {α : Type} {p q : α → Bool} {l : List α} {a : α} (h : l.find? p = some a) (ha : q a)
    (imp : ∀ x, q x → p x) : l.find? q = some a := by
  induction l with
  | nil => cases h
  | cons x xs ih =>
    by_cases hp : p x
    · rw [List.find?_cons_of_pos hp] at h
      cases h
      exact List.find?_cons_of_pos ha
    · rw [List.find?_cons_of_neg hp] at h
      rw [List.find?_cons_of_neg fun hq => hp (imp x hq)]
      exact ih h

/-- What the unregistration of a registration that can be undone finds and leaves behind. -/
lemma Stored.undone (typed : Typed db) (stores : Stores db db₁) (st : Stored db e k db₁ d p r)
    (interfaces : e.vInterfaces ≠ []) {definition name : List UInt8}
    (free : NoEntry db e.sServiceDefinition e.sProviderSystem_SystemName) (can : CanBeUndone db e definition name) :
    FindsPair db₁ definition name e.sProviderSystem_Address e.sProviderSystem_Port d p r ∧
      SameEntries db (unregister d.id p.id r.id db₁) := by
  obtain ⟨rfl, rfl, -, -, provider, none_⟩ := can
  have typed₁ := typed.stores stores
  have hprov : IsProvider e p := by
    obtain hold | ⟨-, hnew⟩ := st.newProvider
    · exact provider p hold
    · exact hnew
  obtain ⟨hold, -⟩ | ⟨-, rows, hid, hd, hp, -⟩ := st.newEntry
  · rw [none_] at hold
    cases hold
  have hdm : d ∈ (db₁ "service_definition").rows := (findRow_mem st.definition).1
  have hpm : p ∈ (db₁ "system_").rows := (findRow_mem st.provider).1
  -- no old entry belongs to the pair
  have other : ∀ x ∈ (db "service_registry").rows, ofPair d.id p.id x = false := by
    intro x hx
    rw [Bool.eq_false_iff]
    intro hpair
    obtain ⟨h1, h2⟩ := (ofPair_iff typed hx _ _).1 hpair
    obtain ⟨n, hn, h3⟩ := typed.key (c := "service_id") (u := "service_definition") (by simp [foreignKeys]) hx
    obtain ⟨m, hm, h4⟩ := typed.key (c := "system_id") (u := "system_") (by simp [foreignKeys]) hx
    have hn' : d.id = n := by simpa using h1.symm.trans h3
    have hm' : p.id = m := by simpa using h2.symm.trans h4
    have old : d ∈ (db "service_definition").rows := by
      obtain h | h := (stores.new_key "service_definition").2 d hdm
      · exact h
      · omega
    have old' : p ∈ (db "system_").rows := by
      obtain h | h := (stores.new_key "system_").2 p hpm
      · exact h
      · omega
    have text := typed₁.same_text (t := "service_definition") (by simp [textColumns]) hdm (findRow_mem st.definition).2
    exact free x hx d old p old' text hprov.1 ⟨h1, h2⟩
  have own : ofPair d.id p.id r := by simp [ofPair, hd, hp, Value.same]
  refine ⟨⟨st.definition, ?_, ?_⟩, ?_, ?_⟩
  · refine find?_of_imp st.provider ?_ fun x hx => ?_
    · simp [hprov.1, hprov.2.1, hprov.2.2, Value.same, ServiceRegistryEntry.sProviderSystem_Port, leadingInt_to_string]
    · exact (Bool.and_eq_true_iff.1 hx).1
  · rw [rows, List.find?_append, List.find?_eq_none.2 fun x hx => by simp [other x hx]]
    simp [own]
  · rw [unregister_entries, rows, List.filter_append, List.filter_eq_self.2 fun x hx => by simp [other x hx]]
    simp [own]
  · -- keys of entries that are stored are older than the new one
    have older : ∀ c ∈ (db "service_registry_interface_connection").rows, ofEntry r.id c = false := by
      intro c hc
      obtain ⟨n, hn, hkey⟩ := typed.key (c := "service_registry_id") (u := "service_registry") (by simp [foreignKeys]) hc
      rw [Bool.eq_false_iff, ne_eq, ofEntry_iff typed hc, hkey, hid]
      simp only [Value.int.injEq, Nat.cast_inj]
      omega
    obtain ⟨-, hids | hfound⟩ | ⟨c, i, is, -, -, hrows, hc, -⟩ := st.connections
    · have each := st.interfaces
      rw [hids] at each
      exact absurd (List.forall₂_nil_right_iff.1 each) interfaces
    · obtain ⟨c, hc⟩ := Option.isSome_iff_exists.1 hfound
      obtain ⟨hcm, hkey⟩ := findRow_mem hc
      have := older c hcm
      rw [ofEntry, hkey] at this
      cases this
    · rw [unregister_connections, hrows, List.filter_append, List.filter_eq_self.2 fun x hx => by simp [older x hx]]
      simp [ofEntry, hc, same_key]

end

end ArrowheadCore.ServiceRegistry
