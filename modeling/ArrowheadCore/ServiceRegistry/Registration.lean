import ArrowheadCore.ServiceRegistry.Consistency

/-!
# Registrations

What a registration does that comes to its end (`processRegister_ok`), in terms of `store`, and that one with a
valid payload of plain texts does come to its end when no statement fails (`processRegister_returns`).
-/

namespace ArrowheadCore.ServiceRegistry
open Lib Lib.Sql Json Db

/-! ## Payloads -/

section
variable {α β : Type} {p : Payload α} {f : α → Payload β} {b : β}

lemma payload_bind_ok (h : (p >>= f).run = some (.ok b)) : ∃ a, p.run = some (.ok a) ∧ (f a).run = some (.ok b) := by
  cases e : p.run with
  | none =>
    rw [ExceptT.run_bind, e] at h
    cases h
  | some r =>
    rw [ExceptT.run_bind, e] at h
    cases r with
    | error x => cases h
    | ok a => exact ⟨a, rfl, h⟩

lemma payload_if_ok {c : Prop} [Decidable c] {n : Nat} {errResp : List UInt8} {g : Payload β}
    (h : (if c then fail n errResp >>= f else g).run = some (.ok b)) : ¬c ∧ g.run = some (.ok b) := by
  by_cases hc : c
  · rw [if_pos hc] at h
    cases h
  · rw [if_neg hc] at h
    exact ⟨hc, h⟩

lemma check_ok {o : Option α} {a : α} (h : (check o).run = some (.ok a)) : o = some a := by
  cases o with
  | none => cases h
  | some x =>
    cases h
    rfl

end

/-- A payload that is valid has an interface. -/
lemma validRegistryEntry_ok {root : JsonValue} (h : (validRegistryEntry root).run = some (.ok ())) :
    ∃ v, root.child (bytes "interfaces") = some v ∧ (v.itemAt 0).isSet := by
  obtain ⟨definition, -, h⟩ := payload_bind_ok h
  obtain ⟨-, h⟩ := payload_if_ok h
  cases definition with
  | string t =>
    obtain ⟨-, h⟩ := payload_if_ok h
    obtain ⟨provider, -, h⟩ := payload_bind_ok h
    obtain ⟨-, h⟩ := payload_if_ok h
    obtain ⟨name, -, h⟩ := payload_bind_ok h
    obtain ⟨-, h⟩ := payload_if_ok h
    obtain ⟨address, -, h⟩ := payload_bind_ok h
    obtain ⟨-, h⟩ := payload_if_ok h
    obtain ⟨port, -, h⟩ := payload_bind_ok h
    obtain ⟨-, h⟩ := payload_if_ok h
    obtain ⟨interfaces, hi, h⟩ := payload_bind_ok h
    obtain ⟨-, h⟩ := payload_if_ok h
    refine ⟨interfaces, check_ok hi, ?_⟩
    cases hs : (interfaces.itemAt 0).isSet with
    | true => rfl
    | false =>
      simp only [hs] at h
      cases h
  | _ => cases h

lemma parseRegistryEntry_ok {root : JsonValue} {e : ServiceRegistryEntry}
    (h : (parseRegistryEntry root).run = some (.ok e)) :
    ∃ v, root.child (bytes "interfaces") = some v ∧ (parseInterfaces v.items).run = some (.ok e.vInterfaces) := by
  obtain ⟨definition, -, h⟩ := payload_bind_ok h
  obtain ⟨provider, -, h⟩ := payload_bind_ok h
  obtain ⟨name, -, h⟩ := payload_bind_ok h
  obtain ⟨-, h⟩ := payload_if_ok h
  obtain ⟨address, -, h⟩ := payload_bind_ok h
  obtain ⟨port, -, h⟩ := payload_bind_ok h
  obtain ⟨-, h⟩ := payload_if_ok h
  obtain ⟨authInfo, -, h⟩ := payload_bind_ok h
  obtain ⟨uri, -, h⟩ := payload_bind_ok h
  obtain ⟨validity, -, h⟩ := payload_bind_ok h
  obtain ⟨-, h⟩ := payload_if_ok h
  obtain ⟨secure, -, h⟩ := payload_bind_ok h
  obtain ⟨-, h⟩ := payload_if_ok h
  obtain ⟨version, -, h⟩ := payload_bind_ok h
  obtain ⟨metadata, -, h⟩ := payload_bind_ok h
  cases hm : metadata.isSet with
  | false =>
    simp only [hm] at h
    obtain ⟨_, -, h⟩ := payload_bind_ok h
    obtain ⟨interfaces, hi, h⟩ := payload_bind_ok h
    obtain ⟨_, hp, h⟩ := payload_bind_ok h
    cases h
    exact ⟨interfaces, check_ok hi, hp⟩
  | true =>
    simp only [hm] at h
    obtain ⟨_, -, h⟩ := payload_bind_ok h
    obtain ⟨interfaces, hi, h⟩ := payload_bind_ok h
    obtain ⟨_, hp, h⟩ := payload_bind_ok h
    cases h
    exact ⟨interfaces, check_ok hi, hp⟩

/-- The entry that a payload stands for. -/
def Accepts (root : JsonValue) (e : ServiceRegistryEntry) : Prop :=
  (validRegistryEntry root).run = some (.ok ()) ∧ (parseRegistryEntry root).run = some (.ok e)

instance (root : JsonValue) (e : ServiceRegistryEntry) : Decidable (Accepts root e) :=
  inferInstanceAs (Decidable (_ ∧ _))

lemma Accepts.interfaces {root : JsonValue} {e : ServiceRegistryEntry} (h : Accepts root e) : e.vInterfaces ≠ [] := by
  obtain ⟨v, hv, hset⟩ := validRegistryEntry_ok h.1
  obtain ⟨v', hv', hp⟩ := parseRegistryEntry_ok h.2
  have same : v' = v := by simpa using hv'.symm.trans hv
  subst same
  cases v' with
  | array items =>
    cases items with
    | nil => cases hset
    | cons i is =>
      have hi : i.isSet := hset
      have split : JsonValue.items (.array (i :: is)) = i :: is.takeWhile JsonValue.isSet := by
        simp [JsonValue.items, hi]
      rw [split] at hp
      obtain ⟨_, -, hp⟩ := payload_bind_ok hp
      obtain ⟨-, hp⟩ := payload_if_ok hp
      obtain ⟨rest, -, hp⟩ := payload_bind_ok hp
      have := Except.ok.inj (Option.some.inj hp)
      rw [← this]
      simp
  | _ => cases hset

section
variable {link : Link} {s s' : Session}

/-! ## Reading rows by their keys -/

lemma parse_fetchById {sTable : List UInt8} {t : String} (ht : IsName sTable t) (n : Nat) :
    parse (bytes "SELECT * FROM " ++ (sTable ++ (bytes " where id = " ++ (to_string n ++ bytes ";")))) =
      some (.select ⟨none, ⟨t, t⟩, [], some (.eq (.col none "id") (.lit (.int n))), []⟩) := by
  have l1 : Lexes .idle (bytes "SELECT * FROM ") [.kw .select, .sym .star, .kw .from] .idle :=
    lexes_bytes (by decide)
  have l2 : Lexes .idle (bytes " where id = ") [.kw .where, .ident "id", .sym .eq] .idle :=
    lexes_bytes (by decide)
  have l3 : Lexes .idle (bytes ";") [.sym .semicolon] .idle := lexes_bytes (by decide)
  have value := l2.append (l3.to_string (delimits_cons _ (by decide)) n)
  have all := l1.append (value.name (delimits_cons _ (by decide)) ht)
  rw [parse, lex_of_lexes all rfl]
  rfl

lemma fetchById_ok {sTable : List UInt8} {t : String} (ht : IsName sTable t) (hc : hasColumn schema t "id") {n : Nat}
    {row : List Value} (run : fetchById link sTable (to_string n) s = (.ok (some row), s')) :
    s'.db = s.db ∧ ∃ r ∈ (s.db t).rows, r.id = n ∧ row = fullRow t r := by
  obtain ⟨rows, s1, h1, h2⟩ := bind_eq_ok run
  simp only [pure_run, Prod.mk.injEq, Except.ok.injEq] at h2
  obtain ⟨hrow, rfl⟩ := h2
  obtain ⟨hdb, h | h⟩ := fetch_ok link (parse_fetchById ht n) h1
  · refine ⟨hdb, ?_⟩
    rw [select_star_run hc, Option.some.injEq] at h
    rw [← h, head?_rowsWhere, Option.map_eq_some_iff] at hrow
    obtain ⟨r, hr, rfl⟩ := hrow
    obtain ⟨hm, hs⟩ := findRow_mem hr
    simp only [Sql.Row.get, if_true, Value.same, beq_iff_eq, Nat.cast_inj] at hs
    exact ⟨r, hm, hs, rfl⟩
  · subst h
    cases hrow

lemma fetchById_returns {sTable : List UInt8} {t : String} (hlink : ∀ n, link.fault n = .none)
    (ht : IsName sTable t) (hc : hasColumn schema t "id") {r : Row} (hr : r ∈ (s.db t).rows) :
    ∃ row s', fetchById link sTable (to_string r.id) s = (.ok (some row), s') ∧ s'.db = s.db := by
  have read : Gives s.db (fetch link (bytes "SELECT * FROM " ++ (sTable ++ (bytes " where id = " ++
      (to_string r.id ++ bytes ";"))))) ((rowsWhere s.db t "id" (.int r.id)).map (fullRow t)) :=
    select_gives link hlink (parse_fetchById ht r.id) (select_star_run hc _ _)
  obtain ⟨k, h1⟩ := read s rfl
  have found : (findRow s.db t "id" (.int r.id)).isSome := by
    rw [findRow, List.find?_isSome]
    exact ⟨r, hr, by simp [Sql.Row.get, Value.same]⟩
  obtain ⟨x, hx⟩ := Option.isSome_iff_exists.1 found
  refine ⟨fullRow t x, { s with sent := k }, ?_, rfl⟩
  unfold fetchById
  rw [bind_of_ok h1, head?_rowsWhere, hx]
  rfl

/-- The interfaces of a response are those with the given keys. -/
lemma readInterfaces_ok : ∀ {ids : List Nat} {intfs : List Interface} {s s' : Session},
    readInterfaces link (ids.map fun i : Nat => to_string i) s = (.ok (some intfs), s') →
    s'.db = s.db ∧ List.Forall₂ (fun i intf => ∃ r ∈ (s.db "service_interface").rows, r.id = i ∧
      intf = Interface.ofRow (fullRow "service_interface" r)) ids intfs
  | [], intfs, s, s', run => by
    cases run
    exact ⟨rfl, .nil⟩
  | i :: ids, intfs, s, s', run => by
    have table := isName_interface
    obtain ⟨o, s1, h1, h2⟩ := bind_eq_ok run
    cases o with
    | none => cases h2
    | some row =>
      obtain ⟨hdb, r, hr, hid, rfl⟩ := fetchById_ok table (by decide) h1
      obtain ⟨o, s2, h3, h4⟩ := bind_eq_ok h2
      cases o with
      | none => cases h4
      | some rest =>
        cases h4
        obtain ⟨hdb2, ih⟩ := readInterfaces_ok h3
        rw [hdb] at hdb2 ih
        refine ⟨hdb2, .cons ⟨r, hr, hid, ?_⟩ ih⟩
        rw [← hid]
        rfl

/-! ## Registrations that come to their end -/

/-- A response is made of the rows of the registration. -/
structure Responds (k : Keys) (db₁ : Database) (d : ServiceQueryData) : Prop where
  id : d.sId = to_string k.entry
  definition : d.sServiceDefinition_id = to_string k.definition
  provider : d.sProvider_id = to_string k.provider
  interfaces : List.Forall₂ (fun i intf => ∃ r ∈ (db₁ "service_interface").rows, r.id = i ∧
    intf = Interface.ofRow (fullRow "service_interface" r)) k.interfaces d.vInterfaces

lemma processDB_ok {e : ServiceRegistryEntry} (he : e.Plain) {d : ServiceQueryData}
    (run : processDB link e s = (.ok (.ok d), s')) :
    s'.db = (store link.stamp e s.db).2 ∧ Responds (store link.stamp e s.db).1 s'.db d := by
  have definition := isName_definition
  have system := isName_system
  have registry := isName_registry
  obtain ⟨k, s1, h1, run⟩ := bind_eq_ok run
  obtain ⟨hdb1, rfl⟩ := saveEntry_ok he h1
  dsimp only at run
  obtain ⟨o, s2, h2, run⟩ := bind_eq_ok run
  cases o with
  | none => cases run
  | some row1 =>
    obtain ⟨hdb2, -⟩ := fetchById_ok definition (by decide) h2
    obtain ⟨o, s3, h3, run⟩ := bind_eq_ok run
    cases o with
    | none => cases run
    | some row2 =>
      obtain ⟨hdb3, -⟩ := fetchById_ok system (by decide) h3
      obtain ⟨o, s4, h4, run⟩ := bind_eq_ok run
      cases o with
      | none => cases run
      | some intfs =>
        obtain ⟨hdb4, hintfs⟩ := readInterfaces_ok h4
        obtain ⟨o, s5, h5, run⟩ := bind_eq_ok run
        cases o with
        | none => cases run
        | some row3 =>
          obtain ⟨hdb5, -⟩ := fetchById_ok registry (by decide) h5
          cases run
          have hdb : s'.db = s3.db := hdb5.trans hdb4
          refine ⟨hdb.trans (hdb3.trans (hdb2.trans hdb1)), rfl, rfl, rfl, ?_⟩
          rw [hdb]
          exact hintfs

lemma withPayload_ok {α β : Type} {p : Payload α} {answers : Answers} {go : α → DbM (Except ErrorResp β)} {b : β}
    (run : withPayload p answers go s = (.ok (.ok b), s')) :
    ∃ a, p.run = some (.ok a) ∧ go a s = (.ok (.ok b), s') := by
  unfold withPayload at run
  cases hp : p.run with
  | none =>
    rw [hp] at run
    cases run
  | some r =>
    rw [hp] at run
    cases r with
    | ok a => exact ⟨a, rfl, run⟩
    | error f =>
      cases ha : answers f with
      | none =>
        simp only [ha] at run
        cases run
      | some r =>
        simp only [ha] at run
        cases run

/-- A registration that succeeds has stored the entry of its payload. -/
theorem processRegister_ok {root : JsonValue} {errURL : String} {d : ServiceQueryData}
    (run : processRegister link (some root) errURL s = (.ok (.ok d), s')) :
    ∃ e, Accepts root e ∧ processDB link e s = (.ok (.ok d), s') := by
  obtain ⟨⟨⟩, h1, run⟩ := withPayload_ok run
  obtain ⟨e, h2, run⟩ := withPayload_ok run
  obtain ⟨r, s1, h3, run⟩ := bind_eq_ok run
  refine ⟨e, ⟨h1, h2⟩, ?_⟩
  cases r with
  | ok d' =>
    cases run
    exact h3
  | error n =>
    cases ha : storeAnswers errURL n with
    | none =>
      simp only [ha] at run
      cases run
    | some r =>
      simp only [ha] at run
      cases run

/-- What a registration of plain texts has stored when it succeeds. -/
lemma processRegister_stored {root : JsonValue} {errURL : String} {e : ServiceRegistryEntry} {a : ServiceQueryData}
    (hroot : Accepts root e) (he : e.Plain) (run : processRegister link (some root) errURL s = (.ok (.ok a), s')) :
    ∃ k d p r, Stored s.db e k s'.db d p r ∧ Responds k s'.db a := by
  obtain ⟨e', hroot', run⟩ := processRegister_ok run
  have same : e' = e := by simpa using hroot'.2.symm.trans hroot.2
  subst same
  obtain ⟨hdb, resp⟩ := processDB_ok he run
  obtain ⟨d, p, r, st⟩ := store_spec link.stamp e' s.db
  rw [← hdb] at st
  exact ⟨_, d, p, r, st, resp⟩

/-! ## Without failures registrations come to their end -/

lemma readInterfaces_returns (hlink : ∀ n, link.fault n = .none) :
    ∀ {ids : List Nat} {s : Session}, (∀ i ∈ ids, ∃ r ∈ (s.db "service_interface").rows, r.id = i) →
      ∃ intfs s', readInterfaces link (ids.map fun i : Nat => to_string i) s = (.ok (some intfs), s') ∧ s'.db = s.db
  | [], s, _ => ⟨[], s, rfl, rfl⟩
  | i :: ids, s, h => by
    have table := isName_interface
    obtain ⟨r, hr, rfl⟩ := h i (by simp)
    obtain ⟨row, s1, h1, hdb1⟩ := fetchById_returns hlink table (by decide) hr
    have rest : ∀ i ∈ ids, ∃ r ∈ (s1.db "service_interface").rows, r.id = i := by
      intro i hi
      rw [hdb1]
      exact h i (by simp [hi])
    obtain ⟨intfs, s2, h2, hdb2⟩ := readInterfaces_returns hlink rest
    exact ⟨_, s2, (bind_of_ok h1).trans ((bind_of_ok h2).trans rfl), hdb2.trans hdb1⟩

lemma processDB_returns {e : ServiceRegistryEntry} (hlink : ∀ n, link.fault n = .none) (he : e.Plain) (s : Session) :
    ∃ d s', processDB link e s = (.ok (.ok d), s') := by
  have definition := isName_definition
  have system := isName_system
  have registry := isName_registry
  obtain ⟨k, s1, h1, -⟩ := saveEntry_returns hlink he s
  obtain ⟨hdb1, rfl⟩ := saveEntry_ok he h1
  obtain ⟨d, p, r, st⟩ := store_spec link.stamp e s.db
  obtain ⟨hd, hp, hr⟩ := st.keys
  rw [← hdb1] at st
  obtain ⟨row1, s2, h2, hdb2⟩ := fetchById_returns hlink definition (by decide) (findRow_mem st.definition).1
  obtain ⟨row2, s3, h3, hdb3⟩ := fetchById_returns (s := s2) hlink system (by decide)
    (hdb2 ▸ (findRow_mem st.provider).1)
  have known : ∀ i ∈ (store link.stamp e s.db).1.interfaces,
      ∃ r ∈ (s3.db "service_interface").rows, r.id = i := by
    intro i hi
    obtain ⟨name, -, x, hx, rfl⟩ := forall₂_exists_left st.interfaces hi
    rw [hdb3, hdb2]
    exact ⟨x, (findRow_mem hx).1, rfl⟩
  obtain ⟨intfs, s4, h4, hdb4⟩ := readInterfaces_returns hlink known
  obtain ⟨row3, s5, h5, -⟩ := fetchById_returns (s := s4) hlink registry (by decide)
    (hdb4 ▸ hdb3 ▸ hdb2 ▸ (findRow_mem st.entry).1)
  rw [← hd] at h2
  rw [← hp] at h3
  rw [← hr] at h5
  exact ⟨_, _, (bind_of_ok h1).trans ((bind_of_ok h2).trans ((bind_of_ok h3).trans ((bind_of_ok h4).trans
    ((bind_of_ok h5).trans rfl))))⟩

/-- Without failures a registration with plain texts succeeds. -/
theorem processRegister_returns {root : JsonValue} {e : ServiceRegistryEntry} (hlink : ∀ n, link.fault n = .none)
    (hroot : Accepts root e) (he : e.Plain) (errURL : String) (s : Session) :
    ∃ d s', processRegister link (some root) errURL s = (.ok (.ok d), s') := by
  obtain ⟨d, s', h⟩ := processDB_returns hlink he s
  refine ⟨d, s', ?_⟩
  unfold processRegister withPayload
  simp only [hroot.1, hroot.2]
  rw [bind_of_ok h]
  rfl

end

/-! ## A registration to look at -/

/-- The service `temperature` of a thermometer at this address, with these interfaces. -/
def thermometer (address : String) (interfaces : List String) : JsonValue := .object [
  (bytes "serviceDefinition", .string (bytes "temperature")),
  (bytes "providerSystem", .object [
    (bytes "systemName", .string (bytes "Thermometer")),
    (bytes "address", .string (bytes address)),
    (bytes "port", .number 8080)]),
  (bytes "serviceUri", .string (bytes "/temperature")),
  (bytes "endOfValidity", .string (bytes "2030-01-01 00:00:00")),
  (bytes "secure", .string (bytes "NOT_SECURE")),
  (bytes "version", .number 1),
  (bytes "interfaces", .array (interfaces.map fun i => .string (bytes i)))]

def thermometerEntry (address : String) (interfaces : List String) : ServiceRegistryEntry where
  sServiceDefinition := bytes "temperature"
  sProviderSystem_SystemName := bytes "thermometer"
  sProviderSystem_Address := bytes address
  port := 8080
  sProviderSystem_AuthInfo := []
  sServiceUri := bytes "/temperature"
  sEndOfValidity := bytes "2030-01-01 00:00:00"
  sSecure := bytes "not_secure"
  sMetaData := []
  version := 1
  vInterfaces := interfaces.map bytes

instance (e : ServiceRegistryEntry) : Decidable e.Plain :=
  decidable_of_iff (Sql.Plain e.sServiceDefinition ∧ Sql.Plain e.sProviderSystem_SystemName ∧
      Sql.Plain e.sProviderSystem_Address ∧ Sql.Plain e.sProviderSystem_AuthInfo ∧ Sql.Plain e.sServiceUri ∧
      Sql.Plain e.sEndOfValidity ∧ Sql.Plain e.sSecure ∧ Sql.Plain e.sMetaData ∧ ∀ i ∈ e.vInterfaces, Sql.Plain i)
    ⟨fun ⟨h1, h2, h3, h4, h5, h6, h7, h8, h9⟩ => ⟨h1, h2, h3, h4, h5, h6, h7, h8, h9⟩,
      fun h => ⟨h.1, h.2, h.3, h.4, h.5, h.6, h.7, h.8, h.9⟩⟩

def emptyDatabase : Database := fun _ => ⟨[], 0, Table.ordered_nil, Table.assigned_nil⟩

lemma consistent_empty : Consistent emptyDatabase := by
  constructor <;> simp [emptyDatabase]

end ArrowheadCore.ServiceRegistry
