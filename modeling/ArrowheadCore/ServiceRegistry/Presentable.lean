import ArrowheadCore.ServiceRegistry.Listing
import ArrowheadCore.ServiceRegistry.Paging

/-!
# The texts of entries

An entry of the listing is the text of a JSON object if and only if its numbers are of the type `int` and it has
interfaces, as long as the texts of its columns may stand between quotes as they are (`createRegistryEntry_ok`,
`createRegistryEntry_needs`).
-/

namespace ArrowheadCore.ServiceRegistry
open Lib Lib.Sql Json Db
open JsonView hiding parse
open Grammar hiding IsName

/-! ## What can be shown -/

/-- The columns that are written between quotes. -/
def quotedColumns : List (String × String) :=
  [("service_interface", "interface_name"), ("service_interface", "created_at"), ("service_interface", "updated_at"),
    ("service_definition", "service_definition"), ("service_definition", "created_at"),
    ("service_definition", "updated_at"), ("system_", "system_name"), ("system_", "address"),
    ("system_", "authentication_info"), ("system_", "created_at"), ("system_", "updated_at"),
    ("service_registry", "service_uri"), ("service_registry", "end_of_validity"), ("service_registry", "secure"),
    ("service_registry", "created_at"), ("service_registry", "updated_at")]

/-- The texts of the tables may stand between quotes as they are. -/
structure Quotable (db : Database) : Prop where
  texts : ∀ k ∈ quotedColumns, ∀ r ∈ (db k.1).rows, IsContent (textOf r k.2)
  metadata : ∀ r ∈ (db "service_registry").rows, ∀ kv ∈ storedPairs (textOf r "metadata"),
    IsContent kv.1 ∧ IsContent kv.2

/-- The system has an `int` as its key and as its port. -/
structure SystemFits (p : Row) : Prop where
  key : p.id < 2 ^ 31
  port : ∃ z, p.get "port" = .int z ∧ -2 ^ 31 ≤ z ∧ z < 2 ^ 31

/-- The entry has an `int` as its key and a version, it has interfaces, and their keys are of the type `int` too. -/
structure EntryFits (db : Database) (r : Row) : Prop where
  key : r.id < 2 ^ 31
  version : r.get "version" ≠ .null
  connected : ∃ c ∈ (db "service_registry_interface_connection").rows, c.get "service_registry_id" = .int r.id
  interfaces : ∀ c ∈ (db "service_registry_interface_connection").rows, c.get "service_registry_id" = .int r.id →
    ∀ i : Nat, c.get "interface_id" = .int i → i < 2 ^ 31

/-- The tables can be listed in groups. -/
structure Presentable (db : Database) : Prop where
  nonempty : (db "system_").rows ≠ []
  systems : ∀ p ∈ (db "system_").rows, SystemFits p ∧ ∃ r ∈ (db "service_registry").rows, r.get "system_id" = .int p.id
  definitions : ∀ d ∈ (db "service_definition").rows, d.id < 2 ^ 31 ∧
    ∃ r ∈ (db "service_registry").rows, r.get "service_id" = .int d.id
  entries : ∀ r ∈ (db "service_registry").rows, EntryFits db r

/-! ## Objects with a key -/

/-- The text is that of an object whose first member is the key. -/
def ShowsKey (s : List UInt8) (r : Row) : Prop :=
  ∃ ms, Denotes s (.object ((bytes "id", numberNode r.id) :: ms))

/-- A member that is a text of JSON. -/
def ShownMember (t : List UInt8 × List UInt8) : Prop := Clean t.1 ∧ ∃ v, Denotes t.2 v

def textMember (key : String) (value : List UInt8) : List UInt8 × List UInt8 :=
  (bytes key, bytes "\"" ++ (value ++ bytes "\""))

lemma shownMember_of {key : String} {s : List UInt8} {v : JsonNode} (hk : Clean (bytes key)) (h : Denotes s v) :
    ShownMember (bytes key, s) := ⟨hk, v, h⟩

lemma shownMember_text {key : String} {value : List UInt8} (hk : Clean (bytes key)) (h : IsContent value) :
    ShownMember (textMember key value) := by
  obtain ⟨out, h⟩ := h
  exact shownMember_of hk (.of_spells h)

lemma shownMember_int {key : String} (hk : Clean (bytes key)) (z : Int) : ShownMember (bytes key, to_string z) :=
  shownMember_of hk (.number z)

/-- The texts of a builder that has written a key first. -/
def keyedText (n : Nat) (texts : List (List UInt8 × List UInt8)) : List UInt8 :=
  objectText ((bytes "id", to_string n) :: texts)

lemma showsKey_keyedText {r : Row} {texts : List (List UInt8 × List UInt8)} (h : ∀ t ∈ texts, ShownMember t) :
    ShowsKey (keyedText r.id texts) r := by
  have each : ∀ t ∈ texts, ∃ m : List UInt8 × JsonNode, t.1 = m.1 ∧ Clean t.1 ∧ Denotes t.2 m.2 := by
    intro t ht
    obtain ⟨hk, v, hv⟩ := h t ht
    exact ⟨(t.1, v), rfl, hk, hv⟩
  obtain ⟨ms, hms⟩ := forall₂_of_forall_exists each
  have key : Clean (bytes "id") := by decide
  exact ⟨ms, .object (.cons ⟨rfl, key, .number r.id⟩ hms) (by simp)⟩

/-- A builder that has written these members. -/
def builder (texts : List (List UInt8 × List UInt8)) : Out := Out.ofText (bytes "\x7b" ++ membersText texts)

lemma builder_nil : newBuilder = builder [] := newBuilder_eq

lemma addStr_builder (key : String) (value : List UInt8) (texts : List (List UInt8 × List UInt8)) :
    addStr (bytes key) value (builder texts) = builder (texts ++ [textMember key value]) := by
  rw [builder, addStr_eq, builder, membersText_append, List.append_assoc]
  rfl

lemma addInt_builder (key : String) (z : Int) (texts : List (List UInt8 × List UInt8)) :
    addInt (bytes key) z (builder texts) = builder (texts ++ [(bytes key, to_string z)]) := by
  rw [builder, addInt_eq, builder, membersText_append, List.append_assoc]

lemma addObj_builder (key : String) (value : List UInt8) (texts : List (List UInt8 × List UInt8)) :
    addObj (bytes key) value (builder texts) = builder (texts ++ [(bytes key, value)]) := by
  rw [builder, addObj_eq, builder, membersText_append, List.append_assoc]

lemma to_arrayObj_builder (key : String) (items : List (List UInt8)) (texts : List (List UInt8 × List UInt8)) :
    to_arrayObj (bytes key) items (builder texts) = builder (texts ++ [(bytes key, arrayText items)]) := by
  rw [builder, to_arrayObj_eq, builder, membersText_append, List.append_assoc]

lemma str_builder {t : List UInt8 × List UInt8} {texts : List (List UInt8 × List UInt8)} :
    str (builder (t :: texts)) = objectText (t :: texts) := str_membersText (by simp)

lemma addIntText_nat (key : String) (n : Nat) (o : Out) : addIntText key (to_string n) o =
    if n < 2 ^ 31 then .ok (addInt (bytes key) n o) else .error (.runtimeError "stoi") := by
  rw [addIntText, stoi_to_string]
  split_ifs <;> rfl

section
variable {db : Database}

/-! ### Definitions and interfaces -/

/-- The four members of a definition and of an interface. -/
def namedMembers (key : String) (name created updated : List UInt8) : List (List UInt8 × List UInt8) :=
  [textMember key name, textMember "createdAt" created, textMember "updatedAt" updated]

lemma shownMember_named (key : String) {name created updated : List UInt8} (hk : Clean (bytes key))
    (h1 : IsContent name) (h2 : IsContent created) (h3 : IsContent updated) :
    ∀ t ∈ namedMembers key name created updated, ShownMember t := by
  simp only [namedMembers, List.forall_mem_cons]
  exact ⟨shownMember_text hk h1, shownMember_text (by decide) h2, shownMember_text (by decide) h3, by simp⟩

lemma createInterface_eq (i : Nat) (name created updated : List UInt8) :
    createInterface ⟨to_string i, name, created, updated⟩ =
      if i < 2 ^ 31 then .ok (keyedText i (namedMembers "interfaceName" name created updated))
      else .error (.runtimeError "stoi") := by
  rw [createInterface, addIntText_nat]
  split_ifs with h
  · show Except.ok (str (addStr _ _ (addStr _ _ (addStr _ _ (addInt _ _ newBuilder))))) = _
    rw [builder_nil, addInt_builder, addStr_builder, addStr_builder, addStr_builder]
    exact congrArg Except.ok str_builder
  · rfl

lemma createServiceDefinition_eq (r d p : Row) (intfs : List Interface) :
    createServiceDefinition (entryData r d p intfs) =
      if d.id < 2 ^ 31 then .ok (keyedText d.id (namedMembers "serviceDefinition" (textOf d "service_definition")
        (textOf d "created_at") (textOf d "updated_at")))
      else .error (.runtimeError "stoi") := by
  rw [createServiceDefinition, entryData, addIntText_nat]
  split_ifs with h
  · show Except.ok (str (addStr _ _ (addStr _ _ (addStr _ _ (addInt _ _ newBuilder))))) = _
    rw [builder_nil, addInt_builder, addStr_builder, addStr_builder, addStr_builder]
    exact congrArg Except.ok str_builder
  · rfl

/-! ### Systems -/

def systemMembers (p : Row) (port : Int) : List (List UInt8 × List UInt8) :=
  [textMember "systemName" (textOf p "system_name"), textMember "address" (textOf p "address"),
    (bytes "port", to_string port), textMember "authenticationInfo" (textOf p "authentication_info"),
    textMember "createdAt" (textOf p "created_at"), textMember "updatedAt" (textOf p "updated_at")]

lemma textOf_value {r : Row} {c : String} {z : Int} (h : r.get c = .int z) : textOf r c = to_string z := by
  rw [textOf, h]
  rfl

lemma textOf_null {r : Row} {c : String} (h : r.get c = .null) : textOf r c = [] := by
  rw [textOf, h]
  rfl

lemma createSRSystem_ok {p : Row} (h : SystemFits p) :
    ∃ port, createSRSystem (systemData p) = .ok (keyedText p.id (systemMembers p port)) := by
  obtain ⟨z, hz, bounds⟩ := h.port
  have id : ∀ o, addIntText "id" (systemData p).sId o = .ok (addInt (bytes "id") p.id o) :=
    fun o => (addIntText_nat _ _ _).trans (if_pos h.key)
  have port : ∀ o, addIntText "port" (systemData p).sPort o = .ok (addInt (bytes "port") z o) := by
    intro o
    rw [addIntText, show (systemData p).sPort = _ from textOf_value hz, stoi_int, if_pos bounds]
  refine ⟨z, ?_⟩
  unfold createSRSystem
  simp only [id, port]
  show Except.ok (str (addStr _ _ (addStr _ _ (addStr _ _ (addInt _ _ (addStr _ _ (addStr _ _
    (addInt _ _ newBuilder)))))))) = _
  rw [builder_nil, addInt_builder, addStr_builder, addStr_builder, addInt_builder, addStr_builder, addStr_builder,
    addStr_builder]
  exact congrArg Except.ok str_builder

lemma of_addIntText_nat {key : String} {n : Nat} {o o' : Out} (h : addIntText key (to_string n) o = .ok o') :
    n < 2 ^ 31 := by
  by_contra hn
  rw [addIntText_nat, if_neg hn] at h
  cases h

lemma createSRSystem_needs {p : Row} (number : ∀ s, p.get "port" ≠ .text s) {text : List UInt8}
    (h : createSRSystem (systemData p) = .ok text) : SystemFits p := by
  obtain ⟨o1, h1, h⟩ := bind_ok h
  obtain ⟨o2, h2, -⟩ := bind_ok h
  refine ⟨of_addIntText_nat h1, ?_⟩
  have h2 : addIntText "port" (textOf p "port") _ = .ok o2 := h2
  cases e : p.get "port" with
  | null =>
    rw [textOf_null e] at h2
    cases h2
  | text s => exact absurd e (number s)
  | int z =>
    refine ⟨z, rfl, ?_⟩
    by_contra bounds
    rw [textOf_value e, addIntText, stoi_int, if_neg bounds] at h2
    cases h2

lemma Quotable.system (h : Quotable db) {p : Row} (hp : p ∈ (db "system_").rows) (port : Int) :
    ∀ t ∈ systemMembers p port, ShownMember t := by
  have member : ∀ {key c : String}, Clean (bytes key) → ("system_", c) ∈ quotedColumns →
      ShownMember (textMember key (textOf p c)) := fun hk hc => shownMember_text hk (h.texts _ hc p hp)
  simp only [systemMembers, List.forall_mem_cons]
  exact ⟨member (by decide) (by decide), member (by decide) (by decide), shownMember_int (by decide) port,
    member (by decide) (by decide), member (by decide) (by decide), member (by decide) (by decide), by simp⟩

/-! ### Entries -/

lemma denotes_general (z : Int) : ∃ v, Denotes (general z) v := by
  by_cases small : z.natAbs < 10 ^ 6
  · rw [general, if_pos small]
    exact ⟨_, .number z⟩
  rw [general, if_neg small]
  have digits : ∀ n, IsDigits (decimal n) := fun n => ⟨decimal_ne_nil n, fun d hd => decimal_digits n d hd⟩
  obtain ⟨m, exponent⟩ := significand z.natAbs
  obtain ⟨d, ds, e⟩ := List.exists_cons_of_ne_nil (decimal_ne_nil m)
  have int : IsInt ((if z < 0 then bytes "-" else []) ++ (decimal m).take 1) := by
    refine ⟨_, (decimal m).take 1, rfl, ?_, ⟨by simp [e], fun c hc => (digits m).2 c (List.mem_of_mem_take hc)⟩, ?_⟩
    · split_ifs
      · exact .inr (by decide)
      · exact .inl rfl
    · simp [e]
  have frac : IsFrac (if fraction m = [] then [] else bytes "." ++ fraction m) := by
    split_ifs with h
    · exact .inl rfl
    · refine .inr ⟨fraction m, rfl, h, fun c hc => (digits m).2 c ?_⟩
      exact List.mem_of_mem_drop ((List.rdropWhile_prefix _ _).subset hc)
  have exp : IsExp (bytes "e+" ++ ((if exponent < 10 then bytes "0" else []) ++ decimal exponent)) := by
    refine .inr ⟨'e'.toUInt8, ['+'.toUInt8], (if exponent < 10 then bytes "0" else []) ++ decimal exponent, rfl,
      .inl rfl, .inr (.inl rfl), by simp [decimal_ne_nil], fun c hc => ?_⟩
    obtain hc | hc := List.mem_append.1 hc
    · split_ifs at hc
      · obtain rfl := List.mem_singleton.1 (show c ∈ ['0'.toUInt8] from hc)
        decide
      · cases hc
    · exact (digits exponent).2 c hc
  have number := IsNumber.double int frac exp fun _ h => by simp [bytes] at h
  rw [List.append_assoc] at number
  exact ⟨_, 1, fun rest => .number rest number⟩

/-- What an `int` column can hold. -/
def IntColumn (r : Row) (c : String) : Prop := r.get c = .null ∨ ∃ z, r.get c = .int z ∧ -2 ^ 31 ≤ z ∧ z < 2 ^ 31

/-- The metadata that are made an object. -/
def shownMetadata (r : Row) : List UInt8 :=
  if (textOf r "metadata").length < 2 then bytes "\x7b\x7d" else textOf r "metadata"

def entryMembers (r : Row) (definition provider : List UInt8) (version : Int) (items : List (List UInt8)) :
    List (List UInt8 × List UInt8) :=
  [(bytes "serviceDefinition", definition), (bytes "provider", provider),
    textMember "serviceUri" (textOf r "service_uri"), textMember "endOfValidity" (textOf r "end_of_validity"),
    textMember "secure" (textOf r "secure"), (bytes "metadata", dbMetadataToJsonMetadata (shownMetadata r)),
    (bytes "version", general version), (bytes "interfaces", arrayText items),
    textMember "createdAt" (textOf r "created_at"), textMember "updatedAt" (textOf r "updated_at")]

/-- A text of an entry, of the texts of its parts. -/
lemma createRegistryEntry_eq {r d p : Row} {intfs : List Interface} {definition provider : List UInt8} {version : Int}
    {items : List (List UInt8)} (key : r.id < 2 ^ 31)
    (hd : createServiceDefinition (entryData r d p intfs) = .ok definition)
    (hp : createSRSystem (systemData p) = .ok provider) (hv : stod (textOf r "version") = some version)
    (hi : intfs.mapM createInterface = .ok items) :
    createRegistryEntry (entryData r d p intfs) =
      .ok (keyedText r.id (entryMembers r definition provider version items)) := by
  have id : ∀ o, addIntText "id" (entryData r d p intfs).sId o = .ok (addInt (bytes "id") r.id o) :=
    fun o => (addIntText_nat _ _ _).trans (if_pos key)
  have provider_ : createProvider (entryData r d p intfs) = .ok provider := hp
  have version_ : ∀ o, addDbl "version" (entryData r d p intfs).sVersion o =
      .ok (addObj (bytes "version") (general version) o) := by
    intro o
    rw [addDbl, show stod (entryData r d p intfs).sVersion = _ from hv]
  have items_ : (entryData r d p intfs).vInterfaces.mapM createInterface = .ok items := hi
  unfold createRegistryEntry
  simp only [id, hd, provider_, version_, items_]
  show Except.ok (str (addStr _ _ (addStr _ _ (to_arrayObj _ _ (addObj _ _ (addObj _ _ (addStr _ _ (addStr _ _
    (addStr _ _ (addObj _ _ (addObj _ _ (addInt _ _ newBuilder)))))))))))) = _
  rw [builder_nil, addInt_builder, addObj_builder, addObj_builder, addStr_builder, addStr_builder, addStr_builder,
    addObj_builder, addObj_builder, to_arrayObj_builder, addStr_builder, addStr_builder]
  exact congrArg Except.ok str_builder

lemma stod_version {r : Row} (int : IntColumn r "version") (h : r.get "version" ≠ .null) :
    ∃ z, stod (textOf r "version") = some z := by
  obtain ⟨z, hz, bounds⟩ := int.resolve_left h
  exact ⟨z, by rw [textOf_value hz, stod_int bounds]⟩

/-- The interfaces are written if their keys are of the type `int`. -/
lemma createInterfaces_ok {ids : List Nat} {intfs : List Interface} (data : List.Forall₂ (InterfaceData db) ids intfs)
    (h : ∀ i ∈ ids, i < 2 ^ 31) : ∃ items, intfs.mapM createInterface = .ok items ∧
      (Quotable db → ∃ vs, List.Forall₂ Denotes items vs) := by
  have each : ∀ intf ∈ intfs, ∃ s, createInterface intf = .ok s ∧ (Quotable db → ∃ v, Denotes s v) := by
    intro intf hintf
    obtain ⟨i, hi, x, hx, rfl, rfl⟩ := forall₂_exists_left data hintf
    refine ⟨_, (createInterface_eq _ _ _ _).trans (if_pos (h _ hi)), fun quotable => ?_⟩
    have texts := fun c hc => quotable.texts ("service_interface", c) hc x hx
    obtain ⟨ms, denotes⟩ := showsKey_keyedText (r := x) (shownMember_named "interfaceName" (by decide)
      (texts "interface_name" (by decide)) (texts "created_at" (by decide)) (texts "updated_at" (by decide)))
    exact ⟨_, denotes⟩
  obtain ⟨items, hitems⟩ := mapM_ok_of_forall fun intf hintf => (each intf hintf).imp fun _ h => h.1
  refine ⟨items, hitems, fun quotable => forall₂_of_forall_exists fun s hs => ?_⟩
  obtain ⟨intf, hintf, e⟩ := forall₂_exists_left (mapM_ok_mem hitems) hs
  obtain ⟨s', e', denotes⟩ := each intf hintf
  rw [e] at e'
  cases e'
  exact denotes quotable

lemma createInterfaces_needs {ids : List Nat} {intfs : List Interface} {items : List (List UInt8)}
    (data : List.Forall₂ (InterfaceData db) ids intfs) (h : intfs.mapM createInterface = .ok items) :
    ∀ i ∈ ids, i < 2 ^ 31 := by
  intro i hi
  obtain ⟨intf, hintf, x, -, -, rfl⟩ := forall₂_exists_left data.flip hi
  obtain ⟨s, -, e⟩ := forall₂_exists_left (mapM_ok_mem h).flip hintf
  by_contra hno
  rw [createInterface_eq, if_neg hno] at e
  cases e

/-- What the entry refers to can be shown. -/
structure PartsFit (db : Database) (r : Row) : Prop where
  definition : ∀ d ∈ (db "service_definition").rows, r.get "service_id" = .int d.id → d.id < 2 ^ 31
  provider : ∀ p ∈ (db "system_").rows, r.get "system_id" = .int p.id → SystemFits p

lemma createRegistryEntry_ok {r d p : Row} {intfs : List Interface} (parts : EntryParts db r d p intfs)
    (version : IntColumn r "version") (fits : EntryFits db r) (partsFit : PartsFit db r) :
    ∃ text, createRegistryEntry (entryData r d p intfs) = .ok text ∧
      (Quotable db → r ∈ (db "service_registry").rows → ShowsKey text r) := by
  obtain ⟨hd, refersD⟩ := parts.definition
  obtain ⟨hp, refersP⟩ := parts.provider
  obtain ⟨ids, hids, data⟩ := parts.interfaces
  have keys : ∀ i ∈ ids, i < 2 ^ 31 := by
    intro i hi
    obtain ⟨c, hc, hown, hi⟩ := (hids i).1 hi
    exact fits.interfaces c hc hown i hi
  obtain ⟨z, hz⟩ := stod_version version fits.version
  obtain ⟨port, provider⟩ := createSRSystem_ok (partsFit.provider p hp refersP)
  obtain ⟨items, hitems, shown⟩ := createInterfaces_ok data keys
  have definition := (createServiceDefinition_eq r d p intfs).trans (if_pos (partsFit.definition d hd refersD))
  refine ⟨_, createRegistryEntry_eq fits.key definition provider hz hitems, fun quotable hr => ?_⟩
  have text : ∀ {key c : String}, Clean (bytes key) → ("service_registry", c) ∈ quotedColumns →
      ShownMember (textMember key (textOf r c)) := fun hk hc => shownMember_text hk (quotable.texts _ hc r hr)
  have texts := fun c hc => quotable.texts ("service_definition", c) hc d hd
  obtain ⟨ms, dDenotes⟩ := showsKey_keyedText (r := d) (shownMember_named "serviceDefinition" (by decide +kernel)
    (texts "service_definition" (by decide)) (texts "created_at" (by decide)) (texts "updated_at" (by decide)))
  obtain ⟨ms', pDenotes⟩ := showsKey_keyedText (quotable.system hp port)
  obtain ⟨meta_, mDenotes⟩ : ∃ v, Denotes (dbMetadataToJsonMetadata (shownMetadata r)) v := by
    apply denotes_shown
    unfold shownMetadata
    split_ifs
    · intro kv hkv
      have none_ : storedPairs (bytes "\x7b\x7d") = [] := by decide +kernel
      rw [none_] at hkv
      cases hkv
    · exact quotable.metadata r hr
  obtain ⟨vs, iDenotes⟩ := shown quotable
  obtain ⟨v, vDenotes⟩ := denotes_general z
  apply showsKey_keyedText
  simp only [entryMembers, List.forall_mem_cons]
  exact ⟨shownMember_of (by decide) dDenotes, shownMember_of (by decide) pDenotes, text (by decide) (by decide),
    text (by decide) (by decide), text (by decide) (by decide), shownMember_of (by decide) mDenotes,
    shownMember_of (by decide) vDenotes, shownMember_of (by decide) (.array iDenotes), text (by decide) (by decide),
    text (by decide +kernel) (by decide +kernel), by simp⟩

lemma createRegistryEntry_needs (typed : Typed db) {r d p : Row} {intfs : List Interface} {text : List UInt8}
    (parts : EntryParts db r d p intfs) (h : createRegistryEntry (entryData r d p intfs) = .ok text) :
    r.get "version" ≠ .null ∧ (∀ c ∈ (db "service_registry_interface_connection").rows,
      c.get "service_registry_id" = .int r.id → ∀ i : Nat, c.get "interface_id" = .int i → i < 2 ^ 31) ∧
      PartsFit db r := by
  obtain ⟨hd, refersD⟩ := parts.definition
  obtain ⟨hp, refersP⟩ := parts.provider
  obtain ⟨ids, hids, data⟩ := parts.interfaces
  obtain ⟨o1, h1, h⟩ := bind_ok h
  obtain ⟨definition, h2, h⟩ := bind_ok h
  obtain ⟨provider, h3, h⟩ := bind_ok h
  obtain ⟨o4, h4, h⟩ := bind_ok h
  obtain ⟨items, h5, -⟩ := bind_ok h
  refine ⟨fun null => ?_, fun c hc hown i hi => ?_, ⟨fun d' hd' refers => ?_, fun p' hp' refers => ?_⟩⟩
  · have h4 : addDbl "version" (textOf r "version") _ = .ok o4 := h4
    rw [textOf_null null] at h4
    cases h4
  · exact createInterfaces_needs data h5 i ((hids i).2 ⟨c, hc, hown, hi⟩)
  · have same : d' = d := (db "service_definition").row_unique hd' hd (by simpa using refers.symm.trans refersD)
    subst same
    by_contra hno
    rw [createServiceDefinition_eq, if_neg hno] at h2
    cases h2
  · have same : p' = p := (db "system_").row_unique hp' hp (by simpa using refers.symm.trans refersP)
    subst same
    exact createSRSystem_needs (typed.ports p' hp') h3

end

end ArrowheadCore.ServiceRegistry
