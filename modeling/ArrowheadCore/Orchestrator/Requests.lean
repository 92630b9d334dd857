import ArrowheadCore.Json.Cursor
import ArrowheadCore.Json.Converted
import ArrowheadCore.Authorization.Parsers
import ArrowheadCore.Orchestrator.Orchestration

/-!
# Requests to the authorization system

What the parsers of the authorization system read of the texts that the orchestrator sends to it:
`Parsers::IntraCloudCheck::parse` of `createIntraCloudRule`, and `Parsers::TokenRule::parse` of
`createTokenRule`. The two sides use different JSON libraries.
-/

namespace ArrowheadCore.Orchestrator
open Lib Json JsonView Authorization

/-! ## Scalars -/

/-- A string that needs no escape, or a number. -/
def Scalar : JsonValue → Prop
  | .string s => Clean s
  | .number _ => True
  | _ => False

/-- The text that `convertGasonToCJB` writes for a scalar. -/
def scalarText : JsonValue → List UInt8
  | .string s => bytes "\"" ++ (s ++ bytes "\"")
  | .number z => to_string z
  | _ => []

/-- What `JsonView` reads of it. -/
def scalarNode : JsonValue → JsonNode
  | .string s => .string s
  | .number z => numberNode z
  | _ => .null

lemma Scalar.reads {v : JsonValue} (h : Scalar v) (levels : Nat) : Reads (levels + 1) (scalarText v) (scalarNode v) := by
  cases v with
  | string s => exact Reads.string h levels
  | number z => exact Reads.number z levels
  | _ => cases h

lemma Scalar.zero {v : JsonValue} (h : Scalar v) : 0 ∉ scalarText v := by
  cases v with
  | string s => exact zero_quoted (zero_of_clean h)
  | number z => exact zero_to_string z
  | _ => cases h

lemma convertValue_scalar {v : JsonValue} (h : Scalar v) (root : List (List UInt8 × JsonValue)) (key t : List UInt8) :
    convertValue root key (Out.ofText t) v = some (Out.ofText (t ++ membersText [(key, scalarText v)])) := by
  cases v with
  | string s =>
    have hs : Clean s := h
    rw [convertValue, cStr_of_clean hs, addStr_eq]
    rfl
  | number z =>
    rw [convertValue, addInt_eq]
    rfl
  | _ => cases h

lemma convertMembers_scalars {members : List (List UInt8 × JsonValue)}
    (h : ∀ m ∈ members, Clean m.1 ∧ Scalar m.2) (root : List (List UInt8 × JsonValue)) (t : List UInt8) :
    convertMembers root (Out.ofText t) members =
      some (Out.ofText (t ++ membersText (members.map fun m => (m.1, scalarText m.2)))) := by
  induction members generalizing t with
  | nil => simp [convertMembers, membersText]
  | cons m ms ih =>
    obtain ⟨hk, hv⟩ := h m (by simp)
    have one : convertMember root (Out.ofText t) m = some (Out.ofText (t ++ membersText [(m.1, scalarText m.2)])) := by
      obtain ⟨key, v⟩ := m
      rw [convertMember, cStr_of_clean hk, convertValue_scalar hv]
    rw [convertMembers, one]
    simp only [Option.bind_eq_bind, Option.bind_some]
    rw [ih fun n hn => h n (by simp [hn]), List.append_assoc, ← membersText_append]
    rfl

/-- An object of scalars is converted to its text. -/
lemma convertText_scalars {members : List (List UInt8 × JsonValue)} (h : ∀ m ∈ members, Clean m.1 ∧ Scalar m.2)
    (hne : members ≠ []) :
    convertText (.object members) = some (objectText (members.map fun m => (m.1, scalarText m.2))) := by
  rw [convertText, convertGasonToCJB, newBuilder_eq, convertMembers_scalars h, Option.map_some, List.append_assoc,
    ← membersText_append, List.nil_append, str_membersText (by simpa using hne)]

/-! ## The check request -/

/-- An entry of the registry with its provider id and the ids of its interfaces. -/
def EntryIds (entry : JsonValue) (ids : Int × List Int) : Prop :=
  providerId entry = some ids.1 ∧ (get entry "interfaces" >>= fun v => v.items.mapM idOf) = some ids.2

/-- The members of an element of `providerIdsWithInterfaceIds`. -/
def elementMembers (ids : Int × List Int) : List (List UInt8 × List UInt8) :=
  [(bytes "id", to_string ids.1), (bytes "idList", arrayText (ids.2.map to_string))]

lemma createProviderElement_eq {entry : JsonValue} {ids : Int × List Int} (h : EntryIds entry ids) :
    createProviderElement entry = some (objectText (elementMembers ids)) := by
  obtain ⟨hp, hi⟩ := h
  rw [Option.bind_eq_bind, Option.bind_eq_some_iff] at hi
  obtain ⟨v, hv, hi⟩ := hi
  rw [createProviderElement, hp, hv]
  simp only [Option.bind_eq_bind, Option.bind_some, hi]
  rw [newBuilder_eq, addInt_eq, to_arrayObj_eq, List.append_assoc, List.append_assoc, ← membersText_append,
    ← membersText_append, str_membersText (by simp)]
  rfl

/-- The text of the check request. -/
def checkMembers (consumer : List UInt8) (serviceDefinitionId : Int) (ids : List (Int × List Int)) :
    List (List UInt8 × List UInt8) :=
  [(bytes "consumer", consumer), (bytes "serviceDefinitionId", to_string serviceDefinitionId),
    (bytes "providerIdsWithInterfaceIds", arrayText (ids.map fun x => objectText (elementMembers x)))]

lemma createIntraCloudRule_eq {requester first : JsonValue} {entries : List JsonValue} {ids : List (Int × List Int)}
    {consumer : List UInt8} {d : Int} (hc : convertText requester = some consumer)
    (hd : (get first "serviceDefinition" >>= idOf) = some d) (he : List.Forall₂ EntryIds (first :: entries) ids) :
    createIntraCloudRule requester (first :: entries) = some (objectText (checkMembers consumer d ids)) := by
  have elements : (first :: entries).mapM createProviderElement = some (ids.map fun x => objectText (elementMembers x)) := by
    generalize first :: entries = entries at he
    induction he with
    | nil => rfl
    | cons h _ ih => simp [List.mapM_cons, createProviderElement_eq h, ih]
  rw [createIntraCloudRule, hc, List.head?_cons, elements]
  simp only [Option.bind_eq_bind, Option.bind_some] at hd ⊢
  rw [hd]
  simp only [Option.bind_some]
  rw [newBuilder_eq, addObj_eq, addInt_eq, to_arrayObj_eq, List.append_assoc, List.append_assoc, List.append_assoc,
    ← membersText_append, ← membersText_append, ← membersText_append, str_membersText (by simp)]
  rfl

/-- A number that `JsonView` reads as an integer. -/
def Short (z : Int) : Prop := (to_string z).length ≤ 9

instance (z : Int) : Decidable (Short z) := inferInstanceAs (Decidable (_ ≤ _))

lemma Short.reads {z : Int} (h : Short z) (levels : Nat) : Reads (levels + 1) (to_string z) (.int z) := by
  have h : (to_string z).length ≤ digits10 := h
  have number := Reads.number z levels
  rwa [numberNode, if_pos h] at number

/-- What is read of an element. -/
def elementNode (ids : Int × List Int) : JsonNode :=
  .object [(bytes "id", .int ids.1), (bytes "idList", .array (ids.2.map .int))]

lemma elementText_reads {ids : Int × List Int} (h1 : Short ids.1) (h2 : ∀ z ∈ ids.2, Short z) (levels : Nat) :
    Reads (levels + 3) (objectText (elementMembers ids)) (elementNode ids) := by
  have id : Clean (bytes "id") := by decide
  have idList : Clean (bytes "idList") := by decide
  have list : Reads (levels + 2) (arrayText (ids.2.map to_string)) (.array (ids.2.map .int)) :=
    Reads.array_map fun z hz => (h2 z hz).reads levels
  refine Reads.object [((bytes "id", to_string ids.1), .int ids.1),
    ((bytes "idList", arrayText (ids.2.map to_string)), .array (ids.2.map .int))] ?_ (by simp)
  simp only [List.forall_mem_cons]
  exact ⟨⟨id, h1.reads (levels + 1)⟩, ⟨idList, list⟩, by simp⟩

/-- What is read of the check request. -/
def checkNode (consumer : JsonNode) (d : Int) (ids : List (Int × List Int)) : JsonNode :=
  .object [(bytes "consumer", consumer), (bytes "serviceDefinitionId", .int d),
    (bytes "providerIdsWithInterfaceIds", .array (ids.map elementNode))]

lemma checkText_reads {consumer : List UInt8} {node : JsonNode} {d : Int} {ids : List (Int × List Int)} {levels : Nat}
    (hc : Reads (levels + 4) consumer node) (hd : Short d) (hi : ∀ x ∈ ids, Short x.1 ∧ ∀ z ∈ x.2, Short z) :
    Reads (levels + 5) (objectText (checkMembers consumer d ids)) (checkNode node d ids) := by
  have k1 : Clean (bytes "consumer") := by decide
  have k2 : Clean (bytes "serviceDefinitionId") := by decide
  have k3 : Clean (bytes "providerIdsWithInterfaceIds") := by decide
  have list : Reads (levels + 4) (arrayText (ids.map fun x => objectText (elementMembers x)))
      (.array (ids.map elementNode)) :=
    Reads.array_map fun x hx => elementText_reads (hi x hx).1 (hi x hx).2 levels
  refine Reads.object [((bytes "consumer", consumer), node),
    ((bytes "serviceDefinitionId", to_string d), .int d), ((bytes "providerIdsWithInterfaceIds",
      arrayText (ids.map fun x => objectText (elementMembers x))), .array (ids.map elementNode))] ?_ (by simp)
  simp only [List.forall_mem_cons]
  exact ⟨⟨k1, hc⟩, ⟨k2, hd.reads (levels + 3)⟩, ⟨k3, list⟩, by simp⟩

lemma elementText_zero (ids : Int × List Int) : 0 ∉ objectText (elementMembers ids) := by
  have k1 : 0 ∉ bytes "id" := by decide
  have k2 : 0 ∉ bytes "idList" := by decide
  have list : 0 ∉ arrayText (ids.2.map to_string) := by
    apply zero_arrayText
    intro x hx
    obtain ⟨z, -, rfl⟩ := List.mem_map.1 hx
    exact zero_to_string z
  apply zero_objectText
  simp only [elementMembers, List.forall_mem_cons]
  exact ⟨⟨k1, zero_to_string _⟩, ⟨k2, list⟩, by simp⟩

lemma checkText_zero {consumer : List UInt8} (hc : 0 ∉ consumer) (d : Int) (ids : List (Int × List Int)) :
    0 ∉ objectText (checkMembers consumer d ids) := by
  have k1 : 0 ∉ bytes "consumer" := by decide
  have k2 : 0 ∉ bytes "serviceDefinitionId" := by decide
  have k3 : 0 ∉ bytes "providerIdsWithInterfaceIds" := by decide
  have list : 0 ∉ arrayText (ids.map fun x => objectText (elementMembers x)) := by
    apply zero_arrayText
    intro x hx
    obtain ⟨y, -, rfl⟩ := List.mem_map.1 hx
    exact elementText_zero y
  apply zero_objectText
  simp only [checkMembers, List.forall_mem_cons]
  exact ⟨⟨k1, hc⟩, ⟨k2, zero_to_string _⟩, ⟨k3, list⟩, by simp⟩

/-! ## Parsing the check request -/

lemma root_of_reads {text : List UInt8} {node : JsonNode} (h0 : 0 ∉ text) (h : Reads (max_depth + 1) text node) :
    Parsers.root text = .ok node := by
  rw [Parsers.root, cStr_eq h0, h.parse_throw_on_error]

lemma find_cons_self (key : String) (v : JsonNode) (members : List (List UInt8 × JsonNode)) :
    find ((bytes key, v) :: members) key = some v := by
  simp [find]

lemma find_cons_other {key : String} {k : List UInt8} (h : k ≠ bytes key) (v : JsonNode)
    (members : List (List UInt8 × JsonNode)) : find ((k, v) :: members) key = find members key := by
  simp [find, h]

lemma mapM_asInt (wrongType : String) (zs : List Int) :
    (zs.map JsonNode.int).mapM (Parsers.asInt wrongType) = .ok zs := by
  induction zs with
  | nil => rfl
  | cons z zs ih =>
    rw [List.map_cons, List.mapM_cons, ih]
    rfl

lemma parseProvider_elementNode (ids : Int × List Int) :
    Parsers.IntraCloudCheck.parseProvider (elementNode ids) = .ok (Parsers.IntraCloudCheck.toUnsignedLong ids.1, ids.2) := by
  have id : find [(bytes "id", .int ids.1), (bytes "idList", .array (ids.2.map .int))] "id" = some (.int ids.1) :=
    find_cons_self _ _ _
  have idList : find [(bytes "id", .int ids.1), (bytes "idList", .array (ids.2.map .int))] "idList" =
      some (.array (ids.2.map .int)) := by
    rw [find_cons_other (by decide), find_cons_self]
  simp only [elementNode, Parsers.IntraCloudCheck.parseProvider, Parsers.asObject, Parsers.member, Parsers.innerMember,
    id, idList, bind, Except.bind, Parsers.asInt, Parsers.asArray, mapM_asInt]

/-- The members of a requester system, in some order. -/
def requesterMembers (systemName address authenticationInfo : List UInt8) (port : Int) :
    List (List UInt8 × JsonValue) :=
  [(bytes "systemName", .string systemName), (bytes "address", .string address),
    (bytes "authenticationInfo", .string authenticationInfo), (bytes "port", .number port)]

lemma find_of_mem {members : List (List UInt8 × JsonNode)} (hn : (members.map Prod.fst).Nodup) {key : String} {v : JsonNode}
    (h : (bytes key, v) ∈ members) : find members key = some v := by
  induction members with
  | nil => cases h
  | cons m ms ih =>
    rw [List.map_cons, List.nodup_cons] at hn
    obtain rfl | h := List.mem_cons.1 h
    · exact find_cons_self _ _ _
    · have other : m.1 ≠ bytes key := by
        intro e
        exact hn.1 (List.mem_map.2 ⟨_, h, e.symm⟩)
      rw [find_cons_other other, ih hn.2 h]

section
variable {systemName address authenticationInfo : List UInt8} {port d : Int} {ids : List (Int × List Int)}

/-- What is read of the requester system. -/
def requesterNode (members : List (List UInt8 × JsonValue)) : List (List UInt8 × JsonNode) :=
  members.map fun m => (m.1, scalarNode m.2)

lemma requester_scalars {members : List (List UInt8 × JsonValue)}
    (hm : members.Perm (requesterMembers systemName address authenticationInfo port)) (h1 : Clean systemName)
    (h2 : Clean address) (h3 : Clean authenticationInfo) : ∀ m ∈ members, Clean m.1 ∧ Scalar m.2 := by
  have k1 : Clean (bytes "systemName") := by decide
  have k2 : Clean (bytes "address") := by decide
  have k3 : Clean (bytes "authenticationInfo") := by decide
  have k4 : Clean (bytes "port") := by decide
  intro m mem
  have mem := hm.mem_iff.1 mem
  simp only [requesterMembers, List.mem_cons, List.not_mem_nil, or_false] at mem
  obtain rfl | rfl | rfl | rfl := mem
  · exact ⟨k1, h1⟩
  · exact ⟨k2, h2⟩
  · exact ⟨k3, h3⟩
  · exact ⟨k4, trivial⟩

lemma find_requester {members : List (List UInt8 × JsonValue)}
    (hm : members.Perm (requesterMembers systemName address authenticationInfo port)) (key : String) (v : JsonValue)
    (hv : (bytes key, v) ∈ requesterMembers systemName address authenticationInfo port) :
    find (requesterNode members) key = some (scalarNode v) := by
  have keys : (members.map Prod.fst).Perm [bytes "systemName", bytes "address", bytes "authenticationInfo", bytes "port"] :=
    hm.map Prod.fst
  have nodup : ((requesterNode members).map Prod.fst).Nodup := by
    rw [requesterNode, List.map_map]
    exact keys.nodup_iff.2 (by decide)
  exact find_of_mem nodup (List.mem_map.2 ⟨_, hm.mem_iff.2 hv, rfl⟩)

/-- What is parsed of a check request. -/
def checkResult (systemName address authenticationInfo : List UInt8) (port d : Int) (ids : List (Int × List Int)) :
    IntraCloudCheck where
  address := address
  authenticationInfo := authenticationInfo
  port := port
  systemName := systemName
  providerIdsWithInterfaceIds := ids.map fun x => (Parsers.IntraCloudCheck.toUnsignedLong x.1, x.2)
  serviceDefinitionId := d

lemma parseRoot_checkNode {members : List (List UInt8 × JsonValue)}
    (hm : members.Perm (requesterMembers systemName address authenticationInfo port)) (hp : Short port) :
    Parsers.IntraCloudCheck.parseRoot (checkNode (.object (requesterNode members)) d ids) =
      .ok (checkResult systemName address authenticationInfo port d ids) := by
  have f1 := find_requester hm "systemName" (.string systemName) (by simp [requesterMembers])
  have f2 := find_requester hm "address" (.string address) (by simp [requesterMembers])
  have f3 := find_requester hm "authenticationInfo" (.string authenticationInfo) (by simp [requesterMembers])
  have f4 := find_requester hm "port" (.number port) (by simp [requesterMembers])
  have number : numberNode port = .int port := if_pos hp
  have providers : (ids.map elementNode).mapM Parsers.IntraCloudCheck.parseProvider =
      .ok (ids.map fun x => (Parsers.IntraCloudCheck.toUnsignedLong x.1, x.2)) := by
    induction ids with
    | nil => rfl
    | cons x xs ih =>
      rw [List.map_cons, List.mapM_cons, parseProvider_elementNode, ih]
      rfl
  have m1 : ∀ c a, find [(bytes "consumer", c), (bytes "serviceDefinitionId", .int d),
      (bytes "providerIdsWithInterfaceIds", a)] "serviceDefinitionId" = some (.int d) := by
    intro c a
    rw [find_cons_other (by decide), find_cons_self]
  have m2 : ∀ c a, find [(bytes "consumer", c), (bytes "serviceDefinitionId", .int d),
      (bytes "providerIdsWithInterfaceIds", a)] "providerIdsWithInterfaceIds" = some a := by
    intro c a
    rw [find_cons_other (by decide), find_cons_other (by decide), find_cons_self]
  simp only [checkNode, Parsers.IntraCloudCheck.parseRoot, Parsers.asObject, Parsers.member, Parsers.innerMember, m1, m2,
    find_cons_self, f1, f2, f3, f4, scalarNode, number, bind, Except.bind, Parsers.asInt, Parsers.asArray, Parsers.asString,
    providers]
  rfl

lemma parse_createIntraCloudRule {members : List (List UInt8 × JsonValue)}
    (hm : members.Perm (requesterMembers systemName address authenticationInfo port)) (h1 : Clean systemName)
    (h2 : Clean address) (h3 : Clean authenticationInfo) (hp : Short port) {first : JsonValue} {entries : List JsonValue}
    (hd : (get first "serviceDefinition" >>= idOf) = some d) (hs : Short d)
    (he : List.Forall₂ EntryIds (first :: entries) ids) (hi : ∀ x ∈ ids, Short x.1 ∧ ∀ z ∈ x.2, Short z) :
    (createIntraCloudRule (.object members) (first :: entries)).map Parsers.IntraCloudCheck.parse =
      some (.ok (checkResult systemName address authenticationInfo port d ids)) := by
  have scalars := requester_scalars hm h1 h2 h3
  have hne : members ≠ [] := by
    rintro rfl
    have := hm.length_eq
    cases this
  have consumer := convertText_scalars scalars hne
  have zero : 0 ∉ objectText (members.map fun m => (m.1, scalarText m.2)) := by
    apply zero_objectText
    intro n hn
    obtain ⟨m, mem, rfl⟩ := List.mem_map.1 hn
    exact ⟨zero_of_clean (scalars m mem).1, (scalars m mem).2.zero⟩
  have reads : Reads 200 (objectText (members.map fun m => (m.1, scalarText m.2))) (.object (requesterNode members)) := by
    have pairs : ∀ n ∈ members.map fun m => ((m.1, scalarText m.2), scalarNode m.2), Clean n.1.1 ∧ Reads 199 n.1.2 n.2 := by
      intro n hn
      obtain ⟨m, mem, rfl⟩ := List.mem_map.1 hn
      exact ⟨(scalars m mem).1, (scalars m mem).2.reads 198⟩
    have := Reads.object _ pairs (by simpa using hne)
    rwa [List.map_map, List.map_map] at this
  rw [createIntraCloudRule_eq consumer hd he, Option.map_some, Parsers.IntraCloudCheck.parse,
    root_of_reads (checkText_zero zero d ids) (checkText_reads reads hs hi)]
  exact congrArg some (parseRoot_checkNode hm hp)

/-- The check request of every requester and every list of entries comes back. The id of a provider comes back
    as an `unsigned long`, which is the id itself unless it is negative. -/
theorem intraCloudRule_parse {members : List (List UInt8 × JsonValue)}
    (hm : members.Perm (requesterMembers systemName address authenticationInfo port)) (h1 : Clean systemName)
    (h2 : Clean address) (h3 : Clean authenticationInfo) (hp : Short port) {first : JsonValue} {entries : List JsonValue}
    (hd : (get first "serviceDefinition" >>= idOf) = some d) (hs : Short d)
    (he : List.Forall₂ EntryIds (first :: entries) ids) (hi : ∀ x ∈ ids, Short x.1 ∧ ∀ z ∈ x.2, Short z) :
    (createIntraCloudRule (.object members) (first :: entries)).map Parsers.IntraCloudCheck.parse =
        some (.ok (checkResult systemName address authenticationInfo port d ids)) ∧
      ∀ x ∈ ids, 0 ≤ x.1 → (Parsers.IntraCloudCheck.toUnsignedLong x.1 : Int) = x.1 := by
  refine ⟨parse_createIntraCloudRule hm h1 h2 h3 hp hd hs he hi, ?_⟩
  intro x hx nonneg
  have := natAbs_le_of_length (hi x hx).1
  rw [Parsers.IntraCloudCheck.toUnsignedLong]
  unfold LONG_MAX at this
  omega

/-- A registry entry with this provider id and these ids of interfaces. -/
def sampleEntry (provider : Int) (interfaces : List Int) : JsonValue :=
  .object [(bytes "id", .number 1), (bytes "serviceDefinition", .object [(bytes "id", .number 7)]),
    (bytes "provider", .object [(bytes "id", .number provider)]),
    (bytes "interfaces", .array (interfaces.map fun z => .object [(bytes "id", .number z)]))]

theorem intraCloudRule_parse_two :
    (createIntraCloudRule (.object (requesterMembers (bytes "c") (bytes "localhost") (bytes "key") 8080))
        [sampleEntry 3 [4, 5], sampleEntry 6 []]).map Parsers.IntraCloudCheck.parse =
      some (.ok (checkResult (bytes "c") (bytes "localhost") (bytes "key") 8080 7 [(3, [4, 5]), (6, [])])) := by
  have entries : List.Forall₂ EntryIds [sampleEntry 3 [4, 5], sampleEntry 6 []] [(3, [4, 5]), (6, [])] :=
    .cons ⟨rfl, rfl⟩ (.cons ⟨rfl, rfl⟩ .nil)
  exact (intraCloudRule_parse (.refl _) (by decide) (by decide) (by decide) (by decide) rfl (by decide) entries
    (by decide)).1

/-- A negative id does not come back. -/
theorem intraCloudRule_parse_negative :
    EntryIds (sampleEntry (-1) []) (-1, []) ∧ Short (-1) ∧
      ∀ r, (createIntraCloudRule (.object (requesterMembers (bytes "c") (bytes "localhost") (bytes "key") 8080))
          [sampleEntry (-1) []]).map Parsers.IntraCloudCheck.parse = some (.ok r) →
        r.providerIdsWithInterfaceIds.map (fun x => ((x.1 : Int), x.2)) ≠ [(-1, [])] := by
  refine ⟨⟨rfl, rfl⟩, by decide, ?_⟩
  intro r h
  have entries : List.Forall₂ EntryIds [sampleEntry (-1) []] [(-1, [])] := .cons ⟨rfl, rfl⟩ .nil
  rw [parse_createIntraCloudRule (.refl _) (by decide) (by decide) (by decide) (by decide) rfl (by decide) entries
    (by decide)] at h
  cases h
  decide

end

/-! ## The token rule -/

lemma cleanValue_get {v w : JsonValue} (h : CleanValue v) {key : String} (hw : get v key = some w) : CleanValue w := by
  cases v with
  | object members =>
    rw [CleanValue] at h
    exact cleanValue_child h hw
  | array items =>
    cases items with
    | nil =>
      cases hw
      simp [CleanValue]
    | cons x xs => cases hw
  | _ =>
    cases hw
    simp [CleanValue]

lemma clean_toString {v : JsonValue} (h : CleanValue v) {s : List UInt8} (hs : v.toString = some s) : Clean s := by
  cases v with
  | string s' =>
    rw [CleanValue] at h
    cases hs
    rwa [cStr_of_clean h]
  | _ => cases hs

lemma clean_getString {v : JsonValue} (h : CleanValue v) {key : String} {s : List UInt8} (hs : getString v key = some s) :
    Clean s := by
  rw [getString, Option.bind_eq_bind, Option.bind_eq_some_iff] at hs
  obtain ⟨w, hw, hs⟩ := hs
  exact clean_toString (cleanValue_get h hw) hs

/-- The text of a string. -/
def quoted (s : List UInt8) : List UInt8 := bytes "\"" ++ (s ++ bytes "\"")

/-- The members of the provider in a token rule: the port is a string, too. -/
def providerFields (address systemName : List UInt8) (port : Int) (more : List (List UInt8 × List UInt8)) :
    List (List UInt8 × List UInt8) :=
  (bytes "address", address) :: (bytes "port", to_string port) :: (bytes "systemName", systemName) :: more

/-- An object of strings. -/
def stringMembers (fields : List (List UInt8 × List UInt8)) : List (List UInt8 × List UInt8) :=
  fields.map fun m => (m.1, quoted m.2)

/-- The members of a token rule: the names of the interfaces are not quoted. -/
def tokenMembers (consumer : List UInt8) (provider : List (List UInt8 × List UInt8)) (names : List (List UInt8))
    (service : List UInt8) : List (List UInt8 × List UInt8) :=
  [(bytes "consumer", consumer), (bytes "consumerCloud", bytes "null"), (bytes "duration", to_string (-1)),
    (bytes "providers", arrayText [objectText [(bytes "provider", objectText (stringMembers provider)),
      (bytes "serviceInterfaces", arrayText names)]]), (bytes "service", quoted service)]

lemma clean_to_string (z : Int) : Clean (to_string z) := by
  have digits : ∀ n, Clean (decimal n) := by
    intro n c hc
    have := isDigitOf_ten.1 (decimal_digits n c hc)
    refine ⟨by omega, ?_, ?_⟩
    · rintro rfl
      exact absurd this (by decide)
    · rintro rfl
      exact absurd this (by decide)
  cases z with
  | ofNat n => exact digits n
  | negSucc n =>
    intro c hc
    obtain rfl | hc := List.mem_cons.1 hc
    · decide
    · exact digits _ c hc

lemma providerFields_clean {address systemName : List UInt8} (h1 : Clean address) (h2 : Clean systemName) (port : Int)
    {more : List (List UInt8 × List UInt8)} (hm : ∀ m ∈ more, Clean m.1 ∧ Clean m.2) :
    ∀ m ∈ providerFields address systemName port more, Clean m.1 ∧ Clean m.2 := by
  have k1 : Clean (bytes "address") := by decide
  have k2 : Clean (bytes "port") := by decide
  have k3 : Clean (bytes "systemName") := by decide
  simp only [providerFields, List.forall_mem_cons]
  exact ⟨⟨k1, h1⟩, ⟨k2, clean_to_string port⟩, ⟨k3, h2⟩, hm⟩

lemma createTokenRule_eq {consumer text : List UInt8} {entry : JsonValue} (he : CleanValue entry) {intfs : List JsonValue}
    (h : createTokenRule consumer entry intfs = some text) :
    ∃ address systemName port more names service,
      (∀ m ∈ providerFields address systemName port more, Clean m.1 ∧ Clean m.2) ∧ (∀ s ∈ names, 0 ∉ s) ∧
      Clean service ∧
      text = objectText (tokenMembers consumer (providerFields address systemName port more) names service) := by
  simp only [createTokenRule, Option.bind_eq_bind, Option.bind_eq_some_iff, Option.some.injEq] at h
  obtain ⟨provider, hprov, address, ha, port, hport, systemName, hn, info, hinfo, intfNames, hin, names, hnames, service,
    ⟨definition, hdef, hs⟩, h⟩ := h
  have cleanProvider := cleanValue_get he hprov
  have cleanAddress := clean_getString cleanProvider ha
  have cleanName := clean_getString cleanProvider hn
  have cleanService := clean_getString (cleanValue_get he hdef) hs
  have key : Clean (bytes "authenticationInfo") := by decide
  have noZero : ∀ s ∈ names, 0 ∉ s := by
    intro s hs
    obtain ⟨w, -, e⟩ := forall₂_exists_left (mapM_some_mem hnames) hs
    cases w with
    | string s' =>
      cases e
      exact zero_cStr s'
    | _ => cases e
  refine ⟨address, systemName, port, ?_⟩
  cases hi : info.toString with
  | none =>
    refine ⟨[], names, service, providerFields_clean cleanAddress cleanName port (by simp), noZero, cleanService, ?_⟩
    rw [hi] at h
    simp only [newBuilder_eq, addObj_eq, addNULL_eq, addInt_eq, addStr_eq, to_arrayObj_eq, List.append_assoc,
      ← membersText_append] at h
    rw [str_membersText (by simp), str_membersText (by simp), str_membersText (by simp)] at h
    exact h.symm
  | some i =>
    have cleanInfo := clean_toString (cleanValue_get cleanProvider hinfo) hi
    refine ⟨[(bytes "authenticationInfo", i)], names, service, providerFields_clean cleanAddress cleanName port ?_, noZero,
      cleanService, ?_⟩
    · intro m hm
      obtain rfl := List.mem_singleton.1 hm
      exact ⟨key, cleanInfo⟩
    rw [hi] at h
    simp only [newBuilder_eq, addObj_eq, addNULL_eq, addInt_eq, addStr_eq, to_arrayObj_eq, List.append_assoc,
      ← membersText_append] at h
    rw [str_membersText (by simp), str_membersText (by simp), str_membersText (by simp)] at h
    exact h.symm

/-- What is read of an object of strings. -/
lemma stringMembers_reads {fields : List (List UInt8 × List UInt8)} (h : ∀ m ∈ fields, Clean m.1 ∧ Clean m.2)
    (hne : fields ≠ []) (levels : Nat) :
    Reads (levels + 2) (objectText (stringMembers fields)) (.object (fields.map fun m => (m.1, .string m.2))) := by
  have pairs : ∀ n ∈ fields.map fun m => ((m.1, quoted m.2), JsonNode.string m.2), Clean n.1.1 ∧ Reads (levels + 1) n.1.2 n.2 := by
    intro n hn
    obtain ⟨m, mem, rfl⟩ := List.mem_map.1 hn
    exact ⟨(h m mem).1, Reads.string (h m mem).2 levels⟩
  have := Reads.object _ pairs (by simpa using hne)
  rwa [List.map_map, List.map_map] at this

lemma tokenText_zero {consumer service : List UInt8} (hc : 0 ∉ consumer) {fields : List (List UInt8 × List UInt8)}
    (hf : ∀ m ∈ fields, Clean m.1 ∧ Clean m.2) {names : List (List UInt8)} (hn : ∀ s ∈ names, 0 ∉ s) (hs : Clean service) :
    0 ∉ objectText (tokenMembers consumer fields names service) := by
  have k1 : 0 ∉ bytes "consumer" := by decide
  have k2 : 0 ∉ bytes "consumerCloud" ∧ 0 ∉ bytes "null" := by decide
  have k3 : 0 ∉ bytes "duration" := by decide
  have k4 : 0 ∉ bytes "providers" := by decide
  have k5 : 0 ∉ bytes "service" := by decide
  have k6 : 0 ∉ bytes "provider" := by decide
  have k7 : 0 ∉ bytes "serviceInterfaces" := by decide
  have provider : 0 ∉ objectText (stringMembers fields) := by
    apply zero_objectText
    intro n hn
    obtain ⟨m, mem, rfl⟩ := List.mem_map.1 hn
    exact ⟨zero_of_clean (hf m mem).1, zero_quoted (zero_of_clean (hf m mem).2)⟩
  have element : 0 ∉ objectText [(bytes "provider", objectText (stringMembers fields)),
      (bytes "serviceInterfaces", arrayText names)] := by
    apply zero_objectText
    simp only [List.forall_mem_cons]
    exact ⟨⟨k6, provider⟩, ⟨k7, zero_arrayText hn⟩, by simp⟩
  have providers : 0 ∉ arrayText [objectText [(bytes "provider", objectText (stringMembers fields)),
      (bytes "serviceInterfaces", arrayText names)]] := zero_arrayText (by simpa using element)
  apply zero_objectText
  simp only [tokenMembers, List.forall_mem_cons]
  exact ⟨⟨k1, hc⟩, k2, ⟨k3, zero_to_string _⟩, ⟨k4, providers⟩, ⟨k5, zero_quoted (zero_of_clean hs)⟩, by simp⟩

/-- The element of the providers, if it is read, begins with its provider. -/
lemma tokenElement_value {fields : List (List UInt8 × List UInt8)} (hf : ∀ m ∈ fields, Clean m.1 ∧ Clean m.2)
    (hne : fields ≠ []) (names : List (List UInt8)) {levels : Nat} {pre rest : List UInt8} {v : JsonNode} {p : JsonParser}
    (h : parse_json (pre ++ (objectText [(bytes "provider", objectText (stringMembers fields)),
      (bytes "serviceInterfaces", arrayText names)] ++ rest)) .STANDARD (levels + 3) (pos pre) = some (v, p))
    (hp : p.failed = false) :
    ∃ more, v = .object ((bytes "provider", .object (fields.map fun m => (m.1, .string m.2))) :: more) := by
  have key : Clean (bytes "provider") := by decide
  rw [parse_json_objectText (by simp)] at h
  obtain ⟨tail, whole, -⟩ := memberList_split (bytes "provider", objectText (stringMembers fields))
    (bytes "serviceInterfaces", arrayText names) [] (pre ++ ['{'.toUInt8]) ('}'.toUInt8 :: rest)
  rw [objectText_append, whole] at h
  obtain ⟨val, q, more, e, -, rfl⟩ := objectLoop_value key h hp
  rw [(stringMembers_reads hf hne levels).colon _ _ (ends_comma _)] at e
  cases e
  exact ⟨more, rfl⟩

/-- The element of the providers. -/
def tokenElement (fields : List (List UInt8 × List UInt8)) (names : List (List UInt8)) : List UInt8 :=
  objectText [(bytes "provider", objectText (stringMembers fields)), (bytes "serviceInterfaces", arrayText names)]

lemma tokenProviders_value {fields : List (List UInt8 × List UInt8)} (hf : ∀ m ∈ fields, Clean m.1 ∧ Clean m.2)
    (hne : fields ≠ []) (names : List (List UInt8)) {levels : Nat} {pre rest : List UInt8} {v : JsonNode} {p : JsonParser}
    (h : parse_json (pre ++ (arrayText [tokenElement fields names] ++ rest)) .STANDARD (levels + 4) (pos pre) = some (v, p))
    (hp : p.failed = false) :
    ∃ m1 m2, v = .array (.object ((bytes "provider", .object (fields.map fun m => (m.1, .string m.2))) :: m2) :: m1) := by
  obtain ⟨c0, e⟩ := parse_json_arrayText (objectText_head _) [] (levels + 3) pre rest
  rw [tokenElement, e] at h
  obtain ⟨val, q, m1, parsed, hq, rfl⟩ := arrayLoop_value h hp
  rw [arrayText_append, commaList_singleton] at parsed
  obtain ⟨m2, rfl⟩ := tokenElement_value hf hne names parsed hq
  exact ⟨m1, m2, rfl⟩

/-- A token rule, if it is read, has the consumer and the providers among its first members. -/
lemma tokenText_value {consumer : List UInt8} (hc : ∀ levels, Stops levels consumer)
    {fields : List (List UInt8 × List UInt8)} (hf : ∀ m ∈ fields, Clean m.1 ∧ Clean m.2) (hne : fields ≠ [])
    (names : List (List UInt8)) (service : List UInt8) {levels : Nat} {v : JsonNode} {p : JsonParser}
    (h : parse_json ([] ++ (objectText (tokenMembers consumer fields names service) ++ [])) .STANDARD (levels + 5) (pos []) =
      some (v, p)) (hp : p.failed = false) :
    ∃ c1 c2 c3 m0 m1 m2, v = .object ((bytes "consumer", c1) :: (bytes "consumerCloud", c2) :: (bytes "duration", c3) ::
      (bytes "providers", .array (.object ((bytes "provider", .object (fields.map fun m => (m.1, .string m.2))) :: m2) :: m1)) ::
      m0) := by
  have k1 : Clean (bytes "consumer") := by decide
  have k2 : Clean (bytes "consumerCloud") := by decide
  have k3 : Clean (bytes "duration") := by decide
  have k4 : Clean (bytes "providers") := by decide
  rw [parse_json_objectText (by simp [tokenMembers])] at h
  have e0 := objectText_append (tokenMembers consumer fields names service) [] []
  obtain ⟨t1, e1, s1⟩ := memberList_split (bytes "consumer", consumer) (bytes "consumerCloud", bytes "null") _ _ _
  obtain ⟨c1, n1, h⟩ := objectLoop_step k1 (hc (levels + 4)) (e0.trans e1) h hp
  obtain ⟨t2, e2, s2⟩ := memberList_split (bytes "consumerCloud", bytes "null") (bytes "duration", to_string (-1)) _ _ _
  obtain ⟨c2, n2, h⟩ := objectLoop_step k2 (Reads.null (levels + 3)).stops (e0.trans (s1.trans e2)) h hp
  obtain ⟨t3, e3, s3⟩ := memberList_split (bytes "duration", to_string (-1))
    (bytes "providers", arrayText [tokenElement fields names]) _ _ _
  obtain ⟨c3, n3, h⟩ := objectLoop_step k3 (Reads.number (-1) (levels + 3)).stops (e0.trans (s1.trans (s2.trans e3))) h hp
  obtain ⟨t4, e4, -⟩ := memberList_split (bytes "providers", arrayText [tokenElement fields names])
    (bytes "service", quoted service) _ _ _
  have text := e0.trans (s1.trans (s2.trans (s3.trans e4)))
  cases n3 with
  | zero => cases h
  | succ n =>
    rw [text] at h
    obtain ⟨val, q, m0, parsed, hq, rfl⟩ := objectLoop_value k4 h hp
    rw [parse_json_colon] at parsed
    obtain ⟨m1, m2, rfl⟩ := tokenProviders_value hf hne names parsed hq
    exact ⟨c1, c2, c3, m0, m1, m2, rfl⟩

lemma find_map_string (fields : List (List UInt8 × List UInt8)) (key : String) {s : List UInt8}
    (h : fields.find? (fun m => m.1 == bytes key) = some (bytes key, s)) :
    find (fields.map fun m => (m.1, JsonNode.string m.2)) key = some (.string s) := by
  rw [find, List.find?_map]
  simp only [Function.comp_def, h]
  rfl

/-- The port of the provider is no integer. -/
lemma parseSystem_provider (address systemName : List UInt8) (port : Int) (more : List (List UInt8 × List UInt8)) :
    Parsers.TokenRule.parseSystem (.object ((providerFields address systemName port more).map fun m => (m.1, .string m.2))) =
      Parsers.throw "Wrong json format.4" := by
  have f1 := find_map_string (providerFields address systemName port more) "address" rfl
  have f2 := find_map_string (providerFields address systemName port more) "port" rfl
  have f3 := find_map_string (providerFields address systemName port more) "systemName" rfl
  simp only [Parsers.TokenRule.parseSystem, Parsers.asObject, Parsers.member, f1, f2, f3, bind, Except.bind, Parsers.asString,
    Parsers.asInt, Parsers.throw]

/-- A token rule with such a provider is not accepted. -/
lemma parseRoot_provider {c1 c2 c3 : JsonNode} {address systemName : List UInt8} {port : Int}
    {more : List (List UInt8 × List UInt8)} {m0 m2 : List (List UInt8 × JsonNode)} {m1 : List JsonNode} (r : Parsers.TokenRule) :
    Parsers.TokenRule.parseRoot (.object ((bytes "consumer", c1) :: (bytes "consumerCloud", c2) :: (bytes "duration", c3) ::
      (bytes "providers", .array (.object ((bytes "provider",
        .object ((providerFields address systemName port more).map fun m => (m.1, .string m.2))) :: m2) :: m1)) :: m0)) ≠
      .ok r := by
  intro h
  obtain ⟨dict, hd, h⟩ := bind_ok h
  cases hd
  obtain ⟨consumer, -, h⟩ := bind_ok h
  obtain ⟨service, -, h⟩ := bind_ok h
  obtain ⟨arr, ha, h⟩ := bind_ok h
  have found : ∀ a, find ((bytes "consumer", c1) :: (bytes "consumerCloud", c2) :: (bytes "duration", c3) ::
      (bytes "providers", a) :: m0) "providers" = some a := by
    intro a
    rw [find_cons_other (by decide), find_cons_other (by decide), find_cons_other (by decide), find_cons_self]
  rw [Parsers.member, found] at ha
  cases ha
  obtain ⟨providers, hp, -⟩ := bind_ok h
  rw [List.mapM_cons] at hp
  obtain ⟨first, hf, -⟩ := bind_ok hp
  obtain ⟨y, hy, hf⟩ := bind_ok hf
  cases hy
  rw [Parsers.member, find_cons_self] at hf
  obtain ⟨provider, hprov, -⟩ := bind_ok hf
  obtain ⟨w, hw, hprov⟩ := bind_ok hprov
  cases hw
  rw [parseSystem_provider] at hprov
  cases hprov

lemma parse_createTokenRule {consumer entry : JsonValue} {intfs : List JsonValue} (hc : CleanValue consumer)
    (he : CleanValue entry) {text : List UInt8}
    (h : (convertText consumer >>= fun sConsumer => createTokenRule sConsumer entry intfs) = some text) :
    ∃ message, Parsers.TokenRule.parse text = .error (.what message) := by
  rw [Option.bind_eq_bind, Option.bind_eq_some_iff] at h
  obtain ⟨sConsumer, hs, h⟩ := h
  rw [convertText, Option.map_eq_some_iff] at hs
  obtain ⟨o, ho, rfl⟩ := hs
  obtain ⟨zero, stops⟩ := convertGasonToCJB_stops hc ho
  obtain ⟨address, systemName, port, more, names, service, fields, noZero, clean, rfl⟩ := createTokenRule_eq he h
  cases hp : Parsers.TokenRule.parse _ with
  | error e =>
    obtain ⟨message, rfl⟩ := Parsers.throws_parse _ e hp
    exact ⟨message, rfl⟩
  | ok r =>
    obtain ⟨v, hv, hr⟩ := bind_ok hp
    rw [Parsers.root, cStr_eq (tokenText_zero zero fields noZero clean)] at hv
    split at hv
    · cases hv
    · cases hv
    next w hw =>
      cases hv
      obtain ⟨p, parsed, ok⟩ := parse_json_of_ok hw
      have parsed : parse_json ([] ++ (objectText (tokenMembers (str o) (providerFields address systemName port more) names
          service) ++ [])) .STANDARD (196 + 5) (pos []) = some (v, p) := by
        rw [List.nil_append, List.append_nil]
        exact parsed
      obtain ⟨c1, c2, c3, m0, m1, m2, rfl⟩ := tokenText_value stops fields (by simp [providerFields]) names service parsed ok
      exact absurd hr (parseRoot_provider r)

/-- No token rule of the orchestrator is accepted: the port of the provider is written as a string. -/
theorem tokenRule_rejected {consumer entry : JsonValue} (hc : CleanValue consumer) (he : CleanValue entry)
    (intfs : List JsonValue) :
    (∀ r, (convertText consumer >>= fun sConsumer => createTokenRule sConsumer entry intfs).map Parsers.TokenRule.parse ≠
        some (.ok r)) ∧
      ∀ text, (convertText consumer >>= fun sConsumer => createTokenRule sConsumer entry intfs) = some text →
        ∃ message, Parsers.TokenRule.parse text = .error (.what message) := by
  refine ⟨?_, fun text h => parse_createTokenRule hc he h⟩
  intro r h
  rw [Option.map_eq_some_iff] at h
  obtain ⟨text, h, hr⟩ := h
  obtain ⟨message, e⟩ := parse_createTokenRule hc he h
  rw [e] at hr
  cases hr

/-- An entry with a provider and a definition. -/
def sampleService : JsonValue :=
  .object [(bytes "serviceDefinition", .object [(bytes "serviceDefinition", .string (bytes "temperature"))]),
    (bytes "provider", .object [(bytes "systemName", .string (bytes "sensor")), (bytes "address", .string (bytes "10.0.0.2")),
      (bytes "port", .number 8081)])]

/-- The interface of a sample entry. -/
def sampleInterface : JsonValue := .object [(bytes "interfaceName", .string (bytes "HTTP-SECURE-JSON"))]

lemma sampleService_clean : CleanValue sampleService := by
  simp only [sampleService, CleanValue, CleanMembers, CleanMember]
  decide +kernel

lemma requester_clean : CleanValue (.object (requesterMembers (bytes "c") (bytes "localhost") (bytes "key") 8080)) := by
  simp only [requesterMembers, CleanValue, CleanMembers, CleanMember]
  decide

theorem tokenRule_rejected_one :
    (createTokenRule (bytes "") sampleService [sampleInterface]).isSome ∧
      ∀ r, (convertText (.object (requesterMembers (bytes "c") (bytes "localhost") (bytes "key") 8080)) >>= fun s =>
        createTokenRule s sampleService [sampleInterface]).map Parsers.TokenRule.parse ≠ some (.ok r) :=
  ⟨rfl, (tokenRule_rejected requester_clean sampleService_clean [sampleInterface]).1⟩

/-- The rule for one provider with one interface, which is written and thrown away. -/
theorem tokenRule_thrown_away :
    ∃ text message, (convertText (.object (requesterMembers (bytes "c") (bytes "localhost") (bytes "key") 8080)) >>= fun s =>
      createTokenRule s sampleService [sampleInterface]) = some text ∧
        Parsers.TokenRule.parse text = .error (.what message) := by
  have written : ((convertText (.object (requesterMembers (bytes "c") (bytes "localhost") (bytes "key") 8080)) >>= fun s =>
      createTokenRule s sampleService [sampleInterface])).isSome := rfl
  obtain ⟨text, h⟩ := Option.isSome_iff_exists.1 written
  obtain ⟨message, e⟩ := parse_createTokenRule requester_clean sampleService_clean h
  exact ⟨text, message, h, e⟩

end ArrowheadCore.Orchestrator
