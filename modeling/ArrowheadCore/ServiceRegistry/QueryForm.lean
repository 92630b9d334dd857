import ArrowheadCore.ServiceRegistry.Registration

/-!
# The request `/query`

Embedding of `ServiceQueryForm::parseQueryForm` (`payloads/ServiceQueryForm.h`) and of `filterQueryList` and
`processQuery` (`endpoints/SRQuery.h`). A `std::map` is the list of its pairs; the loops over it do not depend on
their order. What a connection to a provider gives is a parameter.
-/

namespace ArrowheadCore.ServiceRegistry
open Lib Lib.Sql Json Db

/-! ## `ServiceQueryForm` -/

/-- C++ `std::map<std::string, std::string>` -/
abbrev StrMap := List (List UInt8 × List UInt8)

/-- C++ `insert`, which keeps a value that is there. -/
def StrMap.insert (m : StrMap) (key value : List UInt8) : StrMap :=
  if (m.lookup key).isSome then m else m ++ [(key, value)]

/-- The members of `ServiceQueryForm`; a number that is not there is `none` (C++ `bVersionReqExists` and the like). -/
structure ServiceQueryForm where
  sServiceDefinition : List UInt8
  vInterfaceRequirements : List (List UInt8)
  vSecurityRequirements : List (List UInt8)
  mMetadataRequirements : StrMap
  iVersionReq : Option Int
  iMaxVersionReq : Option Int
  iMinVersionReq : Option Int
  bPingProviders : Bool
deriving DecidableEq, Repr

/-- The loop over the required interfaces. -/
def parseInterfaceRequirements : List JsonValue → Payload (List (List UInt8))
  | [] => pure []
  | v :: vs => do
    let sintf ← check v.toString
    if !validInterfaceName (sintf.map tolower) then fail 3 sintf
    return sintf.map tolower :: (← parseInterfaceRequirements vs)

/-- The loop over the required kinds of security. -/
def parseSecurityRequirements : List JsonValue → Payload (List (List UInt8))
  | [] => pure []
  | v :: vs => do
    let sSec ← check v.toString
    if !([bytes "not_secure", bytes "certificate", bytes "token"].contains (toLowerAndTrim sSec)) then fail 4 sSec
    return toLowerAndTrim sSec :: (← parseSecurityRequirements vs)

/-- The value of a requirement on the metadata; others are passed over. -/
def requirementValue : JsonValue → Option (List UInt8)
  | .number z => some (to_string z)
  | .string s => some (toLowerAndTrim (cStr s))
  | .true => some (bytes "true")
  | .false => some (bytes "false")
  | _ => none

/-- The loop over the requirements on the metadata. -/
def parseMetadataRequirements : StrMap → List (Option (List UInt8) × JsonValue) → Option StrMap
  | m, [] => some m
  | m, node :: nodes =>
    match requirementValue node.2, node.1 with
    | none, _ => parseMetadataRequirements m nodes
    | some value, some key => parseMetadataRequirements (m.insert (cStr key) value) nodes
    | some _, none => none

def parseQueryForm (root : JsonValue) : Payload ServiceQueryForm := do
  let definition ← check (root.child (bytes "serviceDefinitionRequirement"))
  if !definition.isSet then fail 1
  if !definition.isString then fail 2
  let definition ← check definition.toString
  if definition = [] then fail 2
  if toLowerAndTrim definition = [] then fail 2
  let interfaces ← parseInterfaceRequirements (← check (root.child (bytes "interfaceRequirements"))).items
  let security ← parseSecurityRequirements (← check (root.child (bytes "securityRequirements"))).items
  let metadata ← check (parseMetadataRequirements [] (← check (root.child (bytes "metadataRequirements"))).nodes)
  let version ← check (root.child (bytes "versionRequirement"))
  let maxVersion ← check (root.child (bytes "maxVersionRequirement"))
  let minVersion ← check (root.child (bytes "minVersionRequirement"))
  let ping ← check (root.child (bytes "pingProviders"))
  return {
    sServiceDefinition := toLowerAndTrim definition
    vInterfaceRequirements := interfaces
    vSecurityRequirements := security
    mMetadataRequirements := metadata
    iVersionReq := version.toInt
    iMaxVersionReq := maxVersion.toInt
    iMinVersionReq := minVersion.toInt
    bPingProviders := ping matches .true }

/-! ## `filterQueryList` -/

/-- The pieces that `std::getline` reads from a text, up to the delimiter or the end. -/
def getlines (d : UInt8) : List UInt8 → List (List UInt8)
  | [] => []
  | c :: s =>
    if c = d then [] :: getlines d s
    else
      match getlines d s with
      | [] => [[c]]
      | t :: ts => (c :: t) :: ts

/-- A piece of the metadata up to its first `=` and from there up to the second. -/
def splitToken (token : List UInt8) : List UInt8 × List UInt8 :=
  let isKey (c : UInt8) : Bool := c ≠ '='.toUInt8
  (token.takeWhile isKey, (token.dropWhile isKey).tail.takeWhile isKey)

/-- The map that is made of the stored metadata. -/
def mDbMeta (sMetadata : List UInt8) : StrMap :=
  (getlines ','.toUInt8 sMetadata).foldl (fun m token =>
    let (key, value) := splitToken token
    if key ≠ [] ∧ value ≠ [] then m.insert key value else m) []

/-- What becomes of a connection to the provider of an entry: `none` without a socket, else by the port. -/
abbrev Connects := ServiceQueryData → Option (Int → Bool)

/-- Whether an entry stays in the list; `none` when `std::stoi` throws. -/
def matchesForm (connects : Connects) (form : ServiceQueryForm) (it : ServiceQueryData) : Option Bool := do
  let names := it.vInterfaces.map Interface.interfaceName
  if form.vInterfaceRequirements ≠ [] ∧ !(form.vInterfaceRequirements.any names.contains) then return false
  if form.vSecurityRequirements ≠ [] ∧ !(form.vSecurityRequirements.contains it.sSecure) then return false
  if let some iVersionReq := form.iVersionReq then
    if iVersionReq ≠ (← stoi it.sVersion) then return false
  if let some iMinVersionReq := form.iMinVersionReq then
    if iMinVersionReq > (← stoi it.sVersion) then return false
  if let some iMaxVersionReq := form.iMaxVersionReq then
    if iMaxVersionReq < (← stoi it.sVersion) then return false
  if !(form.mMetadataRequirements.all fun kv => (mDbMeta it.sMetadata).lookup kv.1 == some kv.2) then return false
  if form.bPingProviders then
    match connects it with
    | none => return false
    | some reaches => return reaches (← stoi it.sProvider_port)
  return true

def filterQueryList (connects : Connects) (form : ServiceQueryForm) :
    List ServiceQueryData → Option (List ServiceQueryData)
  | [] => some []
  | it :: its => do
    let keep ← matchesForm connects form it
    let rest ← filterQueryList connects form its
    return if keep then it :: rest else rest

/-! ## `processQuery` -/

/-- What the response is rendered from. -/
structure ServiceQueryList where
  hits : Nat
  vServQueryData : List ServiceQueryData

def queryAnswers : Answers
  | (1, _) | (2, _) => some (badPayload "Service definition requirement is null or blank" "serviceregistry/query")
  | (3, errResp) => some { badPayload "Specified interface name is not valid: " "serviceregistry/query" with
      errorMsg := bytes "Specified interface name is not valid: " ++ errResp }
  | (4, _) => some (badPayload "Security type is not valid." "serviceregistry/query")
  | _ => none

def processQuery (link : Link) (connects : Connects) (root : Option JsonValue) :
    DbM (Except ErrorResp ServiceQueryList) :=
  match root with
  | none => pure (.error (badPayload "Bad Json" "serviceregistry/query"))
  | some root =>
    withPayload (parseQueryForm root) queryAnswers fun form => do
      match ← fillQueryList link form.sServiceDefinition with
      | .error 1 =>
        return .error ⟨bytes "Service with definition of '" ++ form.sServiceDefinition ++ bytes "' is not exists", 400,
          "INVALID_PARAMETER", "serviceregistry/query"⟩
      | .error _ => return .ok ⟨0, []⟩
      | .ok [] => return .ok ⟨0, []⟩
      | .ok (q :: qs) =>
        match filterQueryList connects form (q :: qs) with
        | none => throwExn (.runtimeError "stoi")
        | some kept => return .ok ⟨(q :: qs).length, kept⟩

/-! ## Requirements on the metadata only -/

/-- The form asks for nothing but its definition and its metadata. -/
structure ServiceQueryForm.OnlyMetadata (form : ServiceQueryForm) : Prop where
  interfaces : form.vInterfaceRequirements = []
  security : form.vSecurityRequirements = []
  version : form.iVersionReq = none
  maxVersion : form.iMaxVersionReq = none
  minVersion : form.iMinVersionReq = none
  ping : form.bPingProviders = false

/-- The stored metadata of an entry meets the requirements. -/
def metadataMatches (form : ServiceQueryForm) (it : ServiceQueryData) : Bool :=
  form.mMetadataRequirements.all fun kv => (mDbMeta it.sMetadata).lookup kv.1 == some kv.2

/-- The response for what was read from the tables. -/
def queryReply (form : ServiceQueryForm) : Except Nat (List ServiceQueryData) → Except ErrorResp ServiceQueryList
  | .error 1 => .error ⟨bytes "Service with definition of '" ++ form.sServiceDefinition ++ bytes "' is not exists", 400,
      "INVALID_PARAMETER", "serviceregistry/query"⟩
  | .error _ => .ok ⟨0, []⟩
  | .ok qs => .ok ⟨qs.length, qs.filter (metadataMatches form)⟩

section
variable {connects : Connects} {form : ServiceQueryForm}

lemma ServiceQueryForm.OnlyMetadata.matchesForm (h : form.OnlyMetadata) (it : ServiceQueryData) :
    matchesForm connects form it = some (metadataMatches form it) := by
  unfold ServiceRegistry.matchesForm metadataMatches
  rw [h.interfaces, h.security, h.version, h.minVersion, h.maxVersion, h.ping]
  cases form.mMetadataRequirements.all fun kv => (mDbMeta it.sMetadata).lookup kv.1 == some kv.2 <;> rfl

lemma ServiceQueryForm.OnlyMetadata.filterQueryList (h : form.OnlyMetadata) (qs : List ServiceQueryData) :
    filterQueryList connects form qs = some (qs.filter (metadataMatches form)) := by
  induction qs with
  | nil => rfl
  | cons q qs ih =>
    rw [ServiceRegistry.filterQueryList, h.matchesForm, ih]
    cases e : metadataMatches form q <;> simp [e]

/-- Without failures such a query is answered with what the tables say. -/
theorem processQuery_gives (connects : Connects) {link : Link} {db : Database} {root : JsonValue}
    (hlink : ∀ n, link.fault n = .none) (hdb : KeyColumns db) (hform : (parseQueryForm root).run = some (.ok form))
    (plain : Plain form.sServiceDefinition) (only : form.OnlyMetadata) : Gives db (processQuery link connects (some root))
      (queryReply form (queryList db form.sServiceDefinition)) := by
  unfold processQuery withPayload
  simp only [hform]
  refine (fillQueryList_gives hlink hdb plain).bind ?_
  generalize queryList db form.sServiceDefinition = list
  match list with
  | .error 0 => exact Gives.pure db _
  | .error 1 => exact Gives.pure db _
  | .error (_ + 2) => exact Gives.pure db _
  | .ok [] => exact Gives.pure db _
  | .ok (q :: qs) =>
    simp only [only.filterQueryList]
    exact Gives.pure db _

end

end ArrowheadCore.ServiceRegistry
