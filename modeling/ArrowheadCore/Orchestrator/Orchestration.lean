import ArrowheadCore.Lib.OrdMap
import ArrowheadCore.Json.CommonJsonBuilder
import ArrowheadCore.ServiceRegistry.Entry

/-!
# Orchestration

Embedding of `Orchestration::dynamicOrchestration` (`core/apps/Orchestrator/endpoints/Orchestration.h`) and of
what it calls. The other systems, the parser of gason, the clock and the random generator are a `World`.
`none` is the end of the process: an assertion of gason that fails, or a name read from the nodes of an array.
-/

namespace ArrowheadCore.Orchestrator
open Lib Json ServiceRegistry

/-- C++ `ServiceRequestForm` after `parseRequestForm` -/
structure ServiceRequestForm where
  sServiceDefinitionReq : List UInt8
  jRequesterSystem : JsonValue
  bRequestedServiceExists : Bool
  jRequestedService : JsonValue
  bPreferredProvidersExits : Bool
  jPreferredProviders : JsonValue
  mFlags : List (String × Bool)

def ServiceRequestForm.getFlagValue (form : ServiceRequestForm) (sFlagName : String) : Bool :=
  (form.mFlags.lookup sFlagName).getD false

/-- What the endpoint does not decide itself. -/
structure World where
  /-- the body of the answer to the request with this number; `none` when its status is not OK -/
  send : Nat → List UInt8 → List UInt8 → Option (List UInt8)
  /-- C++ `gason::jsonParse`; `none` when the status is not `JSON_PARSE_OK` -/
  jsonParse : List UInt8 → Option JsonValue
  /-- C++ `rand` -/
  rand : Nat
  /-- C++ `convertStrTimeToUint64(getLocalTime())` -/
  localTimeNow : Nat
  convertStrTimeToUint64 : List UInt8 → Nat

/-! ## Reading values -/

/-- C++ `child` with a constant name -/
def get (v : JsonValue) (key : String) : Option JsonValue := v.child (bytes key)

/-- C++ `child("id").toInt()` -/
def idOf (v : JsonValue) : Option Int := get v "id" >>= JsonValue.toInt

/-- C++ `child("provider")("id").toInt()` -/
def providerId (entry : JsonValue) : Option Int := get entry "provider" >>= idOf

/-- The values that a loop from `gason::begin` to the end visits. -/
def values (v : JsonValue) : List JsonValue := v.nodes.map Prod.snd

/-- C++ `child(key).toString()` as a `std::string` -/
def getString (v : JsonValue) (key : String) : Option (List UInt8) := get v key >>= JsonValue.toString

/-- C++ `convertGasonToCJB(v).str()` -/
def convertText (v : JsonValue) : Option (List UInt8) := (convertGasonToCJB v).map str

/-! ## The request form -/

def isLocal (jProv : JsonValue) : Option Bool := do
  if (← get jProv "providerCloud").isSet then some false else some (← get jProv "providerSystem").isSet

def isGlobal (jProv : JsonValue) : Option Bool := do some (← get jProv "providerCloud").isSet

def preferredProviderIsValid (jProv : JsonValue) : Option Bool := do
  if ← isLocal jProv then some true else isGlobal jProv

/-- The preferred providers that `validateCrossParameterConstraints` keeps. -/
def validPreferred (form : ServiceRequestForm) : List JsonValue → Option (List JsonValue)
  | [] => some []
  | p :: ps => do
    let rest ← validPreferred form ps
    if form.getFlagValue "triggerInterCloud" && !(← preferredProviderIsValid p) then some rest
    else if !(← isLocal p) then some rest
    else some (p :: rest)

/-- The status and `vPreferredProviderDataValidated`. -/
def validateCrossParameterConstraints (form : ServiceRequestForm) : Option (Nat × List JsonValue) := do
  if !form.bRequestedServiceExists && form.getFlagValue "overrideStore" then some (1, [])
  else if !form.bRequestedServiceExists && form.getFlagValue "triggerInterCloud" then some (2, [])
  else if form.getFlagValue "onlyPreferred" then
    if !form.bPreferredProvidersExits then some (3, [])
    else some (0, ← validPreferred form form.jPreferredProviders.items)
  else some (0, [])

def checkSystemRequest (jProviderSystem : JsonValue) : Option Nat := do
  if !(← get jProviderSystem "systemName").isSet then some 5
  else if !(← get jProviderSystem "address").isSet then some 6
  else if !(← get jProviderSystem "port").isSet then some 7
  else
    let port ← get jProviderSystem "port" >>= JsonValue.toInt
    if port < 0 ∨ port > 65535 then some 8 else some 0

/-- There is no gatekeeper. -/
def isInterCloudOrchestrationPossible (form : ServiceRequestForm) : Bool :=
  let gateKeeperIsPresent := false
  gateKeeperIsPresent && form.getFlagValue "enableInterCloud"

/-- The loop of `checkServiceRequestForm`. -/
def checkPreferred (form : ServiceRequestForm) : List JsonValue → Option Nat
  | [] => some 0
  | p :: ps => do
    let status ← get p "providerSystem" >>= checkSystemRequest
    if status ≠ 0 then some status
    else if isInterCloudOrchestrationPossible form && (← get p "providerCloud").isSet then
      let cloud ← get p "providerCloud"
      if !(← get cloud "operator").isSet then some 9
      else if !(← get cloud "name").isSet then some 10
      else checkPreferred form ps
    else checkPreferred form ps

/-- A status of zero is returned at once. -/
def checkServiceRequestForm (form : ServiceRequestForm) : Option Nat := do
  let (status, validated) ← validateCrossParameterConstraints form
  if status = 0 then some status
  else if form.sServiceDefinitionReq = [] then some 4
  else checkPreferred form validated

/-! ## Authorization -/

/-- The elements of `providerIdsWithInterfaceIds`. -/
def createProviderElement (entry : JsonValue) : Option (List UInt8) := do
  let id ← providerId entry
  let vIntfIds ← (← get entry "interfaces").items.mapM idOf
  some (str (to_arrayObj (bytes "idList") (vIntfIds.map to_string) (addInt (bytes "id") id newBuilder)))

def createIntraCloudRule (jRequesterSystem : JsonValue) (queryData : List JsonValue) : Option (List UInt8) := do
  let consumer ← convertText jRequesterSystem
  let first ← queryData.head?
  let serviceDefinitionId ← get first "serviceDefinition" >>= idOf
  let vProvIdWithIntfIds ← queryData.mapM createProviderElement
  let o := addObj (bytes "consumer") consumer newBuilder
  let o := addInt (bytes "serviceDefinitionId") serviceDefinitionId o
  some (str (to_arrayObj (bytes "providerIdsWithInterfaceIds") vProvIdWithIntfIds o))

/-- The authorized interfaces of each provider. -/
abbrev ProvIntfs := OrdMap Int (List JsonValue)

/-- C++ `push_back` under a key of the map, which is new when it is not found. -/
def ProvIntfs.add (m : ProvIntfs) (p : Int) (v : JsonValue) : ProvIntfs := m.upsert p fun vs => vs.getD [] ++ [v]

/-- The body of the innermost loop: an authorized id and an interface of the entry. -/
def filterInterface (p : Int) (k : JsonValue) (m : ProvIntfs) (v : JsonValue) : Option ProvIntfs := do
  if (← idOf v) = (← k.toInt) then some (ProvIntfs.add m p v) else some m

/-- The loop over the interfaces of the entry. -/
def filterInterfaces (entry : JsonValue) (p : Int) (m : ProvIntfs) (k : JsonValue) : Option ProvIntfs := do
  (values (← get entry "interfaces")).foldlM (filterInterface p k) m

/-- The loop over the ids of a record of the answer, if the record is about this provider. -/
def filterRecord (entry : JsonValue) (p : Int) (m : ProvIntfs) (record : JsonValue) : Option ProvIntfs := do
  if (← idOf record) = p then (values (← get record "idList")).foldlM (filterInterfaces entry p) m else some m

/-- The loop over the records. -/
def filterEntry (auth : JsonValue) (m : ProvIntfs) (entry : JsonValue) : Option ProvIntfs := do
  let iSRProvId ← providerId entry
  (values (← get auth "authorizedProviderIdsWithInterfaceIds")).foldlM (filterRecord entry iSRProvId) m

/-- C++ `filterProviderListUsingAuthorizationResult` on a parsed answer -/
def filterProviderListUsingAuthorizationResult (queryData : List JsonValue) (auth : JsonValue) : Option ProvIntfs :=
  queryData.foldlM (filterEntry auth) OrdMap.empty

/-! ## Preferred providers -/

def providerEquals (jCurrentProv jCurrentPrefProv : JsonValue) : Option Bool := do
  let prov ← get jCurrentProv "provider"
  let pref ← get jCurrentPrefProv "providerSystem"
  let currentSystemName ← getString prov "systemName"
  let currentAddress ← getString prov "address"
  let currentPort ← get prov "port" >>= JsonValue.toInt
  let currentPrefSystemName ← getString pref "systemName"
  let currentPrefAddress ← getString pref "address"
  let currentPrefPort ← get pref "port" >>= JsonValue.toInt
  some (toLowerAndTrim currentSystemName = toLowerAndTrim currentPrefSystemName ∧ currentAddress = currentPrefAddress ∧
    currentPort = currentPrefPort)

/-- Whether one of the preferred providers is local and equal to the provider of the entry. -/
def isPreferred (entry : JsonValue) : List JsonValue → Option Bool
  | [] => some false
  | p :: ps => do
    if !(← isLocal p) then isPreferred entry ps
    else if ← providerEquals entry p then some true
    else isPreferred entry ps

/-- The loop of `selectPreferred`. -/
def selectLoop (preferred : List JsonValue) : List JsonValue → Option (List JsonValue)
  | [] => some []
  | entry :: entries => do
    let selected ← isPreferred entry preferred
    let rest ← selectLoop preferred entries
    some (if selected then entry :: rest else rest)

def selectPreferred (form : ServiceRequestForm) (queryData : List JsonValue) : Option (List JsonValue) :=
  if !form.bPreferredProvidersExits then some [] else selectLoop (values form.jPreferredProviders) queryData

/-! ## The response -/

def createTokenRule (sConsumer : List UInt8) (jSRData : JsonValue) (vAuthorizedInterfaces : List JsonValue) :
    Option (List UInt8) := do
  let provider ← get jSRData "provider"
  let o := addObj (bytes "consumer") sConsumer newBuilder
  let o := addNULL (bytes "consumerCloud") o
  let o := addInt (bytes "duration") (-1) o
  let prov := addStr (bytes "address") (← getString provider "address") newBuilder
  let prov := addStr (bytes "port") (to_string (← get provider "port" >>= JsonValue.toInt)) prov
  let prov := addStr (bytes "systemName") (← getString provider "systemName") prov
  let prov := match (← get provider "authenticationInfo").toString with
    | some s => addStr (bytes "authenticationInfo") s prov
    | none => prov
  let elem := addObj (bytes "provider") (str prov) newBuilder
  let names ← (← vAuthorizedInterfaces.mapM (get · "interfaceName")).filter JsonValue.isSet |>.mapM JsonValue.toString
  let elem := to_arrayObj (bytes "serviceInterfaces") names elem
  let o := to_arrayObj (bytes "providers") [str elem] o
  let service ← get jSRData "serviceDefinition" >>= (getString · "serviceDefinition")
  some (str (addStr (bytes "service") service o))

def calculateOrchestratorWarnings (w : World) (jProv : JsonValue) : Option (List UInt8) := do
  let endOfValidity ← get jProv "endOfValidity"
  if !endOfValidity.isSet then some (bytes "\"TTL_UNKNOWN\"")
  else
    let uEndOfValidity := w.convertStrTimeToUint64 (← endOfValidity.toString)
    if uEndOfValidity < w.localTimeNow then some (bytes "\"TTL_EXPIRED\"")
    else if (uEndOfValidity + 2 * 60) % 2 ^ 64 < w.localTimeNow then some (bytes "\"TTL_EXPIRING\"")
    else some []

/-- The tokens for an entry; `none` inside when there are none. -/
def queryTokens (w : World) (n : Nat) (sConsumer : List UInt8) (entry : JsonValue) (intfs : List JsonValue) :
    Option (Option (List UInt8)) := do
  let sTokenRule ← createTokenRule sConsumer entry intfs
  match w.send n (bytes "https://127.0.0.1/token") sTokenRule >>= w.jsonParse with
  | none => some none
  | some jAuthTokens =>
    let tokenData := (← get jAuthTokens "tokenData").itemAt 0
    if !tokenData.isSet then some none
    else
      let tokens ← get tokenData "tokens"
      if !tokens.isSet then some none else some (some (← convertText tokens))

/-- The members of an element in front of the interfaces. -/
def elementHead (entry : JsonValue) : Option Out := do
  let o := addObj (bytes "provider") (← get entry "provider" >>= convertText) newBuilder
  let o := addObj (bytes "service") (← get entry "serviceDefinition" >>= convertText) o
  let o := addStr (bytes "serviceUri") (← getString entry "serviceUri") o
  let o := addStr (bytes "secure") (← getString entry "secure") o
  let o := addObj (bytes "metadata") (← get entry "metadata" >>= convertText) o
  some (addInt (bytes "version") (← get entry "version" >>= JsonValue.toInt) o)

/-- The tokens of an entry that is secured by them; `none` inside when the entry is left out. -/
def addTokens (w : World) (n : Nat) (sConsumer : List UInt8) (entry : JsonValue) (intfs : List JsonValue) (o : Out) :
    Option (Option Out) := do
  let s1 := toLowerAndTrim (← getString entry "secure")
  if s1 = bytes "token" then
    let tokens ← queryTokens w n sConsumer entry intfs
    some (tokens.map fun sTokens => addObj (bytes "authorizationTokens") (cStr sTokens) o)
  else some (some o)

/-- An element of the response: the entry it is built from, its interfaces and its text. -/
structure OrchElement where
  entry : JsonValue
  interfaces : List JsonValue
  text : List UInt8

/-- The element of an entry with these interfaces; `none` inside when the entry is left out. -/
def finishElement (w : World) (sConsumer : List UInt8) (n : Nat) (entry : JsonValue) (intfs : List JsonValue)
    (o : Out) : Option (Option OrchElement) := do
  let o := to_arrayObj (bytes "interfaces") (← intfs.mapM convertText) o
  match ← addTokens w n sConsumer entry intfs o with
  | none => some none
  | some o =>
    let sWarning ← calculateOrchestratorWarnings w entry
    let o := to_arrayObj (bytes "warnings") (if sWarning = [] then [] else [sWarning]) o
    some (some ⟨entry, intfs, str o⟩)

/-- One turn of the loop of `createOrchestrationResponse`. -/
def createElement (w : World) (m : ProvIntfs) (sConsumer : List UInt8) (n : Nat) (entry : JsonValue) :
    Option (Option OrchElement) := do
  let o ← elementHead entry
  let provId ← providerId entry
  match m.lookup provId with
  | none => some none
  | some intfs => finishElement w sConsumer n entry intfs o

/-- The loop of `createOrchestrationResponse`. -/
def createElements (w : World) (m : ProvIntfs) (sConsumer : List UInt8) (n : Nat) :
    List JsonValue → Option (List OrchElement)
  | [] => some []
  | entry :: entries => do
    let element ← createElement w m sConsumer n entry
    let elements ← createElements w m sConsumer (n + 1) entries
    some (element.toList ++ elements)

/-- The answer to an orchestration request: an error, the text `{"response":[]}`, or elements and their text. -/
inductive Answer where
  | error (message : String) (code : Nat) (type : String) (errURL : List UInt8)
  | empty
  | response (elements : List OrchElement) (text : List UInt8)

def createOrchestrationResponse (w : World) (vProviders : List JsonValue) (m : ProvIntfs) (sConsumer : List UInt8) :
    Option Answer := do
  let elements ← createElements w m sConsumer 2 vProviders
  some (.response elements (str (to_arrayObj (bytes "response") (elements.map OrchElement.text) newBuilder)))

/-! ## `dynamicOrchestration` -/

/-- The errors of `checkServiceRequestForm`. -/
def formError (errURL : List UInt8) : Nat → Option Answer
  | 1 => some (.error "Requested service can not be null when \"overrideStore\" is TRUE" 400 "BAD_PAYLOAD" errURL)
  | 2 => some (.error "Requested service can not be null when \"triggerInterCloud\" is TRUE" 400 "BAD_PAYLOAD" errURL)
  | 3 => some
    (.error "There is no valid preferred provider, but \"onlyPreferred\" is set to true" 400 "BAD_PAYLOAD" errURL)
  | 4 => some (.error "Service definition requirement is null or blank." 400 "BAD_PAYLOAD" errURL)
  | 5 => some (.error "System name is null or blank." 400 "BAD_PAYLOAD" errURL)
  | 6 => some (.error "System address is null or blank." 400 "BAD_PAYLOAD" errURL)
  | 7 => some (.error "System port is null." 400 "BAD_PAYLOAD" errURL)
  | 8 => some (.error "Port must be between 0 and 65535." 400 "BAD_PAYLOAD" errURL)
  | 9 => some (.error "Cloud operator is null or blank." 400 "INVALID_PARAMETER" errURL)
  | 10 => some (.error "Cloud name is null or blank." 400 "INVALID_PARAMETER" errURL)
  | _ => none

/-- The parsed answer of the service registry; `none` inside when there is none. -/
def queryServiceRegistry (w : World) (form : ServiceRequestForm) : Option (Option JsonValue) := do
  let payload ← convertText form.jRequestedService
  some (w.send 0 (bytes "https://127.0.0.1/query") payload >>= w.jsonParse)

/-- The parsed answer of the authorization system; `none` inside when there is none. -/
def queryAuthorization (w : World) (form : ServiceRequestForm) (queryData : List JsonValue) :
    Option (Option JsonValue) := do
  let sIntraCloudRule ← createIntraCloudRule form.jRequesterSystem queryData
  some (w.send 1 (bytes "https://127.0.0.1/intracloud/check") sIntraCloudRule >>= w.jsonParse)

/-- The entries for which a response is created, chosen from the entries of the registry or the preferred ones
    among them. -/
def chooseEntries (w : World) (form : ServiceRequestForm) (queryData preferredQueryData : List JsonValue)
    (m : ProvIntfs) : Option (List JsonValue) := do
  let bOnlyPreferred := form.getFlagValue "onlyPreferred"
  let all := if bOnlyPreferred then preferredQueryData else queryData
  if !form.getFlagValue "matchmaking" then some all
  else if bOnlyPreferred then
    some [← preferredQueryData[w.rand % preferredQueryData.length]?]
  else
    let (randProvId, _) ← m.entries[w.rand % m.entries.length]?
    -- `filterProviderListUsingAuthorizationResult` has read the provider id of every entry before
    match queryData.find? fun entry => providerId entry == some randProvId with
    | some entry => some [entry]
    | none => some all

def preferredEntries (form : ServiceRequestForm) (queryData : List JsonValue) : Option (List JsonValue) :=
  if form.getFlagValue "onlyPreferred" then selectPreferred form queryData else some []

/-- The part of `dynamicOrchestration` behind the authorization. -/
def answerAuthorized (w : World) (form : ServiceRequestForm) (queryData : List JsonValue) (m : ProvIntfs) :
    Option Answer := do
  let preferredQueryData ← preferredEntries form queryData
  if form.getFlagValue "onlyPreferred" && preferredQueryData.isEmpty then some .empty
  else
    let sRequester ← convertText form.jRequesterSystem
    let vProviders ← chooseEntries w form queryData preferredQueryData m
    createOrchestrationResponse w vProviders m sRequester

/-- The part of `dynamicOrchestration` behind the service registry. -/
def answerEntries (w : World) (form : ServiceRequestForm) (queryData : List JsonValue) : Option Answer := do
  match ← queryAuthorization w form queryData with
  | none => some .empty
  | some auth =>
    let m ← filterProviderListUsingAuthorizationResult queryData auth
    if m.entries = [] then some .empty else answerAuthorized w form queryData m

def dynamicOrchestration (w : World) (form : ServiceRequestForm) (errURL : List UInt8) : Option Answer := do
  let status ← checkServiceRequestForm form
  match formError errURL status with
  | some e => some e
  | none =>
    match ← queryServiceRegistry w form with
    | none => some .empty
    | some root =>
      let data ← get root "serviceQueryData"
      if values data = [] then some .empty else answerEntries w form (values data)

end ArrowheadCore.Orchestrator
