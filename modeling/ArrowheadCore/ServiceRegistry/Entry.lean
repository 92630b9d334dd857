import ArrowheadCore.Json.Gason

/-!
# The payloads of the service registry

Embedding of `ServiceRegistryEntry`, `SRSystem` and `ServiceDefinition`
(`core/apps/ServiceRegistry/payloads`) as far as they read a payload, and of the checks of `CommonPayloads`
they use. A check that fails gives the number that the source returns; a payload on which the source stops
or has no defined behaviour gives `none`.
-/

namespace ArrowheadCore.ServiceRegistry
open Lib Json

/-- A payload is read up to a result, or to the number of the failed check and the text that belongs to it
    (the source's `_errResp`). -/
abbrev Payload (α : Type) := ExceptT (Nat × List UInt8) Option α

def check {α : Type} (o : Option α) : Payload α := ExceptT.mk (o.map .ok)

def fail {α : Type} (n : Nat) (errResp : List UInt8 := []) : Payload α := ExceptT.mk (some (.error (n, errResp)))

/-! ## `CommonPayloads` -/

/-- The bytes that `toLowerAndTrim` drops: blanks, and the NUL that ends their list. -/
def isTrimmed (c : UInt8) : Bool := (bytes " \n\r\t\x0c\x0b").contains c || c == 0

def toLowerAndTrim (s : List UInt8) : List UInt8 := (s.map tolower).filter fun c => !isTrimmed c

def validInterfaceName (intf : List UInt8) : Bool :=
  match intf.dropWhile (· ≠ '-'.toUInt8) with
  | [] => false
  | _ :: rest => rest == bytes "secure-json" || rest == bytes "insecure-json"

/-- The pattern `YYYY-MM-DD hh:mm:ss`, with anything behind it. -/
def validEndOfValidity (s : List UInt8) : Bool :=
  let digit (i : Nat) := isDigitOf 10 (s.getD i 0)
  let is (i : Nat) (c : Char) := s.getD i 0 == c.toUInt8
  [0, 1, 2, 3].all digit && is 4 '-' && is 7 '-' && [5, 6, 8, 9].all digit &&
    is 10 ' ' && is 13 ':' && is 16 ':' && [11, 12, 14, 15, 17, 18].all digit

def validSecurityType (secure authInfo : List UInt8) : Nat :=
  if secure ≠ bytes "not_secure" ∧ secure ≠ bytes "certificate" ∧ secure ≠ bytes "token" then 4
  else if authInfo ≠ [] ∧ secure = bytes "not_secure" then 5
  else if (secure = bytes "certificate" ∨ secure = bytes "token") ∧ authInfo = [] then 5
  else 0

/-! ## `ServiceRegistryEntry` -/

/-- The input members of `ServiceRegistryEntry`. The port and the version are kept as the numbers that their
    texts are made of. -/
structure ServiceRegistryEntry where
  sServiceDefinition : List UInt8
  sProviderSystem_SystemName : List UInt8
  sProviderSystem_Address : List UInt8
  port : Int
  sProviderSystem_AuthInfo : List UInt8
  sServiceUri : List UInt8
  sEndOfValidity : List UInt8
  sSecure : List UInt8
  sMetaData : List UInt8
  version : Int
  vInterfaces : List (List UInt8)
deriving DecidableEq, Repr

def ServiceRegistryEntry.sProviderSystem_Port (e : ServiceRegistryEntry) : List UInt8 := to_string e.port

def ServiceRegistryEntry.sVersion (e : ServiceRegistryEntry) : List UInt8 := to_string e.version

def validRegistryEntry (root : JsonValue) : Payload Unit := do
  let definition ← check (root.child (bytes "serviceDefinition"))
  if !definition.isSet then fail 1
  match definition with
  | .string s => if cStr s = [] then fail 2
  | _ => fail 2
  let provider ← check (root.child (bytes "providerSystem"))
  if !provider.isSet then fail 3
  if !(← check (provider.child (bytes "systemName"))).isSet then fail 4
  if !(← check (provider.child (bytes "address"))).isSet then fail 5
  if !(← check (provider.child (bytes "port"))).isSet then fail 6
  let interfaces ← check (root.child (bytes "interfaces"))
  if !interfaces.isSet then fail 8
  if !(interfaces.itemAt 0).isSet then fail 9

/-- The value of a member of the metadata as it is stored; others are passed over. -/
def metadataValue : JsonValue → Option (List UInt8)
  | .number z => some (to_string z)
  | .string s => some (cStr s)
  | .true => some (bytes "true")
  | .false => some (bytes "false")
  | _ => none

/-- One member of the metadata as it is stored. -/
def metadataItem (node : Option (List UInt8) × JsonValue) : Option (List UInt8) :=
  match metadataValue node.2, node.1 with
  | none, _ => some []
  | some value, some key => some (cStr key ++ bytes "=" ++ value ++ bytes ",")
  | some _, none => none

/-- The stored form of the metadata; the last byte is erased, which an empty text does not have. -/
def parseMetadata (metadata : JsonValue) : Option (List UInt8) := do
  let items ← metadata.nodes.mapM metadataItem
  let text := items.flatten
  if text = [] then none else some (toLowerAndTrim text.dropLast)

/-- The loop over the interfaces. -/
def parseInterfaces : List JsonValue → Payload (List (List UInt8))
  | [] => pure []
  | v :: vs => do
    let sintf ← check v.toString
    if !validInterfaceName (sintf.map tolower) then fail 7 sintf
    return sintf.map tolower :: (← parseInterfaces vs)

def parseRegistryEntry (root : JsonValue) : Payload ServiceRegistryEntry := do
  let definition ← check (root.child (bytes "serviceDefinition") >>= JsonValue.toString)
  let provider ← check (root.child (bytes "providerSystem"))
  let name ← check (provider.child (bytes "systemName") >>= JsonValue.toString)
  if '.'.toUInt8 ∈ name then fail 1
  let address ← check (provider.child (bytes "address") >>= JsonValue.toString)
  let port ← check (provider.child (bytes "port") >>= JsonValue.toInt)
  if port < 0 ∨ 65535 < port then fail 2
  let authInfo := ((← check (provider.child (bytes "authenticationInfo"))).toString).getD []
  let uri ← check (root.child (bytes "serviceUri") >>= JsonValue.toString)
  let validity ← check (root.child (bytes "endOfValidity") >>= JsonValue.toString)
  if !validEndOfValidity validity then fail 3
  let secure := toLowerAndTrim (← check (root.child (bytes "secure") >>= JsonValue.toString))
  if validSecurityType secure authInfo ≠ 0 then fail (validSecurityType secure authInfo)
  let version ← check (root.child (bytes "version") >>= JsonValue.toInt)
  let metadata ← check (root.child (bytes "metadata"))
  let metadata ← if metadata.isSet then check (parseMetadata metadata) else pure []
  let interfaces ← parseInterfaces (← check (root.child (bytes "interfaces"))).items
  return {
    sServiceDefinition := toLowerAndTrim definition
    sProviderSystem_SystemName := toLowerAndTrim name
    sProviderSystem_Address := address
    port := port
    sProviderSystem_AuthInfo := authInfo
    sServiceUri := uri
    sEndOfValidity := validity
    sSecure := secure
    sMetaData := metadata
    version := version
    vInterfaces := interfaces }

/-! ## `SRSystem` and `ServiceDefinition` -/

/-- The input members of `SRSystem`. -/
structure SRSystem where
  sSystemName : List UInt8
  sAddress : List UInt8
  port : Int
  sAuthInfo : List UInt8
deriving DecidableEq, Repr

def SRSystem.sPort (p : SRSystem) : List UInt8 := to_string p.port

def validSystem (root : JsonValue) : Payload SRSystem := do
  let name ← check (root.child (bytes "systemName"))
  if !name.isSet then fail 1
  if !name.isString then fail 2
  let name ← check name.toString
  if name = [] then fail 2
  if toLowerAndTrim name = [] then fail 2
  let address ← check (root.child (bytes "address"))
  if !address.isSet then fail 3
  if !address.isString then fail 4
  let address ← check address.toString
  if address = [] then fail 4
  let port ← check (root.child (bytes "port"))
  if !port.isSet then fail 5
  let port ← check port.toInt
  if port < 0 ∨ 65535 < port then fail 6
  let authInfo := ((← check (root.child (bytes "authenticationInfo"))).toString).getD []
  return ⟨toLowerAndTrim name, address, port, authInfo⟩

/-- `ServiceDefinition::validJSONPayload`, with the definition it leaves behind. -/
def validJSONPayload (root : JsonValue) : Payload (List UInt8) := do
  let definition ← check (root.child (bytes "serviceDefinition"))
  if !definition.isSet then fail 1
  if !definition.isString then fail 2
  let definition ← check definition.toString
  if definition = [] then fail 2
  return toLowerAndTrim definition

end ArrowheadCore.ServiceRegistry
