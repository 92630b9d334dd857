import ArrowheadCore.Lib.Ostream
import ArrowheadCore.ServiceRegistry.MgmtGet
import ArrowheadCore.ServiceRegistry.Shown

/-!
# The grouped listing of the management

Embedding of `MgmtGet::processMgmtGetGrouped` (`core/apps/ServiceRegistry/endpoints/MgmtGet.h`) and of the texts that it
is made of: `ServiceRegistryEntry::createRegistryEntry` and `SRSystem::createSRSystem`
(`core/apps/ServiceRegistry/payloads`). The text is put together from the left; a list gets its closing bracket in
place of the last byte written, be it the comma behind an item or the opening bracket.
-/

namespace ArrowheadCore.ServiceRegistry
open Lib Lib.Sql Json Db

/-! ## The texts of entries and systems -/

/-- C++ `addInt(key, value)` of a text -/
def addIntText (key : String) (value : List UInt8) (o : Out) : Except Exn Out :=
  match stoi value with
  | none => .error (.runtimeError "stoi")
  | some z => .ok (addInt (bytes key) z o)

/-- C++ `addDbl(key, value)` of a text -/
def addDbl (key : String) (value : List UInt8) (o : Out) : Except Exn Out :=
  match stod value with
  | none => .error (.runtimeError "stod")
  | some z => .ok (addObj (bytes key) (general z) o)

def createServiceDefinition (sQData : ServiceQueryData) : Except Exn (List UInt8) := do
  let jServiceDefinition ← addIntText "id" sQData.sServiceDefinition_id newBuilder
  let jServiceDefinition :=
    addStr (bytes "serviceDefinition") sQData.sServiceDefinition_serviceDefinition jServiceDefinition
  let jServiceDefinition := addStr (bytes "createdAt") sQData.sServiceDefinition_createdAt jServiceDefinition
  let jServiceDefinition := addStr (bytes "updatedAt") sQData.sServiceDefinition_updatedAt jServiceDefinition
  return str jServiceDefinition

/-- The members of a system, in a response of its own and in that of an entry. -/
def createSRSystem (stSystemData : StSystem) : Except Exn (List UInt8) := do
  let jResponse ← addIntText "id" stSystemData.sId newBuilder
  let jResponse := addStr (bytes "systemName") stSystemData.sSystemName jResponse
  let jResponse := addStr (bytes "address") stSystemData.sAddress jResponse
  let jResponse ← addIntText "port" stSystemData.sPort jResponse
  let jResponse := addStr (bytes "authenticationInfo") stSystemData.sAuthInfo jResponse
  let jResponse := addStr (bytes "createdAt") stSystemData.sCreatedAt jResponse
  let jResponse := addStr (bytes "updatedAt") stSystemData.sUpdatedAt jResponse
  return str jResponse

def createProvider (sQData : ServiceQueryData) : Except Exn (List UInt8) :=
  createSRSystem ⟨sQData.sProvider_id, sQData.sProvider_systemName, sQData.sProvider_address, sQData.sProvider_port,
    sQData.sProvider_authenticationInfo, sQData.sProvider_createdAt, sQData.sProvider_updatedAt⟩

def createInterface (intf : Interface) : Except Exn (List UInt8) := do
  let jArrayElement ← addIntText "id" intf.id newBuilder
  let jArrayElement := addStr (bytes "interfaceName") intf.interfaceName jArrayElement
  let jArrayElement := addStr (bytes "createdAt") intf.createdAt jArrayElement
  let jArrayElement := addStr (bytes "updatedAt") intf.updatedAt jArrayElement
  return str jArrayElement

def createRegistryEntry (sQData : ServiceQueryData) : Except Exn (List UInt8) := do
  let jResponse ← addIntText "id" sQData.sId newBuilder
  let jResponse := addObj (bytes "serviceDefinition") (← createServiceDefinition sQData) jResponse
  let jResponse := addObj (bytes "provider") (← createProvider sQData) jResponse
  let jResponse := addStr (bytes "serviceUri") sQData.sServiceUri jResponse
  let jResponse := addStr (bytes "endOfValidity") sQData.sEndOfValidity jResponse
  let jResponse := addStr (bytes "secure") sQData.sSecure jResponse
  let sMetadata := if sQData.sMetadata.length < 2 then bytes "\x7b\x7d" else sQData.sMetadata
  let jResponse := addMetaData (bytes "metadata") sMetadata jResponse
  let jResponse ← addDbl "version" sQData.sVersion jResponse
  let v ← sQData.vInterfaces.mapM createInterface
  let jResponse := to_arrayObj (bytes "interfaces") v jResponse
  let jResponse := addStr (bytes "createdAt") sQData.sCreatedAt jResponse
  let jResponse := addStr (bytes "updatedAt") sQData.sUpdatedAt jResponse
  return str jResponse

/-! ## Groups -/

/-- C++ `resp.back() = c` -/
def setBack (c : UInt8) (resp : List UInt8) : List UInt8 := resp.dropLast ++ [c]

/-- An interface or a service definition in the lists for completion. -/
def valueItem (row : List Value) : List UInt8 :=
  bytes "\x7b\"id\" : " ++ (cell row 0 ++ (bytes ", \"value\" : \"" ++ (cell row 1 ++ bytes "\"\x7d,")))

def appendValues (rows : List (List Value)) (resp : List UInt8) : List UInt8 :=
  rows.foldl (fun resp row => resp ++ valueItem row) resp

/-- The loop over the systems. One that is not found is shown with its members empty. -/
def appendSystems : List (List Value) → List UInt8 → Program (List UInt8)
  | [], resp => pure resp
  | row :: rows, resp => do
    let oSRSystem ← processSystem (cell row 0)
    match createSRSystem (oSRSystem.getD .empty) with
    | .error e => .raise e
    | .ok system => appendSystems rows (resp ++ (system ++ bytes ","))

/-- The loop over the entries of a group. -/
def appendEntries : List (List Value) → List UInt8 → Program (Except ErrorResp (List UInt8))
  | [], resp => pure (.ok resp)
  | row :: rows, resp =>
    match stoi (cell row 0) with
    | none => .raise (.runtimeError "stoi")
    | some id => do
      match ← processServiceRegistryEntry id with
      | .error status => return .error (entryAnswer "serviceregistry/mgmt/grouped" status)
      | .ok sQData =>
        match createRegistryEntry sQData with
        | .error e => .raise e
        | .ok entry => appendEntries rows (resp ++ (entry ++ bytes ","))

/-- A group: the text before its entries, and the entries that have its key in a column. -/
def appendGroup (sColumn sID head resp : List UInt8) : Program (Except ErrorResp (List UInt8)) := do
  match ← Program.fetch (bytes "SELECT id FROM service_registry WHERE " ++ (sColumn ++ (bytes " = '" ++
    (sID ++ bytes "'")))) with
  | [] => return .error (invalidParameter "Empty response from service_registry table" "serviceregistry/mgmt/grouped")
  | row :: rows =>
    match ← appendEntries (row :: rows) (resp ++ head) with
    | .error e => return .error e
    | .ok resp => return .ok (setBack ']'.toUInt8 resp ++ bytes "\x7d,")

def appendGroups (sColumn : List UInt8) (head : List Value → List UInt8) :
    List (List Value) → List UInt8 → Program (Except ErrorResp (List UInt8))
  | [], resp => pure (.ok resp)
  | row :: rows, resp => do
    match ← appendGroup sColumn (cell row 0) (head row) resp with
    | .error e => return .error e
    | .ok resp => appendGroups sColumn head rows resp

def definitionHead (row : List Value) : List UInt8 :=
  bytes "\x7b" ++ (bytes "\"serviceDefinitionId\" : " ++ (cell row 0 ++ (bytes ", \"serviceDefinition\" : \"" ++
    (cell row 1 ++ (bytes "\"" ++ bytes ",\"providerServices\" : [")))))

def systemHead (row : List Value) : List UInt8 :=
  bytes "\x7b" ++ (bytes "\"systemId\" : " ++ (cell row 0 ++ (bytes ", \"systemName\" : \"" ++ (cell row 1 ++
    (bytes "\"" ++ (bytes ", \"address\" : \"" ++ (cell row 2 ++ (bytes "\", \"port\" : " ++ (cell row 3 ++
      bytes ",\"services\" : [")))))))))

/-! ## The listing -/

def processMgmtGetGrouped : Program (Except ErrorResp (List UInt8)) := do
  let resp := bytes "\x7b \"autoCompleteData\" : \x7b \"interfaceList\" : ["
  let interfaces ← Program.fetch (bytes "SELECT id,interface_name FROM service_interface")
  let resp := setBack ']'.toUInt8 (appendValues interfaces resp) ++ bytes ",\"serviceList\" : ["
  let services ← Program.fetch (bytes "SELECT id,service_definition FROM service_definition")
  let resp := setBack ']'.toUInt8 (appendValues services resp) ++ bytes ",\"systemList\" : ["
  let systems ← Program.fetch (bytes "SELECT id FROM system_")
  let resp ← appendSystems systems resp
  let resp := setBack ']'.toUInt8 resp ++ (bytes "\x7d," ++ bytes "\"servicesGroupedByServiceDefinition\" :[")
  let services ← Program.fetch (bytes "SELECT id,service_definition FROM service_definition")
  match ← appendGroups (bytes "service_id") definitionHead services resp with
  | .error e => return .error e
  | .ok resp =>
    let resp := setBack ']'.toUInt8 resp ++ bytes ",\"servicesGroupedBySystems\" :["
    let systems ← Program.fetch (bytes "SELECT id,system_name,address,port FROM system_")
    match ← appendGroups (bytes "system_id") systemHead systems resp with
    | .error e => return .error e
    | .ok resp => return .ok (setBack ']'.toUInt8 resp ++ bytes "\x7d")

end ArrowheadCore.ServiceRegistry
