import ArrowheadCore.Db.Session
import ArrowheadCore.ServiceRegistry.Entry

/-!
# Registration

Embedding of `DbWrapper` (`utils/common/DbWrapper.h`), of `Register::processRegister` and `processDB`
(`core/apps/ServiceRegistry/endpoints/Register.h`) and of the two requests of `MgmtPost`. A request is given
by what `gason` makes of its content, `none` when it is not JSON; a response is an error or the data that it
is rendered from. Statements are put together as the source does it, without escaping.
-/

namespace ArrowheadCore.ServiceRegistry
open Lib Lib.Sql Json Db

variable (link : Link)

/-! ## `DbWrapper` -/

/-- The text of the first column of the first row, empty when there is none. -/
def dbContentExists (sSelect sFrom sWhere sWhat : List UInt8) : DbM (List UInt8) := do
  let sQuery := bytes "SELECT " ++ (sSelect ++ (bytes " FROM " ++ (sFrom ++ (bytes " WHERE " ++
    (sWhere ++ (bytes " = '" ++ (sWhat ++ bytes "';")))))))
  return (← fetchString link sQuery).getD []

def dbSaveContent (sTableName sColumn sValue : List UInt8) (bMore : Bool) : DbM Unit :=
  let sQuery := bytes "INSERT INTO " ++ (sTableName ++ (bytes " (" ++ (sColumn ++ (bytes ") " ++
    if bMore then bytes "VALUES (" ++ (sValue ++ bytes ");")
    else bytes "VALUES ('" ++ (sValue ++ bytes "');")))))
  query link sQuery

/-- The common body of `checkAndInsertValue` and `checkAndInsertValues`. -/
def checkAndInsert (sReturnColumn sTable sCheckColumn sCheckValue sInsertColumn sInsertValue : List UInt8)
    (bMore : Bool) : DbM (List UInt8) := do
  let rRetValue ← dbContentExists link sReturnColumn sTable sCheckColumn sCheckValue
  if rRetValue ≠ [] then return rRetValue
  dbSaveContent link sTable sInsertColumn sInsertValue bMore
  dbContentExists link sReturnColumn sTable sCheckColumn sCheckValue

def checkAndInsertValue (sReturnColumn sTable sCheckColumn sCheckValue : List UInt8) : DbM (List UInt8) :=
  checkAndInsert link sReturnColumn sTable sCheckColumn sCheckValue sCheckColumn sCheckValue false

def checkAndInsertValues (sReturnColumn sTable sCheckColumn sCheckValue sInsertColumn sInsertValue : List UInt8) :
    DbM (List UInt8) :=
  checkAndInsert link sReturnColumn sTable sCheckColumn sCheckValue sInsertColumn sInsertValue true

/-! ## `Register` -/

/-- An interface of a response: one position of the four vectors `vInterfaces_*`. -/
structure Interface where
  id : List UInt8
  interfaceName : List UInt8
  createdAt : List UInt8
  updatedAt : List UInt8
deriving DecidableEq, Repr

/-- C++ `CommonPayloads::serviceQueryData` -/
structure ServiceQueryData where
  sId : List UInt8
  sServiceDefinition_id : List UInt8
  sServiceDefinition_serviceDefinition : List UInt8
  sServiceDefinition_createdAt : List UInt8
  sServiceDefinition_updatedAt : List UInt8
  sProvider_id : List UInt8
  sProvider_systemName : List UInt8
  sProvider_address : List UInt8
  sProvider_port : List UInt8
  sProvider_authenticationInfo : List UInt8
  sProvider_createdAt : List UInt8
  sProvider_updatedAt : List UInt8
  sServiceUri : List UInt8
  sEndOfValidity : List UInt8
  sSecure : List UInt8
  sMetadata : List UInt8
  sVersion : List UInt8
  vInterfaces : List Interface
  sCreatedAt : List UInt8
  sUpdatedAt : List UInt8
deriving DecidableEq, Repr

/-- A cell of a row as a text (C++ `Row::get(column, std::string&)`). -/
def cell (row : List Value) (column : Nat) : List UInt8 := ((row[column]?).bind valueText).getD []

/-- The names and values of the columns of a system. -/
def systemValues (name address port authInfo : List UInt8) : List UInt8 × List UInt8 :=
  let sColumns := bytes "system_name, address, port"
  let sValues := bytes "'" ++ (name ++ (bytes "', '" ++ (address ++ (bytes "', " ++ port))))
  if authInfo = [] then (sColumns, sValues)
  else (sColumns ++ bytes ", authentication_info", sValues ++ (bytes ", '" ++ (authInfo ++ bytes "'")))

/-- The keys of the interfaces, inserted where they are missing. -/
def interfaceIds : List (List UInt8) → DbM (List (List UInt8))
  | [] => pure []
  | intf :: intfs => do
    let sID ← checkAndInsertValue link (bytes "id") (bytes "service_interface") (bytes "interface_name") intf
    return sID :: (← interfaceIds intfs)

/-- The connections of an entry to interfaces. -/
def saveConnections (sServiceRegistryEntryID : List UInt8) : List (List UInt8) → DbM Unit
  | [] => pure ()
  | id :: ids => do
    let _ ← checkAndInsertValues link (bytes "id") (bytes "service_registry_interface_connection")
      (bytes "service_registry_id") sServiceRegistryEntryID (bytes "service_registry_id, interface_id")
      (sServiceRegistryEntryID ++ (bytes ", " ++ id))
    saveConnections sServiceRegistryEntryID ids

/-- A row by its key. -/
def fetchById (sTable sID : List UInt8) : DbM (Option (List Value)) :=
  return (← fetch link (bytes "SELECT * FROM " ++ (sTable ++ (bytes " where id = " ++ (sID ++ bytes ";"))))).head?

/-- The interfaces of the response; `none` when one is not found. -/
def readInterfaces : List (List UInt8) → DbM (Option (List Interface))
  | [] => pure (some [])
  | id :: ids => do
    match ← fetchById link (bytes "service_interface") id with
    | none => pure none
    | some row => return (← readInterfaces ids).map (⟨id, cell row 1, cell row 2, cell row 3⟩ :: ·)

/-- The first part of `processDB`: what is stored, with the keys of definition, provider, interfaces and
    entry. -/
def saveEntry (e : ServiceRegistryEntry) : DbM (List UInt8 × List UInt8 × List (List UInt8) × List UInt8) := do
  let sServiceDefinitionID ← checkAndInsertValue link (bytes "id") (bytes "service_definition")
    (bytes "service_definition") e.sServiceDefinition
  let (sColumns, sValues) := systemValues e.sProviderSystem_SystemName e.sProviderSystem_Address
    e.sProviderSystem_Port e.sProviderSystem_AuthInfo
  let sProviderSystemID ← checkAndInsertValues link (bytes "id") (bytes "system_") (bytes "system_name")
    e.sProviderSystem_SystemName sColumns sValues
  let vInterfaceIDs ← interfaceIds link e.vInterfaces
  let sColumns := bytes "service_id, system_id, service_uri, end_of_validity, secure, metadata, version"
  let sValues := sServiceDefinitionID ++ (bytes ", " ++ (sProviderSystemID ++ (bytes ", " ++ (bytes "'" ++
    (e.sServiceUri ++ (bytes "', " ++ (bytes "'" ++ (e.sEndOfValidity ++ (bytes "', " ++ (bytes "'" ++
    (e.sSecure ++ (bytes "', " ++ (bytes "'" ++ (e.sMetaData ++ (bytes "', " ++ e.sVersion)))))))))))))))
  let sServiceRegistryEntryID ← checkAndInsertValues link (bytes "id") (bytes "service_registry")
    (bytes "service_uri") e.sServiceUri sColumns sValues
  saveConnections link sServiceRegistryEntryID vInterfaceIDs
  return (sServiceDefinitionID, sProviderSystemID, vInterfaceIDs, sServiceRegistryEntryID)

/-- The data of the response, or the number of the table that gave nothing. -/
def processDB (e : ServiceRegistryEntry) : DbM (Except Nat ServiceQueryData) := do
  let (sServiceDefinitionID, sProviderSystemID, vInterfaceIDs, sServiceRegistryEntryID) ← saveEntry link e
  let some d ← fetchById link (bytes "service_definition") sServiceDefinitionID | return .error 1
  let some p ← fetchById link (bytes "system_") sProviderSystemID | return .error 2
  let some intfs ← readInterfaces link vInterfaceIDs | return .error 3
  let some r ← fetchById link (bytes "service_registry") sServiceRegistryEntryID | return .error 4
  return .ok {
    sId := sServiceRegistryEntryID
    sServiceDefinition_id := sServiceDefinitionID
    sServiceDefinition_serviceDefinition := cell d 1
    sServiceDefinition_createdAt := cell d 2
    sServiceDefinition_updatedAt := cell d 3
    sProvider_id := sProviderSystemID
    sProvider_systemName := cell p 1
    sProvider_address := cell p 2
    sProvider_port := cell p 3
    sProvider_authenticationInfo := cell p 4
    sProvider_createdAt := cell p 5
    sProvider_updatedAt := cell p 6
    sServiceUri := cell r 3
    sEndOfValidity := cell r 4
    sSecure := cell r 5
    sMetadata := cell r 6
    sVersion := cell r 7
    vInterfaces := intfs
    sCreatedAt := cell r 8
    sUpdatedAt := cell r 9 }

/-- C++ `ErrorResp` -/
structure ErrorResp where
  errorMsg : List UInt8
  statusCode : Nat
  type : String
  origin : String
deriving DecidableEq, Repr

def badPayload (msg origin : String) : ErrorResp := ⟨bytes msg, 400, "BAD_PAYLOAD", origin⟩

def invalidParameter (msg origin : String) : ErrorResp := ⟨bytes msg, 400, "INVALID_PARAMETER", origin⟩

/-- The answer to a failed check, `none` for a number that the source lets pass. -/
abbrev Answers := Nat × List UInt8 → Option ErrorResp

def validAnswers (errURL : String) : Answers
  | (1, _) => some (badPayload "Service definition is not specified." errURL)
  | (2, _) => some (badPayload "Service definition is null or blank." errURL)
  | (3, _) => some (badPayload "Provider system is not specified." errURL)
  | (4, _) => some (badPayload "Provider system name is not specified." errURL)
  | (5, _) => some (badPayload "Provider system address is not specified." errURL)
  | (6, _) => some (badPayload "Provider system port is not specified." errURL)
  | (8, _) => some (badPayload "Interfaces list is not specified." errURL)
  | (9, _) => some (badPayload "Interfaces list is null or empty." errURL)
  | (10, _) => some (badPayload "JSon parsing exception." errURL)
  | _ => none

def parseAnswers (errURL : String) : Answers
  | (1, _) => some (invalidParameter "System name can't contain dot (.)" errURL)
  | (2, _) => some (badPayload "Port must be between 0 and 65535." errURL)
  | (3, _) => some (badPayload ("End of validity is specified in the wrong format. " ++
      "Please provide UTC time using YYYY-MM-DD hh:mm:ss pattern.") errURL)
  | (4, _) => some (badPayload "Security type is not valid." errURL)
  | (5, _) => some (badPayload
      "Security type is in conflict with the availability of the authentication info." errURL)
  | (7, errResp) => some { badPayload "Specified interface name is not valid: " errURL with
      errorMsg := bytes "Specified interface name is not valid: " ++ errResp }
  | _ => none

def storeAnswers (errURL : String) : Nat → Option ErrorResp
  | 1 => some (badPayload "Empty response from service_definition table" errURL)
  | 2 => some (badPayload "Empty response from system_ table" errURL)
  | 3 => some (badPayload "Empty response from service_interface table" errURL)
  | 4 => some (badPayload "Empty response from service_registry table" errURL)
  | _ => none

/-- Read a payload and go on with what it gives, unless a check fails. -/
def withPayload {α β : Type} (p : Payload α) (answers : Answers) (go : α → DbM (Except ErrorResp β)) :
    DbM (Except ErrorResp β) :=
  match p.run with
  | none => throwExn .abort
  | some (.ok a) => go a
  | some (.error f) =>
    match answers f with
    | some e => pure (.error e)
    | none => throwExn .abort

def processRegister (root : Option JsonValue) (errURL : String) : DbM (Except ErrorResp ServiceQueryData) :=
  match root with
  | none => pure (.error (badPayload "Bad Json" errURL))
  | some root =>
    withPayload (validRegistryEntry root) (validAnswers errURL) fun _ =>
      withPayload (parseRegistryEntry root) (parseAnswers errURL) fun e => do
        match ← processDB link e with
        | .ok d => return .ok d
        | .error n =>
          match storeAnswers errURL n with
          | some r => return .error r
          | none => throwExn .abort

/-! ## `MgmtPost` -/

/-- C++ `CommonPayloads::stSystem` -/
structure StSystem where
  sId : List UInt8
  sSystemName : List UInt8
  sAddress : List UInt8
  sPort : List UInt8
  sAuthInfo : List UInt8
  sCreatedAt : List UInt8
  sUpdatedAt : List UInt8
deriving DecidableEq, Repr

/-- C++ `CommonPayloads::stServDef` -/
structure StServDef where
  sId : List UInt8
  sServiceDefinition : List UInt8
  sCreatedAt : List UInt8
  sUpdatedAt : List UInt8
deriving DecidableEq, Repr

def systemAnswers : Answers
  | (6, _) => some (invalidParameter "Port must be between 0 and 65535." "serviceregistry/mgmt/systems")
  | _ => some (invalidParameter "parameter null or empty" "serviceregistry/mgmt/systems")

def processMgmtPostSystems (root : Option JsonValue) : DbM (Except ErrorResp StSystem) :=
  match root with
  | none => pure (.error (badPayload "Bad Json" "serviceregistry/mgmt/systems"))
  | some root =>
    withPayload (validSystem root) systemAnswers fun p => do
      let (sColumns, sValues) := systemValues p.sSystemName p.sAddress p.sPort p.sAuthInfo
      let _ ← checkAndInsertValues link (bytes "id") (bytes "system_") (bytes "system_name") p.sSystemName
        sColumns sValues
      let sQuery := bytes "SELECT * FROM system_ where system_name = '" ++ (p.sSystemName ++
        (bytes "' AND address = '" ++ (p.sAddress ++ (bytes "' AND port = '" ++ (p.sPort ++ bytes "';")))))
      match (← fetch link sQuery).head? with
      | some row =>
        return .ok ⟨cell row 0, p.sSystemName, p.sAddress, p.sPort, cell row 4, cell row 5, cell row 6⟩
      | none =>
        return .error ⟨bytes "No system with name: " ++ p.sSystemName ++ bytes ", address: " ++ p.sAddress ++
          bytes " and port: " ++ p.sPort, 400, "INVALID_PARAMETER", "serviceregistry/mgmt/systems"⟩

def definitionAnswers : Answers
  | (1, _) => some (badPayload "Service definition is not specified." "serviceregistry/mgmt/services")
  | (2, _) => some (badPayload "Service definition is null or blank." "serviceregistry/mgmt/services")
  | (10, _) => some (badPayload "JSon parsing exception." "serviceregistry/mgmt/services")
  | _ => none

def processMgmtPostServiceDefinition (root : Option JsonValue) : DbM (Except ErrorResp StServDef) :=
  match root with
  | none => pure (.error (badPayload "Bad Json" "serviceregistry/mgmt/services"))
  | some root =>
    withPayload (validJSONPayload root) definitionAnswers fun definition => do
      let sServiceDefinitionID ← checkAndInsertValue link (bytes "id") (bytes "service_definition")
        (bytes "service_definition") definition
      let sQuery := bytes "SELECT * FROM service_definition WHERE id = '" ++ (sServiceDefinitionID ++ bytes "';")
      match (← fetch link sQuery).head? with
      | some row => return .ok ⟨cell row 0, cell row 1, cell row 2, cell row 3⟩
      | none =>
        return .error ⟨bytes "Service definition with id of '" ++ sServiceDefinitionID ++ bytes "' does not exist",
          400, "INVALID_PARAMETER", "serviceregistry/mgmt/services"⟩

end ArrowheadCore.ServiceRegistry
