import ArrowheadCore.ServiceRegistry.Unregister

/-!
# The listings of the management

Embedding of `MgmtGet` (`core/apps/ServiceRegistry/endpoints/MgmtGet.h`): registry entries, service definitions and
systems, all or one by its key. The listings put their statements together from the parameters of the request; the
clauses for order and page are the same code in each of them. A response is an error or the data that it is rendered
from.
-/

namespace ArrowheadCore.ServiceRegistry
open Lib Lib.Sql Json Db

/-! ## The statement of a listing -/

/-- The columns of the fields that can be sorted by. -/
def sortColumn (sort_field : List UInt8) : Option (List UInt8) :=
  if sort_field = bytes "id" then some (bytes " ORDER BY id")
  else if sort_field = bytes "createdAt" then some (bytes " ORDER BY created_at")
  else if sort_field = bytes "updatedAt" then some (bytes " ORDER BY updated_at")
  else none

/-- The clause for the order. No direction is refused: each is different from one of the two. -/
def orderClause (sort_field direction : List UInt8) (errURL : String) : Except ErrorResp (List UInt8) :=
  if sort_field = [] then .ok []
  else
    match sortColumn sort_field with
    | none => .error ⟨bytes "Sortable field with reference '" ++ sort_field ++ bytes "' is not available", 400,
        "INVALID_PARAMETER", errURL⟩
    | some sOrder =>
      if direction = [] then .ok sOrder
      else if direction ≠ bytes "ASC" ∨ direction ≠ bytes "DESC" then .ok (sOrder ++ (bytes " " ++ direction))
      else .error ⟨bytes "Unknown parameter '" ++ direction ++ bytes "'", 400, "INVALID_PARAMETER", errURL⟩

/-- The clauses for the page; the offset is the number of the page. -/
def pageClause (page item_per_page : Int) : List UInt8 :=
  (if 0 < item_per_page then bytes " LIMIT " ++ to_string item_per_page else []) ++
    if 0 < page then bytes " OFFSET " ++ to_string page else []

def listStatement (sSelect : List UInt8) (page item_per_page : Int) (sort_field direction : List UInt8)
    (errURL : String) : Except ErrorResp (List UInt8) :=
  (orderClause sort_field direction errURL).map fun sOrder => sSelect ++ (sOrder ++ pageClause page item_per_page)

/-! ## Registry entries -/

/-- A row by its key. -/
def rowById (sTable sID : List UInt8) : Program (Option (List Value)) := do
  return (← Program.fetch (bytes "SELECT * FROM " ++ (sTable ++ (bytes " where id = " ++ (sID ++ bytes ";"))))).head?

/-- The interfaces of an entry; `none` when one is not found. -/
def interfaceRows : List (List UInt8) → Program (Option (List Interface))
  | [] => pure (some [])
  | id :: ids => do
    match ← rowById (bytes "service_interface") id with
    | none => pure none
    | some row => return (← interfaceRows ids).map (⟨id, cell row 1, cell row 2, cell row 3⟩ :: ·)

/-- The data of an entry, or the number of the table that gave nothing. -/
def processServiceRegistryEntry (id : Int) : Program (Except Nat ServiceQueryData) := do
  match (← Program.fetch (bytes "SELECT * FROM service_registry where id = '" ++ (to_string id ++ bytes "';"))).head? with
  | none => return .error 1
  | some r =>
    let sServiceDefinitionID := cell r 1
    let sProviderSystemID := cell r 2
    match ← rowById (bytes "service_definition") sServiceDefinitionID with
    | none => return .error 2
    | some d =>
      match ← rowById (bytes "system_") sProviderSystemID with
      | none => return .error 3
      | some p =>
        match ← Program.fetch (bytes "SELECT interface_id FROM service_registry_interface_connection WHERE " ++
          (bytes "service_registry_id = '" ++ (cell r 0 ++ bytes "';"))) with
        | [] => return .error 4
        | c :: cs =>
          match ← interfaceRows ((c :: cs).map (cell · 0)) with
          | none => return .error 5
          | some intfs =>
            return .ok {
              sId := cell r 0
              sServiceDefinition_id := sServiceDefinitionID
              sServiceDefinition_serviceDefinition := cell d 1
              sServiceDefinition_createdAt := cell d 2
              sServiceDefinition_updatedAt := cell d 3
              sProvider_id := sProviderSystemID
              sProvider_systemName := cell p 1
              sProvider_address := cell p 2
              sProvider_port := cell p 3
              sProvider_authenticationInfo := cell p 4
              sProvider_createdAt := cell p 5
              sProvider_updatedAt := cell p 6
              sServiceUri := cell r 3
              sEndOfValidity := cell r 4
              sSecure := cell r 5
              sMetadata := cell r 6
              sVersion := cell r 7
              vInterfaces := intfs
              sCreatedAt := cell r 8
              sUpdatedAt := cell r 9 }

def entryAnswer (errURL : String) : Nat → ErrorResp
  | 1 => badPayload "Empty response from service_registry table" errURL
  | 2 => badPayload "Empty response from service_definition table" errURL
  | 3 => badPayload "Empty response from system_ table" errURL
  | 4 => badPayload "Empty response from service_registry_interface_connection table" errURL
  | _ => badPayload "Empty response from service_interface table" errURL

/-- The loop over the keys of entries. -/
def readEntries (errURL : String) : List (List Value) → Program (Except ErrorResp (List ServiceQueryData))
  | [] => pure (.ok [])
  | row :: rows =>
    match stoi (cell row 0) with
    | none => .raise (.runtimeError "stoi")
    | some id => do
      match ← processServiceRegistryEntry id with
      | .error n => return .error (entryAnswer errURL n)
      | .ok q =>
        match ← readEntries errURL rows with
        | .error e => return .error e
        | .ok qs => return .ok (q :: qs)

def processMgmtGet (page item_per_page : Int) (sort_field direction : List UInt8) :
    Program (Except ErrorResp (List ServiceQueryData)) :=
  match listStatement (bytes "SELECT id FROM service_registry") page item_per_page sort_field direction
    "serviceregistry/mgmt/services" with
  | .error e => pure (.error e)
  | .ok sQuery => do
    match ← Program.fetch sQuery with
    | [] => return .error (invalidParameter "Empty response from service_registry table" "serviceregistry/mgmt/grouped")
    | row :: rows => readEntries "serviceregistry/mgmt/grouped" (row :: rows)

def processMgmtGetId (id : Int) : Program (Except ErrorResp ServiceQueryData) :=
  if id < 1 then pure (.error (badPayload "Id must be greater than 0." "serviceregistry/mgmt/\x7bid\x7d"))
  else do
    match ← processServiceRegistryEntry id with
    | .error n => return .error (entryAnswer "serviceregistry/mgmt/\x7bid\x7d" n)
    | .ok q => return .ok q

/-- The entries of a definition. Behind a `?` the name of the definition ends. -/
def processMgmtGetServiceDef (serviceDef : List UInt8) (page item_per_page : Int) (sort_field direction : List UInt8) :
    Program (Except ErrorResp (List ServiceQueryData)) := do
  let trimmedServDef := toLowerAndTrim serviceDef
  let name := trimmedServDef.takeWhile (· ≠ '?'.toUInt8)
  let errURL := "serviceregistry/mgmt/servicedef/\x7bserviceDefinition\x7d"
  match (← Program.fetch (bytes "SELECT id FROM service_definition WHERE service_definition = '" ++
    (name ++ bytes "'"))).getLast? with
  | none => return .error (invalidParameter "Empty response from service_definition table" errURL)
  | some d =>
    match listStatement (bytes "SELECT id FROM service_registry WHERE service_id = '" ++ (cell d 0 ++ bytes "'")) page
      item_per_page sort_field direction errURL with
    | .error e => return .error e
    | .ok sQuery =>
      match ← Program.fetch sQuery with
      | [] => return .error (invalidParameter "Empty response from service_registry table" errURL)
      | row :: rows => readEntries errURL (row :: rows)

/-! ## Systems -/

/-- The members of a system that is not found; the source leaves them as they are initialised. -/
def StSystem.empty : StSystem := ⟨[], [], [], [], [], [], []⟩

def processSystem (sId : List UInt8) : Program (Option StSystem) := do
  let sQuery := bytes "SELECT * FROM system_ WHERE id = '" ++ (sId ++ bytes "';")
  return (← Program.fetch sQuery).head?.map fun row =>
    ⟨cell row 0, cell row 1, cell row 2, cell row 3, cell row 4, cell row 5, cell row 6⟩

/-- The loop over the keys of systems, which does not look at what `processSystem` returns. -/
def readSystems : List (List Value) → Program (List StSystem)
  | [] => pure []
  | row :: rows => do
    let p ← processSystem (cell row 0)
    return p.getD .empty :: (← readSystems rows)

def processMgmtGetSystems (page item_per_page : Int) (sort_field direction : List UInt8) :
    Program (Except ErrorResp (List StSystem)) :=
  match listStatement (bytes "SELECT id FROM system_") page item_per_page sort_field direction
    "serviceregistry/mgmt/systems" with
  | .error e => pure (.error e)
  | .ok sQuery => do
    match ← Program.fetch sQuery with
    | [] => return .error (invalidParameter "Empty response from system_ table" "serviceregistry/mgmt/systems")
    | row :: rows => return .ok (← readSystems (row :: rows))

def processMgmtGetSystemsId (id : Int) : Program (Except ErrorResp StSystem) :=
  if id < 1 then pure (.error (badPayload "Id must be greater than 0." "serviceregistry/mgmt/systems/\x7bid\x7d"))
  else do
    match ← processSystem (to_string id) with
    | none => return .error ⟨bytes "System with id " ++ to_string id ++ bytes " not found.", 400, "INVALID_PARAMETER",
        "serviceregistry/mgmt/systems/\x7bid\x7d"⟩
    | some p => return .ok p

/-! ## Service definitions -/

def StServDef.ofRow (row : List Value) : StServDef := ⟨cell row 0, cell row 1, cell row 2, cell row 3⟩

/-- Here a page without rows is no error. -/
def processMgmtGetServices (page item_per_page : Int) (sort_field direction : List UInt8) :
    Program (Except ErrorResp (List StServDef)) :=
  match listStatement (bytes "SELECT * FROM service_definition") page item_per_page sort_field direction
    "serviceregistry/mgmt/services" with
  | .error e => pure (.error e)
  | .ok sQuery => do
    return .ok ((← Program.fetch sQuery).map StServDef.ofRow)

def processServiceDefinition (id : Int) : Program (Option StServDef) := do
  let sQuery := bytes "SELECT * FROM service_definition WHERE id = '" ++ (to_string id ++ bytes "';")
  return (← Program.fetch sQuery).head?.map StServDef.ofRow

def processMgmtGetServicesId (id : Int) : Program (Except ErrorResp StServDef) :=
  if id < 1 then pure (.error (badPayload "Id must be greater than 0." "serviceregistry/mgmt/services/\x7bid\x7d"))
  else do
    match ← processServiceDefinition id with
    | none => return .error ⟨bytes "Service definition with id of '" ++ to_string id ++ bytes "' does not exist", 400,
        "INVALID_PARAMETER", "serviceregistry/mgmt/services/\x7bid\x7d"⟩
    | some d => return .ok d

end ArrowheadCore.ServiceRegistry
