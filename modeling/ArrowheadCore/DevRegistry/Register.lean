import ArrowheadCore.DevRegistry.Entries
import ArrowheadCore.DevRegistry.Parsers

/-!
# Registering a device

Embedding of `Endpoint::Register` (`core/apps/DevRegistry/endpoints/Register.h`). What is read of the payload before a failure
is in the database all the same: nothing is rolled back.
-/

namespace ArrowheadCore.DevRegistry
open Lib Lib.Sql Db Json

/-- The first column of the first row as a number, if it is not `NULL` (C++ `fetch(statement, long &)`). -/
def fetchLong (link : Link) (statement : List UInt8) : DbM (Option Int) := do
  let rows ← select link statement (.error .db)
  return rows.head?.bind (columns.int · 0)

/-- A value that is read from the payload; a failed assertion ends the process, and what is refused is given as `none`. -/
def reading {α : Type} : Except Stop α → DbM (Option α)
  | .ok a => pure (some a)
  | .error .refused => pure none
  | .error .undefined => throwExn .abort

/-- C++ `child` -/
def child (v : JsonValue) (key : String) : DbM JsonValue :=
  match v.child (bytes key) with
  | none => throwExn .abort
  | some node => pure node

namespace Register

/-- A member that has to be a non-empty string. -/
def name (device : JsonValue) (key : String) : DbM (List UInt8) := do
  let node ← child device key
  let s := node.toString.getD []
  if s = [] then throwExn (.runtimeError "x") else return s

/-- A member that has to be a string if it is set. -/
def optional (device : JsonValue) (key : String) : DbM (Option (List UInt8)) := do
  match ← reading (stringChild device key) with
  | none => throwExn (.runtimeError "x")
  | some s => return s

section
variable (link : Link)

def emptyToNull : Option (List UInt8) → List UInt8
  | none => bytes "NULL"
  | some data => link.escape data

/-- C++ `Register::findOrCreateDevice` -/
def findOrCreateDevice (device : JsonValue) : DbM Int := do
  let device_name ← name device "deviceName"
  let mac_address ← name device "macAddress"
  let address ← optional device "address"
  let auth_info ← optional device "authenticationInfo"
  let q := bytes "SELECT id FROM device WHERE device_name = " ++ (link.escape device_name ++
    (bytes " AND mac_address = " ++ link.escape mac_address))
  match ← fetchLong link q with
  | none =>
    let r := bytes "INSERT INTO device (device_name, mac_address, address, authentication_info) VALUES (" ++
      (link.escape device_name ++ (bytes ", " ++ (link.escape mac_address ++ (bytes ", " ++ (emptyToNull link address ++
      (bytes ", " ++ (emptyToNull link auth_info ++ bytes ")")))))))
    let id ← insert link r
    return id.getD 0
  | some id =>
    let r := bytes "UPDATE device SET address = " ++ (emptyToNull link address ++ (bytes ", authentication_info = " ++
      emptyToNull link auth_info))
    Db.query link r
    return id

/-- The loop over the members of the metadata. -/
def metadataLoop : List UInt8 → List (Option (List UInt8) × JsonValue) → Except Stop (List UInt8)
  | metadata, [] => .ok metadata
  | metadata, (key, value) :: nodes =>
    match value.toString with
    | none => .error .refused
    | some value =>
      match key with
      | none => .error .undefined
      | some key => metadataLoop (metadata ++ (bytes ", " ++ (cStr key ++ (bytes "=" ++ value)))) nodes

/-- The text of the metadata that is stored. -/
def metadata (meta_ : JsonValue) : Except Stop (List UInt8) := do return popTwice (← metadataLoop [] meta_.nodes)

/-- The statement that stores the entry. -/
def insertStatement (device_id : Int) (metadata : List UInt8) (version : Int) (endOfValidity : List UInt8) : List UInt8 :=
  if endOfValidity = [] then
    bytes "INSERT INTO device_registry (device_id, metadata, version) VALUES (" ++ (to_string device_id ++ (bytes ", " ++
      (link.escape metadata ++ (bytes ", " ++ (to_string version ++ bytes ")")))))
  else
    bytes "INSERT INTO device_registry (device_id, metadata, version, end_of_validity) VALUES (" ++
      (to_string device_id ++ (bytes ", " ++ (link.escape metadata ++ (bytes ", " ++ (to_string version ++ (bytes ", '" ++
      (endOfValidity ++ bytes "')")))))))

/-- The columns of the statement for the response. -/
def head : List UInt8 :=
  bytes "SELECT t2.id, t2.version, t2.created_at, t2.updated_at, t2.end_of_validity, " ++ deviceText

def responseStatement (device_id : Int) (id : Nat) : List UInt8 :=
  head ++ (bytes " WHERE t1.id = " ++ (to_string device_id ++ (bytes " AND t2.id = " ++ to_string id)))

open Responses in
/-- The members of an entry in the response. -/
def headers : List Header := [ID, Version, CreatedAt, UpdatedAt, EndOfValidity]

/-- The response for a new entry. -/
def respond (device_id : Int) (id : Nat) : DbM Reply := do
  match ← fetch link (responseStatement device_id id) with
  | [] => return .badRequest
  | row :: _ => return .content (str (writeEntry headers 5 row newBuilder))

/-- C++ `Register::process` behind `jsonParse`. -/
def process (root : JsonValue) : DbM Reply := do
  let device ← child root "device"
  match device with
  | .object _ =>
    let device_id ← findOrCreateDevice link device
    let meta_ ← child root "metadata"
    match ← reading (metadata meta_) with
    | none => return .badRequest
    | some metadata =>
      let version := (← child root "version").toInt.getD 1
      let endOfValidity := (← child root "endOfValidity").toString.getD []
      let id ← insert link (insertStatement link device_id metadata version endOfValidity)
      respond link device_id (id.getD 0)
  | _ => return .badRequest

/-- C++ `Register::handle`; the payload is what `jsonParse` makes of it. -/
def handle (jsonParse : List UInt8 → Option JsonValue) (content : List UInt8) : DbM Reply := fun s =>
  if content = [] then (.ok (.error 400 "BAD_PAYLOAD" "Invalid payload for request." "/register"), s)
  else
    match jsonParse content with
    | none => (.ok .badRequest, s)
    | some root =>
      match process link root s with
      | (.error .db, s) => (.ok (.error 500 "ARROWHEAD" "Database operation exception." "/register"), s)
      | (.error (.runtimeError _), s) => (.ok (.error 500 "GENERIC" "Unknow error." "/register"), s)
      | r => r

end

end Register

end ArrowheadCore.DevRegistry
