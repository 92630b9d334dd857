import ArrowheadCore.Json.Gason

/-!
# Parsers of the device registry

Embedding of `Parsers::Device` and `Parsers::DeviceRegistry` (`core/apps/DevRegistry/parsers`) with their models
(`core/apps/DevRegistry/models`). A C string that is not set is `none`.
-/

namespace ArrowheadCore.DevRegistry
open Lib Json

namespace Models

/-- C++ `Models::Device` -/
structure Device where
  dev_name : Option (List UInt8) := none
  mac_address : Option (List UInt8) := none
  address : Option (List UInt8) := none
  auth_info : Option (List UInt8) := none
deriving DecidableEq, Repr

/-- C++ `Models::Device::validate` -/
def Device.validate (device : Device) : Option String :=
  if device.dev_name = none then some "Device name must have value."
  else if device.mac_address = none then some "Device MAC address must have value."
  else if device.address = none then some "Device address must have value."
  else none

/-- C++ `Models::DeviceRegistry` -/
structure DeviceRegistry where
  device : Device
  end_of_validity : Option (List UInt8) := none
  version : Int := 1
  metadata : List UInt8 := []
deriving DecidableEq, Repr

def DeviceRegistry.validate (deviceRegistry : DeviceRegistry) : Option String := deviceRegistry.device.validate

end Models

/-- How the reading of a value ends without a result. -/
inductive Stop where
  /-- the code refuses the value -/
  | refused
  /-- a failed assertion, or behaviour that is not defined -/
  | undefined
deriving DecidableEq, Repr

def childOf (v : JsonValue) (key : String) : Except Stop JsonValue :=
  match v.child (bytes key) with
  | none => .error .undefined
  | some node => .ok node

/-- What a string is read from, if it is set. -/
def stringChild (v : JsonValue) (key : String) : Except Stop (Option (List UInt8)) := do
  let node ← childOf v key
  if !node.isSet then return none
  match node.toString with
  | none => .error .refused
  | some s => return some s

/-- C++ `pop_back` twice, if there is something -/
def popTwice (metadata : List UInt8) : List UInt8 := if metadata ≠ [] then metadata.dropLast.dropLast else metadata

namespace Parsers

/-- C++ `Parsers::Device` -/
def device (root : JsonValue) : Except Stop Models.Device := do
  let address ← stringChild root "address"
  let dev_name ← stringChild root "deviceName"
  let mac_address ← stringChild root "macAddress"
  let auth_info ← stringChild root "authenticationInfo"
  return { dev_name, mac_address, address, auth_info }

/-- The loop over the members of the metadata. -/
def metadataLoop : List UInt8 → List (Option (List UInt8) × JsonValue) → Except Stop (List UInt8)
  | metadata, [] => .ok metadata
  | metadata, (key, value) :: nodes =>
    match key, value.toString with
    | some key, some value => metadataLoop (metadata ++ (cStr key ++ (bytes "=" ++ (value ++ bytes ", ")))) nodes
    | _, _ => .error .undefined

/-- The text of the metadata. -/
def metadata (node : JsonValue) : Except Stop (List UInt8) :=
  match node with
  | .object _ => do return popTwice (← metadataLoop [] node.nodes)
  | _ => .error .refused

/-- C++ `Parsers::DeviceRegistry`; it is refused if the parser returns false. -/
def deviceRegistry (root : JsonValue) : Except Stop Models.DeviceRegistry := do
  let node ← childOf root "device"
  if !node.isSet then .error .refused
  let device ← Parsers.device node
  let node ← childOf root "version"
  let version ← if node.isSet then
      match node.toInt with
      | none => .error .refused
      | some z => .ok z
    else .ok 1
  let end_of_validity ← stringChild root "endOfValidity"
  let node ← childOf root "metadata"
  let metadata ← if node.isSet then Parsers.metadata node else .ok []
  return { device, end_of_validity, version, metadata }

end Parsers

end ArrowheadCore.DevRegistry
