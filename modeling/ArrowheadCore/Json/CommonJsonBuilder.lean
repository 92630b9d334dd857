import ArrowheadCore.Json.JsonBuilder
import ArrowheadCore.Json.Gason

/-!
# `CommonJsonBuilder` and the way from gason values to texts

Embedding of `CommonJsonBuilder` (`utils/common/CommonJsonBuilder.h`) and of
`CommonPayloads::convertGasonToCJB` (`utils/common/CommonPayloads.h`), which writes the members of a value
with a builder. No text is escaped. Of an array only the items before the first null one are written, the
array is looked up again by its name, and its items must be strings: `none` is a failed assertion, or a name
read from the nodes of an array, which have none.
-/

namespace ArrowheadCore.Json
open Lib

/-! ## Members -/

/-- C++ `addStr` -/
def addStr (key value : List UInt8) (o : Out) : Out :=
  o.put (nameText key ++ (bytes "\"" ++ (value ++ bytes "\",")))

/-- C++ `addInt` -/
def addInt (key : List UInt8) (value : Int) (o : Out) : Out := o.put (nameText key ++ (to_string value ++ bytes ","))

/-- C++ `addObj` -/
def addObj (key value : List UInt8) (o : Out) : Out := o.put (nameText key ++ (value ++ bytes ","))

/-- C++ `addNULL` -/
def addNULL (key : List UInt8) (o : Out) : Out := o.put (nameText key ++ bytes "null,")

/-- The loop of `to_arrayObj`. -/
def arrayLoop (items : List (List UInt8)) (o : Out) : Out := items.foldl (fun o x => (o.put x).put (bytes ",")) o

/-- C++ `to_arrayObj(key, first, last)` -/
def to_arrayObj (key : List UInt8) (items : List (List UInt8)) (o : Out) : Out :=
  let o := o.put (nameText key ++ bytes "[")
  let o := if items = [] then o else (arrayLoop items o).back
  o.put (bytes "],")

/-! ## `convertGasonToCJB` -/

mutual

/-- One turn of the loop: the value `v` of the member `key` of the object with the members `root`. -/
def convertValue (root : List (List UInt8 × JsonValue)) (key : List UInt8) (o : Out) : JsonValue → Option Out
  | .string s => some (addStr key (cStr s) o)
  | .number z => some (addInt key z o)
  | .array _ => do
    let v ← (JsonValue.object root).child key
    let items ← v.items.mapM JsonValue.toString
    some (to_arrayObj key (items.map fun s => bytes "\"" ++ (s ++ bytes "\"")) o)
  | .null => some (addObj key (bytes "null") o)
  | .true => some (addObj key (bytes "true") o)
  | .false => some (if key = bytes "authenticationInfo" then o else addObj key (bytes "false") o)
  | .object members => do
    let obj ← convertMembers members newBuilder members
    some (addObj key (str obj) o)

def convertMember (root : List (List UInt8 × JsonValue)) (o : Out) : List UInt8 × JsonValue → Option Out
  | (key, v) => convertValue root (cStr key) o v

def convertMembers (root : List (List UInt8 × JsonValue)) (o : Out) : List (List UInt8 × JsonValue) → Option Out
  | [] => some o
  | m :: ms => do
    let o ← convertMember root o m
    convertMembers root o ms

end

/-- C++ `convertGasonToCJB` -/
def convertGasonToCJB : JsonValue → Option Out
  | .object members => convertMembers members newBuilder members
  | .array (_ :: _) => none
  | _ => some newBuilder

end ArrowheadCore.Json
