import ArrowheadCore.Lib.CString

/-!
# JSON values of gason

Embedding of `gason::JsonValue` (`inc/gason/gason.h`) as the tree that `jsonParse` builds. A number is kept
as the `int` that `toInt` makes of it, which is all that is read of numbers. An accessor that asserts a type
gives `none` when the assertion fails, and so does the search for a key in the nodes of an array, which have
none.
-/

namespace ArrowheadCore.Json
open Lib

inductive JsonValue where
  | null
  | true
  | false
  | number (toInt : Int)
  | string (s : List UInt8)
  | array (items : List JsonValue)
  | object (members : List (List UInt8 × JsonValue))

namespace JsonValue

/-- C++ `operator bool` -/
def isSet : JsonValue → Bool
  | .null => Bool.false
  | _ => Bool.true

/-- C++ `isString` -/
def isString : JsonValue → Bool
  | .string _ => Bool.true
  | _ => Bool.false

/-- C++ `toInt` -/
def toInt : JsonValue → Option Int
  | .number z => some z
  | _ => none

/-- C++ `toString`, as the `std::string` that is made of it -/
def toString : JsonValue → Option (List UInt8)
  | .string s => some (cStr s)
  | _ => none

/-- The first member whose name begins with `key`, else null (C++ `child`, which compares with
    `strncmp(it->key, key, strlen(key))`). -/
def child (v : JsonValue) (key : List UInt8) : Option JsonValue :=
  match v with
  | .object members => some ((members.find? fun m => key.isPrefixOf m.1).elim .null Prod.snd)
  | .array (_ :: _) => none
  | _ => some .null

/-- The item at an index, else null (C++ `at` and `operator[]`). -/
def itemAt (v : JsonValue) (i : Nat) : JsonValue :=
  match v with
  | .array items => items.getD i .null
  | _ => .null

/-- The nodes of a value with their names (C++ `begin` and `end`); those of an array have none. -/
def nodes : JsonValue → List (Option (List UInt8) × JsonValue)
  | .object members => members.map fun m => (some m.1, m.2)
  | .array items => items.map fun v => (none, v)
  | _ => []

/-- The items before the first null one: what a loop sees that runs while `v[i]` is set. -/
def items (v : JsonValue) : List JsonValue :=
  match v with
  | .array items => items.takeWhile isSet
  | _ => []

end JsonValue

end ArrowheadCore.Json
