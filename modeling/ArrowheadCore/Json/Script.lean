import ArrowheadCore.Json.Written

/-!
# Nested calls of `JsonBuilder`

A `Script` is what a program does with a builder (`utils/json/JsonBuilder.h`): its calls one behind the other, each with
what it does next, and the scripts of the callbacks of each call. Callbacks see the row cursors and may move them. `run`
is what the builder does: it writes to the stream and goes back by one byte where it closes something. `build` is what
is meant: the members of the object, in order. It has no value where the contract is left: an object without members, a
string that needs an escape, `SKIP`, and a `take_while` that takes nothing.

The fuel bounds the turns of every loop over rows.
-/

namespace ArrowheadCore.Json
open Lib JsonView

/-- The row cursors: nothing for an answer without rows, else the rows that are left, the current one first. -/
abbrev Cursors (ρ : Type) := Nat → Option (List ρ)

/-- What `operator<<` is given. -/
inductive Scalar where
  | text (s : List UInt8)
  | int (z : Int)
  | bool (b : Bool)
  | null
deriving DecidableEq, Repr

/-- What `to_array` is given: a `std::string`, another text, a number or a truth value. -/
inductive Item where
  | string (s : List UInt8)
  | chars (s : List UInt8)
  | int (z : Int)
  | bool (b : Bool)
deriving DecidableEq, Repr

/-- The text that a callback writes to the stream itself: a JSON value. -/
structure Written where
  text : List UInt8
  node : JsonNode
  denotes : Denotes text node

inductive HeaderType where
  | text | int | bool
deriving DecidableEq, Repr

/-- A member type: its `key`, the type of its `value`, and whether it has `is_null`. -/
structure Header where
  key : List UInt8
  type : HeaderType
  is_null : Bool
deriving DecidableEq, Repr

/-- C++ `row->get(i, val)` for the types that are used: nothing for `NULL`. -/
structure Columns (ρ : Type) where
  text : ρ → Nat → Option (List UInt8)
  int : ρ → Nat → Option Int

inductive Script (ρ : Type) where
  | done (resp : ControlResp)
  | write (key : List UInt8) (value : Scalar) (k : Script ρ)
  | to_array (key : List UInt8) (items : List Item) (k : Script ρ)
  | to_arrayFun (key : List UInt8) (items : List Written) (k : Script ρ)
  | to_arrayRow (key : List UInt8) (c : Nat) (f : Cursors ρ → Written) (k : Cursors ρ → Script ρ)
  | for_eachRange (key : List UInt8) (count : Nat) (f : Nat → Cursors ρ → Script ρ) (k : Cursors ρ → Script ρ)
  | for_eachRow (key : List UInt8) (c : Nat) (f : Cursors ρ → Script ρ) (k : Cursors ρ → Script ρ)
  | for_eachControl (key : List UInt8) (c : Nat) (f : Cursors ρ → Script ρ) (k : Cursors ρ → Script ρ)
  | take_while (key : List UInt8) (c : Nat) (p : Cursors ρ → Bool) (f : Cursors ρ → Script ρ)
    (k : ControlResp → Cursors ρ → Script ρ)
  | take_while_raw (key : List UInt8) (c : Nat) (p : Cursors ρ → Bool) (f : Cursors ρ → Written)
    (k : ControlResp → Cursors ρ → Script ρ)
  | write_dictionary_items (key : Option (List UInt8)) (headers : List Header) (c i : Nat) (k : Script ρ)

/-! ## The builder -/

/-- C++ `write` and `write_null` -/
def writeScalar (key : List UInt8) (o : Out) : Scalar → Out
  | .text s => o.put (nameText key ++ (bytes "\"" ++ (s ++ bytes "\",")))
  | .int z => o.put (nameText key ++ (to_string z ++ bytes ","))
  | .bool b => o.put (nameText key ++ ((if b then bytes "true" else bytes "false") ++ bytes ","))
  | .null => o.put (nameText key ++ bytes "null,")

/-- C++ `write_val` -/
def Item.write_val : Item → List UInt8
  | .string s => quoted s
  | .chars s => bytes "\"" ++ (s ++ bytes "\"")
  | .int z => to_string z
  | .bool b => if b then bytes "true" else bytes "false"

section
variable {ρ : Type}

/-- C++ `row->next()` -/
def advance (c : Nat) (rows : Cursors ρ) : Bool × Cursors ρ :=
  match rows c with
  | none => (false, rows)
  | some rs => ((next rs).1, Function.update rows c (some (next rs).2))

/-- What a part of a program does with the builder: its response, the cursors and the stream. -/
abbrev Action (ρ : Type) := Cursors ρ → Out → Option (ControlResp × Cursors ρ × Out)

/-- The loop of `for_each(key, first, last, f)`: the number of the elements that are left, and of the next one. -/
def rangeLoop (f : Nat → Action ρ) : Nat → Nat → Action ρ
  | 0, _, rows, o => some (.cont, rows, o)
  | n + 1, i, rows, o => do
    let (_, rows, o) ← f i rows (o.put (bytes "\x7b"))
    rangeLoop f n (i + 1) rows (o.back.put (bytes "\x7d,"))

/-- The loop of `for_each(key, row, f)` -/
def rowLoop (c : Nat) (f : Action ρ) : Nat → Action ρ
  | 0, _, _ => none
  | fuel + 1, rows, o => do
    let (_, rows, o) ← f rows (o.put (bytes "\x7b"))
    let o := o.back.put (bytes "\x7d,")
    let (more, rows) := advance c rows
    if more then rowLoop c f fuel rows o else some (.cont, rows, o)

/-- The loop of `for_each(key, row, f)` with a callback that controls it -/
def controlLoop (c : Nat) (f : Action ρ) : Nat → Action ρ
  | 0, _, _ => none
  | fuel + 1, rows, o => do
    let (res, rows, o) ← f rows (o.put (bytes "\x7b"))
    let o := o.back
    match res with
    | .use => controlLoop c f fuel rows (o.put (bytes "\x7d,"))
    | .last => some (.cont, rows, o.put (bytes "\x7d,"))
    | .cont =>
      let (more, rows) := advance c rows
      if more then controlLoop c f fuel rows (o.put (bytes "\x7d,")) else some (.cont, rows, o.put (bytes "\x7d,"))
    | .skip =>
      let (more, rows) := advance c rows
      if more then controlLoop c f fuel rows o else some (.cont, rows, o)

/-- The loop of `take_while` -/
def takeLoop (c : Nat) (p : Cursors ρ → Bool) (f : Action ρ) : Nat → Action ρ
  | 0, _, _ => none
  | fuel + 1, rows, o =>
    if !p rows then some (.use, rows, o)
    else do
      let (_, rows, o) ← f rows (o.put (bytes "\x7b"))
      let o := o.back.put (bytes "\x7d,")
      let (more, rows) := advance c rows
      if more then takeLoop c p f fuel rows o else some (.cont, rows, o)

/-- The loops of `take_while_raw` and, with a predicate that always holds, of `to_array(key, row, f)` -/
def rawLoop (c : Nat) (p : Cursors ρ → Bool) (f : Cursors ρ → Written) : Nat → Action ρ
  | 0, _, _ => none
  | fuel + 1, rows, o =>
    if !p rows then some (.use, rows, o)
    else
      let o := (o.put (f rows).text).put (bytes ",")
      let (more, rows) := advance c rows
      if more then rawLoop c p f fuel rows o else some (.cont, rows, o)

/-- What `write_dictionary_items` makes of a column. -/
def Header.value (columns : Columns ρ) (h : Header) (r : ρ) (i : Nat) : Scalar :=
  match h.type with
  | .text => if h.is_null && (columns.text r i).isNone then .null else .text ((columns.text r i).getD [])
  | .int => if h.is_null && (columns.int r i).isNone then .null else .int ((columns.int r i).getD 0)
  | .bool => if h.is_null && (columns.int r i).isNone then .null else .bool ((columns.int r i).getD 0 ≠ 0)

/-- The members for these headers and the columns from `i` on. -/
def dictionary (columns : Columns ρ) (r : ρ) : Nat → List Header → List (List UInt8 × Scalar)
  | _, [] => []
  | i, h :: hs => (h.key, h.value columns r i) :: dictionary columns r (i + 1) hs

def writeItems (o : Out) (items : List (List UInt8 × Scalar)) : Out := items.foldl (fun o m => writeScalar m.1 o m.2) o

/-- C++ `write_dictionary_items`: members of this object, or an object of its own. -/
def write_dictionary_items (columns : Columns ρ) (key : Option (List UInt8)) (headers : List Header) (r : ρ) (i : Nat) (o : Out) :
    Out :=
  match key with
  | none => writeItems o (dictionary columns r i headers)
  | some key =>
    let o := writeItems (o.put (nameText key ++ bytes "\x7b")) (dictionary columns r i headers)
    o.back.put (bytes "\x7d,")

/-- A list in brackets. Only if there is something to loop over a byte is overwritten in front of the closing one. -/
def bracketed (key : List UInt8) (empty : Bool) (loop : Action ρ) : Action ρ := fun rows o => do
  let o := o.put (nameText key ++ bytes "[")
  if empty then some (.cont, rows, o.put (bytes "],"))
  else
    let (res, rows, o) ← loop rows o
    some (res, rows, o.back.put (bytes "],"))

variable (columns : Columns ρ) (fuel : Nat)

/-- What a script does with the builder. -/
def run : Script ρ → Action ρ
  | .done resp, rows, o => some (resp, rows, o)
  | .write key value k, rows, o => run k rows (writeScalar key o value)
  | .to_array key items k, rows, o => run k rows (to_arrayObj key (items.map Item.write_val) o)
  | .to_arrayFun key items k, rows, o => run k rows (to_arrayObj key (items.map Written.text) o)
  | .to_arrayRow key c f k, rows, o => do
    let (_, rows, o) ← bracketed key (rows c).isNone (rawLoop c (fun _ => true) f fuel) rows o
    run (k rows) rows o
  | .for_eachRange key count f k, rows, o => do
    let (_, rows, o) ← bracketed key (count == 0) (rangeLoop (fun i rows o => run (f i rows) rows o) count 0) rows o
    run (k rows) rows o
  | .for_eachRow key c f k, rows, o => do
    let (_, rows, o) ← bracketed key (rows c).isNone (rowLoop c (fun rows o => run (f rows) rows o) fuel) rows o
    run (k rows) rows o
  | .for_eachControl key c f k, rows, o => do
    let (_, rows, o) ← bracketed key (rows c).isNone (controlLoop c (fun rows o => run (f rows) rows o) fuel) rows o
    run (k rows) rows o
  | .take_while key c p f k, rows, o => do
    let (res, rows, o) ← bracketed key (rows c).isNone (takeLoop c p (fun rows o => run (f rows) rows o) fuel) rows o
    run (k res rows) rows o
  | .take_while_raw key c p f k, rows, o => do
    let (res, rows, o) ← bracketed key (rows c).isNone (rawLoop c p f fuel) rows o
    run (k res rows) rows o
  | .write_dictionary_items key headers c i k, rows, o => do
    let r ← (rows c).bind List.head?
    run k rows (write_dictionary_items columns key headers r i o)

/-! ## What is meant -/

def Scalar.node : Scalar → JsonNode
  | .text s => .string s
  | .int z => numberNode z
  | .bool b => .bool b
  | .null => .null

def Scalar.plain : Scalar → Bool
  | .text s => decide (Clean s)
  | _ => true

def Item.node : Item → JsonNode
  | .string s => .string s
  | .chars s => .string s
  | .int z => numberNode z
  | .bool b => .bool b

def Item.plain : Item → Bool
  | .chars s => decide (Clean s)
  | _ => true

/-- A column that has a value, or whose member may be null. -/
def Header.given (h : Header) (r : ρ) (i : Nat) : Bool :=
  h.is_null || match h.type with
    | .text => true
    | _ => (columns.int r i).isSome

def allGiven (r : ρ) : Nat → List Header → Bool
  | _, [] => true
  | i, h :: hs => h.given columns r i && allGiven r (i + 1) hs

/-- The members of an object, or the items of an array. -/
abbrev Meaning (ρ : Type) (τ : Type) := Cursors ρ → Option (ControlResp × Cursors ρ × List τ)

abbrev Member := List UInt8 × JsonNode

/-- The object with these members, if there are any. -/
def objectOf (ms : List Member) : Option JsonNode := if ms = [] then none else some (.object ms)

/-- The objects of a loop over a range. -/
def rangeObjects (f : Nat → Meaning ρ Member) : Nat → Nat → Meaning ρ JsonNode
  | 0, _, rows => some (.cont, rows, [])
  | n + 1, i, rows => do
    let (_, rows, ms) ← f i rows
    let v ← objectOf ms
    let (res, rows, vs) ← rangeObjects f n (i + 1) rows
    some (res, rows, v :: vs)

/-- One object for every row on which the callback is called. -/
def rowObjects (c : Nat) (f : Meaning ρ Member) : Nat → Meaning ρ JsonNode
  | 0, _ => none
  | fuel + 1, rows => do
    let (_, rows, ms) ← f rows
    let v ← objectOf ms
    let (more, rows) := advance c rows
    if more then
      let (res, rows, vs) ← rowObjects c f fuel rows
      some (res, rows, v :: vs)
    else some (.cont, rows, [v])

/-- One object for every call: the next one is on the same row, on the next row, or there is none. -/
def controlObjects (c : Nat) (f : Meaning ρ Member) : Nat → Meaning ρ JsonNode
  | 0, _ => none
  | fuel + 1, rows => do
    let (res, rows, ms) ← f rows
    let v ← objectOf ms
    match res with
    | .use =>
      let (res, rows, vs) ← controlObjects c f fuel rows
      some (res, rows, v :: vs)
    | .cont =>
      let (more, rows) := advance c rows
      if more then
        let (res, rows, vs) ← controlObjects c f fuel rows
        some (res, rows, v :: vs)
      else some (.cont, rows, [v])
    | .last => some (.cont, rows, [v])
    | .skip => none

/-- One object for every row up to one that is not taken. -/
def takeObjects (c : Nat) (p : Cursors ρ → Bool) (f : Meaning ρ Member) : Nat → Meaning ρ JsonNode
  | 0, _ => none
  | fuel + 1, rows =>
    if !p rows then some (.use, rows, [])
    else do
      let (_, rows, ms) ← f rows
      let v ← objectOf ms
      let (more, rows) := advance c rows
      if more then
        let (res, rows, vs) ← takeObjects c p f fuel rows
        some (res, rows, v :: vs)
      else some (.cont, rows, [v])

/-- One value for every row up to one that is not taken. -/
def rawValues (c : Nat) (p : Cursors ρ → Bool) (f : Cursors ρ → Written) : Nat → Meaning ρ JsonNode
  | 0, _ => none
  | fuel + 1, rows =>
    if !p rows then some (.use, rows, [])
    else do
      let v := (f rows).node
      let (more, rows) := advance c rows
      if more then
        let (res, rows, vs) ← rawValues c p f fuel rows
        some (res, rows, v :: vs)
      else some (.cont, rows, [v])

/-- An array: nothing to loop over, or what the loop gives, which has to be something. -/
def listed (empty : Bool) (loop : Meaning ρ JsonNode) : Meaning ρ JsonNode := fun rows =>
  if empty then some (.cont, rows, [])
  else do
    let (res, rows, vs) ← loop rows
    if vs.isEmpty then none else some (res, rows, vs)

/-- A member in front of what is meant by the rest. -/
def andThen (key : List UInt8) (v : JsonNode) (rest : Option (ControlResp × Cursors ρ × List Member)) :
    Option (ControlResp × Cursors ρ × List Member) := do
  let (resp, rows, ms) ← rest
  if Clean key then some (resp, rows, (key, v) :: ms) else none

/-- The members of `write_dictionary_items`. -/
def dictionaryMembers (key : Option (List UInt8)) (headers : List Header) (r : ρ) (i : Nat) : Option (List Member) :=
  let items := dictionary columns r i headers
  if allGiven columns r i headers ∧ (∀ m ∈ items, Clean m.1 ∧ m.2.plain) then
    let members : List Member := items.map fun m => (m.1, m.2.node)
    match key with
    | none => some members
    | some key => do
      let v ← objectOf members
      if Clean key then some [(key, v)] else none
  else none

/-- The members that a script is to write. -/
def build : Script ρ → Meaning ρ Member
  | .done resp, rows => some (resp, rows, [])
  | .write key value k, rows => if value.plain then andThen key value.node (build k rows) else none
  | .to_array key items k, rows =>
    if items.all Item.plain then andThen key (.array (items.map Item.node)) (build k rows) else none
  | .to_arrayFun key items k, rows => andThen key (.array (items.map Written.node)) (build k rows)
  | .to_arrayRow key c f k, rows => do
    let (_, rows, vs) ← listed (rows c).isNone (rawValues c (fun _ => true) f fuel) rows
    andThen key (.array vs) (build (k rows) rows)
  | .for_eachRange key count f k, rows => do
    let (_, rows, vs) ← listed (count == 0) (rangeObjects (fun i rows => build (f i rows) rows) count 0) rows
    andThen key (.array vs) (build (k rows) rows)
  | .for_eachRow key c f k, rows => do
    let (_, rows, vs) ← listed (rows c).isNone (rowObjects c (fun rows => build (f rows) rows) fuel) rows
    andThen key (.array vs) (build (k rows) rows)
  | .for_eachControl key c f k, rows => do
    let (_, rows, vs) ← listed (rows c).isNone (controlObjects c (fun rows => build (f rows) rows) fuel) rows
    andThen key (.array vs) (build (k rows) rows)
  | .take_while key c p f k, rows => do
    let (res, rows, vs) ← listed (rows c).isNone (takeObjects c p (fun rows => build (f rows) rows) fuel) rows
    andThen key (.array vs) (build (k res rows) rows)
  | .take_while_raw key c p f k, rows => do
    let (res, rows, vs) ← listed (rows c).isNone (rawValues c p f fuel) rows
    andThen key (.array vs) (build (k res rows) rows)
  | .write_dictionary_items key headers c i k, rows => do
    let r ← (rows c).bind List.head?
    let written ← dictionaryMembers columns key headers r i
    let (resp, rows, ms) ← build k rows
    some (resp, rows, written ++ ms)

end

end ArrowheadCore.Json
