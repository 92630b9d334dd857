import ArrowheadCore.Json.Dump

/-!
# `JsonCView`

Embedding of `JsonCView` (`utils/json/JsonCView.h`), which has the text of `JsonView` but for `slice`: a member name is
ended by a terminator that is written over its closing quote, and is a pointer into the buffer. Here the parser has
its buffer with it, names are places in the buffer, and `expect` can throw: it makes a string of the buffer, which ends
at the first terminator in it, and takes the part of that string from the cursor on.

`inPlace` is whether `slice` writes. So `JsonView` is the other instance, with the exceptions it might throw.
-/

namespace ArrowheadCore.Json.JsonCView
open Lib JsonView

/-- The place of a member name. -/
structure Key where
  start : Nat
  len : Nat
deriving DecidableEq, Repr

inductive Node where
  | null
  | bool (b : Bool)
  | int (z : Int)
  | double (literal : List UInt8)
  | string (s : List UInt8)
  | array (items : List Node)
  | object (members : List (Key × Node))

structure Parser where
  str : List UInt8
  here : JsonParser := {}

namespace Parser

def failed (p : Parser) : Bool := p.here.failed

def fail (p : Parser) (msg : List UInt8) : Parser := { p with here := p.here.fail msg }

def forth (p : Parser) (n : Nat) : Parser := { p with here := p.here.forth n }

def back (p : Parser) : Parser := { p with here := p.here.back }

end Parser

/-- The exceptions of the parsers. -/
inductive Exn where
  | out_of_range
  | runtime_error (what : List UInt8)
deriving DecidableEq, Repr

abbrev Result := Option (Except Exn (Node × Parser))

section
variable (inPlace : Bool) (strategy : ParseMethod)

def get_next_token (p : Parser) : Option (UInt8 × Parser) :=
  (JsonView.get_next_token p.str strategy p.here).map fun r => (r.1, { p with here := r.2 })

/-- C++ `slice` -/
def slice (p : Parser) (start len : Nat) : Key × Parser :=
  (⟨start, len⟩, if inPlace then { p with str := p.str.set (start + len) 0 } else p)

def parse_key (p : Parser) : Key × Parser :=
  let start := p.here.i
  let (ok, q) := keyLoop (p.str.drop start) p.here
  if ok then slice inPlace { p with here := q } start (q.i - start - 1)
  else slice inPlace { p with here := q } start 0

def parse_string (p : Parser) : List UInt8 × Parser :=
  let (s, q) := JsonView.parse_string p.str p.here
  (s, { p with here := q })

/-- A number, or nothing behind a failure. -/
def parse_number (p : Parser) : Node × Parser :=
  let (v, q) := JsonView.parse_number p.str p.here
  let node : Node :=
    match v with
    | .int z => .int z
    | .double literal => .double literal
    | _ => .null
  (node, { p with here := q })

def expect (expected : String) (res : Node) (p : Parser) : Except Exn (Node × Parser) :=
  let p := p.back
  if (bytes expected).isPrefixOf (p.str.drop p.here.i) then .ok (res, p.forth expected.length)
  else if (cStr p.str).length < p.here.i then .error .out_of_range
  else .ok (.null, p.fail (bytes "Expected " ++ (bytes expected ++ (bytes ", got " ++
    ((cStr p.str).drop p.here.i).take expected.length))))

/-- The loop over the members of an object. -/
def objectLoop (parse : Parser → Result) : Nat → UInt8 → List (Key × Node) → Parser → Result
  | 0, _, _, _ => none
  | fuel + 1, ch, data, p => do
    if ch ≠ '"'.toUInt8 then
      some (.ok (.null, p.fail (bytes "Expected '\"' in object, got " ++ (esc ch ++ bytes "."))))
    else
      let (key, p) := parse_key inPlace p
      if p.failed then some (.ok (.null, p))
      else
        let (ch, p) ← get_next_token strategy p
        if ch ≠ ':'.toUInt8 then
          some (.ok (.null, p.fail (bytes "Expected ':' in object, got " ++ (esc ch ++ bytes "."))))
        else
          match ← parse p with
          | .error e => some (.error e)
          | .ok (val, p) =>
            if p.failed then some (.ok (.null, p))
            else
              let data := data ++ [(key, val)]
              let (ch, p) ← get_next_token strategy p
              if ch = '}'.toUInt8 then some (.ok (.object data, p))
              else if ch ≠ ','.toUInt8 then
                some (.ok (.null, p.fail (bytes "Expected ',' in object, got " ++ (esc ch ++ bytes "."))))
              else
                let (ch, p) ← get_next_token strategy p
                objectLoop parse fuel ch data p

/-- The loop over the items of an array. -/
def arrayLoop (parse : Parser → Result) : Nat → List Node → Parser → Result
  | 0, _, _ => none
  | fuel + 1, data, p => do
    match ← parse p.back with
    | .error e => some (.error e)
    | .ok (val, p) =>
      let data := data ++ [val]
      if p.failed then some (.ok (.null, p))
      else
        let (ch, p) ← get_next_token strategy p
        if ch = ']'.toUInt8 then some (.ok (.array data, p))
        else if ch ≠ ','.toUInt8 then
          some (.ok (.null, p.fail (bytes "Expected ',' in list, got " ++ (esc ch ++ bytes "."))))
        else
          let (_, p) ← get_next_token strategy p
          arrayLoop parse fuel data p

/-- The part of `parse_json` behind the first token. -/
def parse_value (parse : Parser → Result) (ch : UInt8) (p : Parser) : Result := do
  if ch = '-'.toUInt8 ∨ isDigit ch then some (.ok (parse_number p.back))
  else if ch = 't'.toUInt8 then some (expect "true" (.bool true) p)
  else if ch = 'f'.toUInt8 then some (expect "false" (.bool false) p)
  else if ch = 'n'.toUInt8 then some (expect "null" .null p)
  else if ch = '"'.toUInt8 then
    let (s, p) := parse_string p
    some (.ok (.string s, p))
  else if ch = '{'.toUInt8 then
    let (ch, p) ← get_next_token strategy p
    if ch = '}'.toUInt8 then some (.ok (.object [], p))
    else objectLoop inPlace strategy parse (p.str.length + 1) ch [] p
  else if ch = '['.toUInt8 then
    let (ch, p) ← get_next_token strategy p
    if ch = ']'.toUInt8 then some (.ok (.array [], p))
    else arrayLoop strategy parse (p.str.length + 1) [] p
  else some (.ok (.null, p.fail (bytes "Expected value, got " ++ (esc ch ++ bytes "."))))

/-- C++ `parse_json(depth)` with `max_depth + 1 - depth` levels left -/
def parse_json : Nat → Parser → Result
  | 0, p => some (.ok (.null, p.fail (bytes "Exceeded maximum nesting depth.")))
  | levels + 1, p => do
    let (ch, p) ← get_next_token strategy p
    if p.failed then some (.ok (.null, p)) else parse_value inPlace strategy (parse_json levels) ch p

/-- C++ `JsonParser::parse` -/
def parse (text : List UInt8) : Result := do
  match ← parse_json inPlace strategy (max_depth + 1) { str := text } with
  | .error e => some (.error e)
  | .ok (res, p) =>
    let q ← consume_garbage p.str strategy p.here
    some (.ok (res, { p with here := q }))

/-- The tree and the buffer that its names are in, or the exception. -/
def parse_throw_on_error (text : List UInt8) : Option (Except Exn (Node × List UInt8)) := do
  match ← parse inPlace strategy text with
  | .error e => some (.error e)
  | .ok (result, p) =>
    match p.here.err with
    | some what => some (.error (.runtime_error what))
    | none =>
      if p.here.i ≠ p.str.length then some (.error (.runtime_error (bytes "Unexpected trailing.")))
      else some (.ok (result, p.str))

end

/-! ## Trees -/

section
variable (inPlace : Bool) (str : List UInt8)

/-- A name in the buffer: a C string, or as many characters as it has. -/
def Key.read (k : Key) : List UInt8 := if inPlace then cStr (str.drop k.start) else (str.drop k.start).take k.len

mutual

/-- The tree with its names. -/
def Node.read : Node → JsonNode
  | .null => .null
  | .bool b => .bool b
  | .int z => .int z
  | .double literal => .double literal
  | .string s => .string s
  | .array items => .array (readItems items)
  | .object members => .object (readMembers members)

def Node.readItems : List Node → List JsonNode
  | [] => []
  | v :: vs => v.read :: readItems vs

def Node.readMembers : List (Key × Node) → List (List UInt8 × JsonNode)
  | [] => []
  | m :: ms => readMember m :: readMembers ms

def Node.readMember : Key × Node → List UInt8 × JsonNode
  | (k, v) => (k.read inPlace str, v.read)

end

variable (format : List UInt8 → List UInt8)

mutual

/-- C++ `dump` -/
def dump : Node → List UInt8
  | .null => bytes "null"
  | .bool b => if b then bytes "true" else bytes "false"
  | .int z => to_string z
  | .double literal => format literal
  | .string s => quoted s
  | .array items => bytes "[" ++ (dumpItems true items ++ bytes "]")
  | .object members => bytes "\x7b" ++ (dumpMembers true members ++ bytes "\x7d")

def dumpItems (first : Bool) : List Node → List UInt8
  | [] => []
  | v :: vs => (if first then [] else bytes ", ") ++ (dump v ++ dumpItems false vs)

def dumpMembers (first : Bool) : List (Key × Node) → List UInt8
  | [] => []
  | m :: ms => (if first then [] else bytes ", ") ++ (dumpMember m ++ dumpMembers false ms)

def dumpMember : Key × Node → List UInt8
  | (k, v) => bytes "\"" ++ (k.read inPlace str ++ (bytes "\":" ++ dump v))

end

mutual

/-- What is dumped is the tree with its names. -/
lemma dump_read : ∀ v : Node, dump inPlace str format v = JsonView.dump format (v.read inPlace str)
  | .null => rfl
  | .bool _ => rfl
  | .int _ => rfl
  | .double _ => rfl
  | .string _ => rfl
  | .array items => by rw [dump, Node.read, JsonView.dump, dumpItems_read]
  | .object members => by rw [dump, Node.read, JsonView.dump, dumpMembers_read]

lemma dumpItems_read (first : Bool) : ∀ vs : List Node,
    dumpItems inPlace str format first vs = JsonView.dumpItems format first (Node.readItems inPlace str vs)
  | [] => rfl
  | v :: vs => by rw [dumpItems, Node.readItems, JsonView.dumpItems, dump_read v, dumpItems_read false vs]

lemma dumpMembers_read (first : Bool) : ∀ ms : List (Key × Node),
    dumpMembers inPlace str format first ms = JsonView.dumpMembers format first (Node.readMembers inPlace str ms)
  | [] => rfl
  | m :: ms => by rw [dumpMembers, Node.readMembers, JsonView.dumpMembers, dumpMember_read m, dumpMembers_read false ms]

lemma dumpMember_read : ∀ m : Key × Node,
    dumpMember inPlace str format m = JsonView.dumpMember format (Node.readMember inPlace str m)
  | (k, v) => by rw [dumpMember, Node.readMember, JsonView.dumpMember, dump_read v]

end

end

end ArrowheadCore.Json.JsonCView
