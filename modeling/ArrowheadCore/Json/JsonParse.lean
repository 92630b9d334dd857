import ArrowheadCore.Json.Gason
import ArrowheadCore.Lib.Ring

/-!
# The parser of gason

Embedding of `gason::jsonParse` (`inc/gason/gason.cpp`). The parser works in the buffer that the text is in: it ends every string with a NUL and writes what an escape stands for over the escape. A pointer into the
text is a position in the buffer, a node has an address in the heap, and the lists of arrays and objects are rings
until their bracket is closed. A read or write outside of the buffer gives `none`, and so does a read of `tags[pos]` and the
like at `pos == -1`. A number is kept as its text: the conversion to `double` is not modelled.
-/

namespace ArrowheadCore.Json.Gason
open Lib

inductive JsonParseStatus where
  | OK | BAD_NUMBER | BAD_STRING | BAD_IDENTIFIER | STACK_OVERFLOW | STACK_UNDERFLOW | MISMATCH_BRACKET
  | UNEXPECTED_CHARACTER | UNQUOTED_KEY | BREAKING_BAD
deriving DecidableEq, Repr

/-- The tags of the values that have nodes. -/
inductive JsonTag where
  | array | object
deriving DecidableEq, Repr

/-- C++ `JsonValue`: a tag and, for strings and nodes, a pointer. -/
inductive Cell where
  | null | true | false
  | number (text : List UInt8)
  | string (s : Nat)
  | nodes (tag : JsonTag) (head : Option Nat)
deriving DecidableEq, Repr

structure Content where
  value : Cell
  key : Option Nat
deriving DecidableEq, Repr

abbrev JsonNode := Ring.Node Content

abbrev Heap := Ring.Heap Content

def isdelim (c : UInt8) : Bool :=
  c = ','.toUInt8 || c = ':'.toUInt8 || c = ']'.toUInt8 || c = '}'.toUInt8 || isspace c || c = 0

def isdigit (c : UInt8) : Bool := isDigitOf 10 c

def isxdigit (c : UInt8) : Bool := isDigitOf 16 c

/-! ## Tokens -/

/-- The first position from `s` on with another byte. -/
def skip (f : UInt8 → Bool) (buf : List UInt8) (s : Nat) : Option Nat :=
  match (buf.drop s).dropWhile f with
  | [] => none
  | rest => some (buf.length - rest.length)

/-- `*it++ = c` for each of these bytes. -/
def write (buf : List UInt8) (it : Nat) : List UInt8 → Option (List UInt8)
  | [] => some buf
  | c :: cs => if it < buf.length then write (buf.set it c) (it + 1) cs else none

/-- What the parser has found: a token, the buffer and the next position; else a status and the position of it. -/
abbrev Found := Option (Except (JsonParseStatus × Nat) (Cell × List UInt8 × Nat))

/-- Behind a fraction, if there is one. -/
def skipFraction (buf : List UInt8) (s : Nat) : Option Nat := do
  let c ← buf[s]?
  if c = '.'.toUInt8 then skip isdigit buf (s + 1) else some s

/-- Behind an exponent, if there is one. -/
def skipExponent (buf : List UInt8) (s : Nat) : Option Nat := do
  let c ← buf[s]?
  if c = 'e'.toUInt8 ∨ c = 'E'.toUInt8 then
    let sign ← buf[s + 1]?
    skip isdigit buf (if sign = '+'.toUInt8 ∨ sign = '-'.toUInt8 then s + 2 else s + 1)
  else some s

/-- Where the number ends that begins at `s`. -/
def string2double (buf : List UInt8) (s : Nat) : Option Nat := do
  let ch ← buf[s]?
  let s ← skip isdigit buf (if ch = '-'.toUInt8 then s + 1 else s)
  let s ← skipFraction buf s
  skipExponent buf s

def numberAt (buf : List UInt8) (endptr : Nat) : Found := do
  let s ← string2double buf endptr
  if !isdelim (← buf[s]?) then return .error (.BAD_NUMBER, s)
  return .ok (.number ((buf.take s).drop endptr), buf, s)

/-- What a backslash and this letter stand for. -/
def escaped (c : UInt8) : Option UInt8 :=
  if c = '\\'.toUInt8 ∨ c = '"'.toUInt8 ∨ c = '/'.toUInt8 then some c
  else if c = 'b'.toUInt8 then some 8
  else if c = 'f'.toUInt8 then some 12
  else if c = 'n'.toUInt8 then some 10
  else if c = 'r'.toUInt8 then some 13
  else if c = 't'.toUInt8 then some 9
  else none

/-- The bytes that are written for the digits behind `\u`. -/
def utf8 (c : Nat) : List UInt8 :=
  if c < 0x80 then [UInt8.ofNat c]
  else if c < 0x800 then [UInt8.ofNat (0xC0 ||| c >>> 6), UInt8.ofNat (0x80 ||| c &&& 0x3F)]
  else [UInt8.ofNat (0xE0 ||| c >>> 12), UInt8.ofNat (0x80 ||| c >>> 6 &&& 0x3F), UInt8.ofNat (0x80 ||| c &&& 0x3F)]

/-- Four digits behind `s`; else the position of what is none. -/
def hexLoop (buf : List UInt8) : Nat → Nat → List UInt8 → Option (Except Nat (List UInt8 × Nat))
  | 0, s, ds => some (.ok (ds, s))
  | n + 1, s, ds => do
    let c ← buf[s + 1]?
    if isxdigit c then hexLoop buf n (s + 1) (ds ++ [c]) else return .error (s + 1)

/-- The loop over a string: the buffer and where the loop ends. -/
def stringLoop : Nat → List UInt8 → Nat → Nat → Option (Except Nat (List UInt8 × Nat))
  | 0, _, _, _ => none
  | n + 1, buf, it, s => do
    let c ← buf[s]?
    if c = 0 then return .ok (buf, s)
    let buf ← write buf it [c]
    if c = '\\'.toUInt8 then
      let d ← buf[s + 1]?
      match escaped d with
      | some e =>
        let buf ← write buf it [e]
        stringLoop n buf (it + 1) (s + 2)
      | none =>
        if d ≠ 'u'.toUInt8 then return .error (s + 1)
        match ← hexLoop buf 4 (s + 1) [] with
        | .error s => return .error s
        | .ok (ds, s) =>
          let buf ← write buf it (utf8 (number 16 ds))
          stringLoop n buf (it + (utf8 (number 16 ds)).length) (s + 1)
    else if c < ' '.toUInt8 ∨ c = 0x7F then return .error s
    else if c = '"'.toUInt8 then
      let buf ← write buf it [0]
      return .ok (buf, s + 1)
    else stringLoop n buf (it + 1) (s + 1)

def stringAt (buf : List UInt8) (s : Nat) : Found := do
  match ← stringLoop buf.length buf s s with
  | .error s => return .error (.BAD_STRING, s)
  | .ok (buf, end_) =>
    if !isdelim (← buf[end_]?) then return .error (.BAD_STRING, end_)
    return .ok (.string s, buf, end_)

/-- Whether these bytes stand there, with a delimiter behind them. -/
def identifier (buf : List UInt8) (s : Nat) : List UInt8 → Option Bool
  | [] => do return isdelim (← buf[s]?)
  | c :: cs => do if (← buf[s]?) = c then identifier buf (s + 1) cs else return Bool.false

/-- `true`, `false` or `null` behind its first letter, which gives a value and moves on by `n`. -/
def identifierAt (buf : List UInt8) (endptr : Nat) (name : List UInt8) (o : Cell) (n : Nat) : Found := do
  if !(← identifier buf (endptr + 1) name) then return .error (.BAD_IDENTIFIER, endptr)
  return .ok (o, buf, endptr + 1 + n)

/-! ## The stack -/

/-- `tags[pos]`, `keys[pos]` and `tails[pos]`. -/
structure Frame where
  tag : JsonTag
  key : Option Nat
  tail : Option Nat
deriving DecidableEq, Repr

/-- The variables of `jsonParse`; the frames up to `pos`, the last one first. -/
structure State where
  buf : List UInt8
  s : Nat
  endptr : Nat
  heap : Heap
  frames : List Frame
  separator : Bool
deriving Repr

def JSON_STACK_SIZE : Nat := 32

/-- What a turn of the loop ends in. -/
inductive Turn (σ ρ : Type) where
  | next (st : σ)
  | stop (status : JsonParseStatus) (result : ρ)

/-- A turn that returns has no value unless the status is `OK`. -/
abbrev Step := Option (Turn State (State × Option Cell))

def fails (status : JsonParseStatus) (st : State) : Step := some (.stop status (st, none))

/-- A new node behind the last one. -/
def insert (heap : Heap) (tail : Option Nat) (content : Content) : Option (Option Nat × Heap) := do
  let node := heap.length
  let heap ← Ring.insertAfter (heap ++ [⟨content, none⟩]) tail node
  return (some node, heap)

/-- What follows the `switch` when there is a value. -/
def assign (o : Cell) (st : State) : Step := do
  let st := { st with separator := Bool.false }
  match st.frames with
  | [] => return .stop .OK ({ st with endptr := st.s }, some o)
  | f :: frames =>
    match f.tag, f.key, o with
    | .object, none, .string s => return .next { st with frames := { f with key := some s } :: frames }
    | .object, none, _ => fails .UNQUOTED_KEY st
    | .object, some k, _ =>
      let (tail, heap) ← insert st.heap f.tail ⟨o, some k⟩
      return .next { st with heap, frames := { f with key := none, tail } :: frames }
    | .array, _, _ =>
      let (tail, heap) ← insert st.heap f.tail ⟨o, none⟩
      return .next { st with heap, frames := { f with tail } :: frames }

/-- C++ `case '[':` and `case '{':` -/
def open_ (tag : JsonTag) (st : State) : Step :=
  if st.frames.length = JSON_STACK_SIZE then fails .STACK_OVERFLOW st
  else some (.next { st with frames := ⟨tag, none, none⟩ :: st.frames, separator := Bool.true })

/-- C++ `case ']':` and `case '}':` -/
def close (tag : JsonTag) (st : State) : Step :=
  match st.frames with
  | [] => fails .STACK_UNDERFLOW st
  | f :: frames =>
    if f.tag ≠ tag then fails .MISMATCH_BRACKET st
    else if f.tag = .object ∧ f.key ≠ none then fails .UNEXPECTED_CHARACTER st
    else do
      let (head, heap) ← Ring.cut st.heap f.tail
      assign (.nodes tag head) { st with heap, frames }

/-- C++ `case ':':` and `case ',':`; the first one needs a key, the second one none. -/
def separate (keyed : Bool) (st : State) : Step :=
  if st.separator then fails .UNEXPECTED_CHARACTER st
  else
    match st.frames with
    | [] => none
    | f :: _ =>
      if f.key.isSome ≠ keyed then fails .UNEXPECTED_CHARACTER st
      else some (.next { st with separator := Bool.true })

/-- A value, if there is one. -/
def found (st : State) (r : Found) : Step := do
  match ← r with
  | .error (status, s) => fails status { st with endptr := s }
  | .ok (o, buf, s) => assign o { st with buf, s }

/-- One turn of the loop. -/
def turn (st : State) : Step := do
  if (← st.buf[st.s]?) = 0 then fails .BREAKING_BAD st
  else
    let endptr ← skip isspace st.buf st.s
    let c ← st.buf[endptr]?
    let st := { st with endptr, s := endptr + 1 }
    if c = '-'.toUInt8 then
      let d ← st.buf[st.s]?
      if !isdigit d && d ≠ '.'.toUInt8 then fails .BAD_NUMBER { st with endptr := st.s }
      else found st (numberAt st.buf endptr)
    else if isdigit c then found st (numberAt st.buf endptr)
    else if c = '"'.toUInt8 then found st (stringAt st.buf st.s)
    else if c = 't'.toUInt8 then found st (identifierAt st.buf endptr (bytes "rue") .true 3)
    else if c = 'f'.toUInt8 then found st (identifierAt st.buf endptr (bytes "alse") .false 4)
    else if c = 'n'.toUInt8 then found st (identifierAt st.buf endptr (bytes "ull") .false 4)
    else if c = ']'.toUInt8 then close .array st
    else if c = '}'.toUInt8 then close .object st
    else if c = '['.toUInt8 then open_ .array st
    else if c = '{'.toUInt8 then open_ .object st
    else if c = ':'.toUInt8 then separate Bool.true st
    else if c = ','.toUInt8 then separate Bool.false st
    else if c = 0 then return .next st
    else fails .UNEXPECTED_CHARACTER st

/-- Turn after turn, until one returns. -/
def run {σ ρ : Type} (turn : σ → Option (Turn σ ρ)) : Nat → σ → Option (JsonParseStatus × ρ)
  | 0, _ => none
  | n + 1, st => do
    match ← turn st with
    | .next st => run turn n st
    | .stop status r => return (status, r)

def start (text : List UInt8) : State := ⟨text ++ [0], 0, 0, [], [], Bool.true⟩

/-- C++ `jsonParse`; no turn goes back in the text. -/
def jsonParse (text : List UInt8) : Option (JsonParseStatus × State × Option Cell) := run turn (text.length + 1) (start text)

example : (jsonParse (bytes "\x7b\"a\" : [1, tru]\x7d")).map Prod.fst = some .BAD_IDENTIFIER ∧
    (jsonParse (bytes " [\"\\u00e9\", null, \x7b\x7d ]")).map (fun r => (r.1, r.2.1.endptr)) = some (.OK, 22) := by
  decide +kernel

end ArrowheadCore.Json.Gason
