import ArrowheadCore.Lib.CString

/-!
# `JsonView`

Embedding of `JsonView::JsonParser` (`utils/json/JsonView.h`). The text is the one in front of the
terminator; `char` reads the terminator at its end. The parser is a cursor and the message of the first
failure: a function that fails sets the message and returns something, and its callers go on until they look.
A loop over characters is a recursion on the text from the cursor on.

The recursion of `parse_json` is on the levels that are left. Its loops over members and items, and the one
over comments, have fuel; `none` is a run that exceeds it.

A number that is not an integer is kept as its literal.
-/

namespace ArrowheadCore.Json.JsonView
open Lib

inductive JsonNode where
  | null
  | bool (b : Bool)
  | int (z : Int)
  | double (literal : List UInt8)
  | string (s : List UInt8)
  | array (items : List JsonNode)
  | object (members : List (List UInt8 × JsonNode))

/-- C++ `JsonObject::find` -/
def find (members : List (List UInt8 × JsonNode)) (key : String) : Option JsonNode :=
  (members.find? fun m => m.1 == bytes key).map Prod.snd

inductive ParseMethod where
  | STANDARD | NOTHROW | COMMENTS
deriving DecidableEq, Repr

/-- The cursor, and the message of the first failure. -/
structure JsonParser where
  i : Nat := 0
  err : Option (List UInt8) := none
deriving DecidableEq, Repr

def JsonParser.failed (p : JsonParser) : Bool := p.err.isSome

/-- C++ `fail` keeps the first message. -/
def JsonParser.fail (p : JsonParser) (msg : List UInt8) : JsonParser := { p with err := some (p.err.getD msg) }

def JsonParser.forth (p : JsonParser) (n : Nat) : JsonParser := { p with i := p.i + n }

def JsonParser.back (p : JsonParser) : JsonParser := { p with i := p.i - 1 }

/-- C++ `esc` -/
def esc (c : UInt8) : List UInt8 :=
  if 0x20 ≤ c ∧ c ≤ 0x7f then bytes "'" ++ (c :: (bytes "' (" ++ (to_string c.toNat ++ bytes ")")))
  else bytes "(" ++ (to_string c.toNat ++ bytes ")")

section
variable (str : List UInt8)

/-- C++ `str[k]` -/
def char (k : Nat) : UInt8 := str.getD k 0

/-- C++ `while (f(str[i])) i++` -/
def skipWhile (f : UInt8 → Bool) (p : JsonParser) : JsonParser := p.forth ((str.drop p.i).takeWhile f).length

def isBlank (c : UInt8) : Bool := c == ' '.toUInt8 || c == '\r'.toUInt8 || c == '\n'.toUInt8 || c == '\t'.toUInt8

def consume_whitespace (p : JsonParser) : JsonParser := skipWhile str isBlank p

/-- The loop that looks for the end of a multi-line comment. -/
def commentLoop : List UInt8 → JsonParser → JsonParser
  | a :: b :: s, p =>
    if a = '*'.toUInt8 ∧ b = '/'.toUInt8 then p.forth 2 else commentLoop (b :: s) (p.forth 1)
  | _, p => p.fail (bytes "Unexpected end of input inside multi-line comment.")

def consume_comment (p : JsonParser) : Bool × JsonParser :=
  if char str p.i = '/'.toUInt8 then
    let p := p.forth 1
    if p.i = str.length then (false, p.fail (bytes "Unexpected end of input after start of comment."))
    else if char str p.i = '/'.toUInt8 then (true, skipWhile str (· ≠ '\n'.toUInt8) (p.forth 1))
    else if char str p.i = '*'.toUInt8 then
      let p := commentLoop (str.drop (p.i + 1)) (p.forth 1)
      (!p.failed, p)
    else (false, p.fail (bytes "Malformed comment."))
  else (false, p)

def garbageLoop : Nat → JsonParser → Option JsonParser
  | 0, _ => none
  | fuel + 1, p =>
    let (comment_found, p) := consume_comment str p
    if p.failed then some p
    else
      let p := consume_whitespace str p
      if comment_found then garbageLoop fuel p else some p

variable (strategy : ParseMethod)

def consume_garbage (p : JsonParser) : Option JsonParser :=
  let p := consume_whitespace str p
  if strategy = .COMMENTS then garbageLoop str (str.length + 1) p else some p

def get_next_token (p : JsonParser) : Option (UInt8 × JsonParser) := do
  let p ← consume_garbage str strategy p
  if p.failed then some (0, p)
  else if p.i = str.length then some (0, p.fail (bytes "Unexpected end of input."))
  else some (char str p.i, p.forth 1)

/-! ## Member names -/

/-- The loop of `parse_key`; the flag is false after a failure. -/
def keyLoop : List UInt8 → JsonParser → Bool × JsonParser
  | [], p => (false, p.fail (bytes "Unexpected end of input in string."))
  | ch :: s, p =>
    if ch = '"'.toUInt8 then (true, p.forth 1)
    else if ch ≠ '\\'.toUInt8 then keyLoop s (p.forth 1)
    else
      match s with
      | [] => (false, (p.forth 1).fail (bytes "Unexpected end of input in string."))
      | e :: s =>
        let invalid := (p.forth 2).fail (bytes "Invalid escape character " ++ (esc e ++ bytes "."))
        if e = 'u'.toUInt8 then
          match s with
          | _ :: _ :: _ :: _ :: s => keyLoop s (p.forth 6)
          | _ => (false, invalid)
        else if (bytes "bfnrt\"\\/").contains e then keyLoop s (p.forth 2)
        else (false, invalid)

/-- A name is the part of the text between the quotes. -/
def parse_key (p : JsonParser) : List UInt8 × JsonParser :=
  let (ok, q) := keyLoop (str.drop p.i) p
  if ok then ((str.drop p.i).take (q.i - p.i - 1), q) else ([], q)

/-! ## Strings -/

/-- C++ `encode_utf8`: what is appended for a code point; nothing for a negative one. -/
def encode_utf8 (pt : Int) : List UInt8 :=
  let byte (n : Nat) : UInt8 := UInt8.ofNat n
  match pt with
  | .negSucc _ => []
  | .ofNat n =>
    if n < 0x80 then [byte n]
    else if n < 0x800 then [byte (n / 2 ^ 6 + 0xC0), byte (n % 2 ^ 6 + 0x80)]
    else if n < 0x10000 then
      [byte (n / 2 ^ 12 + 0xE0), byte (n / 2 ^ 6 % 2 ^ 6 + 0x80), byte (n % 2 ^ 6 + 0x80)]
    else
      [byte (n / 2 ^ 18 + 0xF0), byte (n / 2 ^ 12 % 2 ^ 6 + 0x80), byte (n / 2 ^ 6 % 2 ^ 6 + 0x80),
        byte (n % 2 ^ 6 + 0x80)]

/-- The byte that a short escape stands for. -/
def shortEscape (c : UInt8) : Option UInt8 :=
  if c = 'b'.toUInt8 then some 8
  else if c = 'f'.toUInt8 then some 12
  else if c = 'n'.toUInt8 then some 10
  else if c = 'r'.toUInt8 then some 13
  else if c = 't'.toUInt8 then some 9
  else if c = '"'.toUInt8 ∨ c = '\\'.toUInt8 ∨ c = '/'.toUInt8 then some c
  else none

/-- A code point behind an earlier one that was not written yet: what is appended, and what is kept. -/
def joinEscapes (last codepoint : Int) : List UInt8 × Int :=
  if 0xD800 ≤ last ∧ last ≤ 0xDBFF ∧ 0xDC00 ≤ codepoint ∧ codepoint ≤ 0xDFFF then
    (encode_utf8 ((last - 0xD800) * 2 ^ 10 + (codepoint - 0xDC00) + 0x10000), -1)
  else (encode_utf8 last, codepoint)

/-- The loop of `parse_string`: the text so far and the last escaped code point, `-1` for none. -/
def stringLoop : List UInt8 → List UInt8 → Int → JsonParser → List UInt8 × JsonParser
  | [], _, _, p => ([], p.fail (bytes "Unexpected end of input in string."))
  | ch :: s, out, last, p =>
    if ch = '"'.toUInt8 then (out ++ encode_utf8 last, p.forth 1)
    else if ch.toNat ≤ 0x1f then ([], (p.forth 1).fail (bytes "Unescaped " ++ (esc ch ++ bytes " in string.")))
    else if ch ≠ '\\'.toUInt8 then stringLoop s (out ++ encode_utf8 last ++ [ch]) (-1) (p.forth 1)
    else
      match s with
      | [] => ([], (p.forth 1).fail (bytes "Unexpected end of input in string."))
      | e :: s =>
        if e = 'u'.toUInt8 then
          match s with
          | a :: b :: c :: d :: s =>
            if [a, b, c, d].all (isDigitOf 16) then
              let r := joinEscapes last (number 16 [a, b, c, d])
              stringLoop s (out ++ r.1) r.2 (p.forth 6)
            else ([], (p.forth 2).fail (bytes "Bad \\u escape: " ++ ([a, b, c, d] ++ bytes ".")))
          -- the four bytes reach beyond the text, and its terminator is no digit
          | s => ([], (p.forth 2).fail (bytes "Bad \\u escape: " ++ (s ++ bytes ".")))
        else
          match shortEscape e with
          | some c => stringLoop s (out ++ encode_utf8 last ++ [c]) (-1) (p.forth 2)
          | none => ([], (p.forth 2).fail (bytes "Invalid escape character " ++ (esc e ++ bytes ".")))

def parse_string (p : JsonParser) : List UInt8 × JsonParser := stringLoop (str.drop p.i) [] (-1) p

/-! ## Numbers and constants -/

def isDigit (c : UInt8) : Bool := isDigitOf 10 c

/-- The fraction of a number; the flag is false after a failure. -/
def parse_fraction (p : JsonParser) : Bool × JsonParser :=
  if char str p.i = '.'.toUInt8 then
    let p := p.forth 1
    if !isDigit (char str p.i) then (false, p.fail (bytes "At least one digit required in fractional part."))
    else (true, skipWhile str isDigit p)
  else (true, p)

/-- The exponent of a number. -/
def parse_exponent (p : JsonParser) : Bool × JsonParser :=
  if char str p.i = 'e'.toUInt8 ∨ char str p.i = 'E'.toUInt8 then
    let p := p.forth 1
    let p := if char str p.i = '+'.toUInt8 ∨ char str p.i = '-'.toUInt8 then p.forth 1 else p
    if !isDigit (char str p.i) then (false, p.fail (bytes "At least one digit required in exponent."))
    else (true, skipWhile str isDigit p)
  else (true, p)

/-- The digits of the integer part; the flag is false after a failure. -/
def parse_digits (p : JsonParser) : Bool × JsonParser :=
  if char str p.i = '0'.toUInt8 then
    let p := p.forth 1
    if isDigit (char str p.i) then (false, p.fail (bytes "Leading zeroes are not permitted in numbers."))
    else (true, p)
  else if isDigit (char str p.i) then (true, skipWhile str isDigit (p.forth 1))
  else (false, p.fail (bytes "Invalid " ++ (esc (char str p.i) ++ bytes " in number.")))

def parse_integer (p : JsonParser) : Bool × JsonParser :=
  parse_digits str (if char str p.i = '-'.toUInt8 then p.forth 1 else p)

/-- C++ `std::numeric_limits<int>::digits10` -/
def digits10 : Nat := 9

def parse_number (p : JsonParser) : JsonNode × JsonParser :=
  let start_pos := p.i
  let (ok, p) := parse_integer str p
  if !ok then (.null, p)
  else if char str p.i ≠ '.'.toUInt8 ∧ char str p.i ≠ 'e'.toUInt8 ∧ char str p.i ≠ 'E'.toUInt8 ∧
      p.i - start_pos ≤ digits10 then
    (.int (strtol 10 (str.drop start_pos)), p)
  else
    let (ok, p) := parse_fraction str p
    if !ok then (.null, p)
    else
      let (ok, p) := parse_exponent str p
      if !ok then (.null, p) else (.double ((str.drop start_pos).take (p.i - start_pos)), p)

def expect (expected : String) (res : JsonNode) (p : JsonParser) : JsonNode × JsonParser :=
  let p := p.back
  if (bytes expected).isPrefixOf (str.drop p.i) then (res, p.forth expected.length)
  else (.null, p.fail (bytes "Expected " ++ (bytes expected ++ (bytes ", got " ++
    (str.drop p.i).take expected.length))))

/-! ## Values -/

/-- The loop over the members of an object; `ch` is the token behind the bracket or the comma. -/
def objectLoop (parse : JsonParser → Option (JsonNode × JsonParser)) :
    Nat → UInt8 → List (List UInt8 × JsonNode) → JsonParser → Option (JsonNode × JsonParser)
  | 0, _, _, _ => none
  | fuel + 1, ch, data, p => do
    if ch ≠ '"'.toUInt8 then
      some (.null, p.fail (bytes "Expected '\"' in object, got " ++ (esc ch ++ bytes ".")))
    else
      let (key, p) := parse_key str p
      if p.failed then some (.null, p)
      else
        let (ch, p) ← get_next_token str strategy p
        if ch ≠ ':'.toUInt8 then
          some (.null, p.fail (bytes "Expected ':' in object, got " ++ (esc ch ++ bytes ".")))
        else
          let (val, p) ← parse p
          if p.failed then some (.null, p)
          else
            let data := data ++ [(key, val)]
            let (ch, p) ← get_next_token str strategy p
            if ch = '}'.toUInt8 then some (.object data, p)
            else if ch ≠ ','.toUInt8 then
              some (.null, p.fail (bytes "Expected ',' in object, got " ++ (esc ch ++ bytes ".")))
            else
              let (ch, p) ← get_next_token str strategy p
              objectLoop parse fuel ch data p

/-- The loop over the items of an array. -/
def arrayLoop (parse : JsonParser → Option (JsonNode × JsonParser)) :
    Nat → List JsonNode → JsonParser → Option (JsonNode × JsonParser)
  | 0, _, _ => none
  | fuel + 1, data, p => do
    let (val, p) ← parse p.back
    let data := data ++ [val]
    if p.failed then some (.null, p)
    else
      let (ch, p) ← get_next_token str strategy p
      if ch = ']'.toUInt8 then some (.array data, p)
      else if ch ≠ ','.toUInt8 then
        some (.null, p.fail (bytes "Expected ',' in list, got " ++ (esc ch ++ bytes ".")))
      else
        let (_, p) ← get_next_token str strategy p
        arrayLoop parse fuel data p

/-- The part of `parse_json` behind the first token; `parse` is the call for the next level. -/
def parse_value (parse : JsonParser → Option (JsonNode × JsonParser)) (ch : UInt8) (p : JsonParser) :
    Option (JsonNode × JsonParser) := do
  if ch = '-'.toUInt8 ∨ isDigit ch then some (parse_number str p.back)
  else if ch = 't'.toUInt8 then some (expect str "true" (.bool true) p)
  else if ch = 'f'.toUInt8 then some (expect str "false" (.bool false) p)
  else if ch = 'n'.toUInt8 then some (expect str "null" .null p)
  else if ch = '"'.toUInt8 then
    let (s, p) := parse_string str p
    some (.string s, p)
  else if ch = '{'.toUInt8 then
    let (ch, p) ← get_next_token str strategy p
    if ch = '}'.toUInt8 then some (.object [], p) else objectLoop str strategy parse (str.length + 1) ch [] p
  else if ch = '['.toUInt8 then
    let (ch, p) ← get_next_token str strategy p
    if ch = ']'.toUInt8 then some (.array [], p) else arrayLoop str strategy parse (str.length + 1) [] p
  else some (.null, p.fail (bytes "Expected value, got " ++ (esc ch ++ bytes ".")))

/-- C++ `parse_json(depth)` with `max_depth + 1 - depth` levels left -/
def parse_json : Nat → JsonParser → Option (JsonNode × JsonParser)
  | 0, p => some (.null, p.fail (bytes "Exceeded maximum nesting depth."))
  | levels + 1, p => do
    let (ch, p) ← get_next_token str strategy p
    if p.failed then some (.null, p) else parse_value str strategy (parse_json levels) ch p

def max_depth : Nat := 200

/-- C++ `JsonParser::parse` -/
def parse : Option (JsonNode × JsonParser) := do
  let (res, p) ← parse_json str strategy (max_depth + 1) {}
  let p ← consume_garbage str strategy p
  some (res, p)

/-- The tree, or the message of the exception. -/
def parse_throw_on_error : Option (Except (List UInt8) JsonNode) := do
  let (result, p) ← parse str strategy
  match p.err with
  | some what => some (.error what)
  | none => if p.i ≠ str.length then some (.error (bytes "Unexpected trailing.")) else some (.ok result)

end

end ArrowheadCore.Json.JsonView
