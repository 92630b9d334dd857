import ArrowheadCore.Json.Boundaries
import ArrowheadCore.Json.NoThrow

/-!
# What the parser reads

The functions of the parser that read the text themselves, with notes of every index that they read or write. A function of the C
library is noted with the whole C string that it is given. A `\u` copies the four bytes behind it; what it has of them behind the
text makes no difference, as the terminator in front of that is no digit.

`Accesses.accesses` are the notes of all calls of a parse. The functions give what those of `Steps` give, and everything that they
read is in the text or its terminator, but for a `\u` with fewer than three bytes behind it.
-/

namespace ArrowheadCore.Json.JsonCView
open Lib JsonView Grammar

namespace Accesses

abbrev M := Traced Empty Nat

section
variable (str : List UInt8)

/-- C++ `str[k]` -/
def read (k : Nat) : M UInt8 := Traced.noting [k] (some (char str k))

/-- What a function of the C library reads of the string that begins at `k`. -/
def cString (k : Nat) : M Unit := Traced.noting ((List.range ((cStr (str.drop k)).length + 1)).map (k + ·)) (some ())

/-- C++ `while (f(str[i])) i++` -/
def skipWhile (f : UInt8 → Bool) : Nat → JsonParser → M JsonParser
  | 0, _ => Traced.diverge
  | n + 1, p => do
    let c ← read str p.i
    if f c then skipWhile f n (p.forth 1) else return p

def consume_whitespace (p : JsonParser) : M JsonParser := skipWhile str isBlank (str.length + 1) p

/-- C++ `while (i < N && str[i] != '\n') i++` -/
def skipLine : Nat → JsonParser → M JsonParser
  | 0, _ => Traced.diverge
  | n + 1, p => do
    if p.i < str.length then
      let c ← read str p.i
      if c ≠ '\n'.toUInt8 then skipLine n (p.forth 1) else return p
    else return p

/-- The loop of a multi-line comment, which has two bytes in front of it. -/
def commentLoop : Nat → JsonParser → M JsonParser
  | 0, _ => Traced.diverge
  | n + 1, p => do
    if str.length - 2 < p.i then return p.fail (bytes "Unexpected end of input inside multi-line comment.")
    else
      let a ← read str p.i
      if a = '*'.toUInt8 then
        let b ← read str (p.i + 1)
        if b = '/'.toUInt8 then return p.forth 2 else commentLoop n (p.forth 1)
      else commentLoop n (p.forth 1)

def consume_comment (p : JsonParser) : M (Bool × JsonParser) := do
  let c ← read str p.i
  if c = '/'.toUInt8 then
    let p := p.forth 1
    if p.i = str.length then return (false, p.fail (bytes "Unexpected end of input after start of comment."))
    else
      let c ← read str p.i
      if c = '/'.toUInt8 then
        let p ← skipLine str (str.length + 1) (p.forth 1)
        return (true, p)
      else
        let c ← read str p.i
        if c = '*'.toUInt8 then
          let p ← commentLoop str (str.length + 1) (p.forth 1)
          return (!p.failed, p)
        else return (false, p.fail (bytes "Malformed comment."))
  else return (false, p)

def keyLoop : Nat → JsonParser → M (Bool × JsonParser)
  | 0, _ => Traced.diverge
  | n + 1, p => do
    if p.i = str.length then return (false, p.fail (bytes "Unexpected end of input in string."))
    else
      let ch ← read str p.i
      let p := p.forth 1
      if ch = '"'.toUInt8 then return (true, p)
      else if ch ≠ '\\'.toUInt8 then keyLoop n p
      else if p.i = str.length then return (false, p.fail (bytes "Unexpected end of input in string."))
      else
        let ch ← read str p.i
        let p := p.forth 1
        if ch = 'u'.toUInt8 then
          if str.length < p.i + 4 then
            return (false, p.fail (bytes "Invalid escape character " ++ (esc ch ++ bytes ".")))
          else keyLoop n (p.forth 4)
        else if (bytes "bfnrt\"\\/").contains ch then keyLoop n p
        else return (false, p.fail (bytes "Invalid escape character " ++ (esc ch ++ bytes ".")))

/-- C++ `std::string{ str + i, str + i + 4 }` -/
def window (i : Nat) : M (List UInt8) := Traced.noting [i, i + 1, i + 2, i + 3] (some ((str.drop i).take 4))

def stringLoop : Nat → List UInt8 → Int → JsonParser → M (List UInt8 × JsonParser)
  | 0, _, _, _ => Traced.diverge
  | n + 1, out, last, p => do
    if p.i = str.length then return ([], p.fail (bytes "Unexpected end of input in string."))
    else
      let ch ← read str p.i
      let p := p.forth 1
      if ch = '"'.toUInt8 then return (out ++ encode_utf8 last, p)
      else if ch.toNat ≤ 0x1f then return ([], p.fail (bytes "Unescaped " ++ (esc ch ++ bytes " in string.")))
      else if ch ≠ '\\'.toUInt8 then stringLoop n (out ++ encode_utf8 last ++ [ch]) (-1) p
      else if p.i = str.length then return ([], p.fail (bytes "Unexpected end of input in string."))
      else
        let ch ← read str p.i
        let p := p.forth 1
        if ch = 'u'.toUInt8 then
          let esc ← window str p.i
          if esc.length = 4 ∧ esc.all (isDigitOf 16) then
            let r := joinEscapes last (number 16 esc)
            stringLoop n (out ++ r.1) r.2 (p.forth 4)
          else return ([], p.fail (bytes "Bad \\u escape: " ++ (esc ++ bytes ".")))
        else
          match shortEscape ch with
          | some c => stringLoop n (out ++ encode_utf8 last ++ [c]) (-1) p
          | none => return ([], p.fail (bytes "Invalid escape character " ++ (esc ch ++ bytes ".")))

def parse_string (p : JsonParser) : M (List UInt8 × JsonParser) := stringLoop str (str.length + 1) [] (-1) p

def parse_digits (p : JsonParser) : M (Bool × JsonParser) := do
  let c ← read str p.i
  if c = '0'.toUInt8 then
    let p := p.forth 1
    let c ← read str p.i
    if isDigit c then return (false, p.fail (bytes "Leading zeroes are not permitted in numbers.")) else return (true, p)
  else
    let c ← read str p.i
    if isDigit c then
      let p ← skipWhile str isDigit (str.length + 1) (p.forth 1)
      return (true, p)
    else
      let c ← read str p.i
      return (false, p.fail (bytes "Invalid " ++ (esc c ++ bytes " in number.")))

def parse_integer (p : JsonParser) : M (Bool × JsonParser) := do
  let c ← read str p.i
  parse_digits str (if c = '-'.toUInt8 then p.forth 1 else p)

/-- One digit at least, and all that follow. -/
def someDigits (msg : String) (p : JsonParser) : M (Bool × JsonParser) := do
  let c ← read str p.i
  if !isDigit c then return (false, p.fail (bytes msg))
  else
    let p ← skipWhile str isDigit (str.length + 1) p
    return (true, p)

def parse_fraction (p : JsonParser) : M (Bool × JsonParser) := do
  let c ← read str p.i
  if c = '.'.toUInt8 then someDigits str "At least one digit required in fractional part." (p.forth 1) else return (true, p)

def parse_exponent (p : JsonParser) : M (Bool × JsonParser) := do
  let c ← read str p.i
  if c = 'e'.toUInt8 ∨ c = 'E'.toUInt8 then
    let p := p.forth 1
    let c ← read str p.i
    let p := if c = '+'.toUInt8 ∨ c = '-'.toUInt8 then p.forth 1 else p
    someDigits str "At least one digit required in exponent." p
  else return (true, p)

def parse_number (p : JsonParser) : M (JsonNode × JsonParser) := do
  let start_pos := p.i
  let (ok, p) ← parse_integer str p
  if !ok then return (.null, p)
  else
    let c ← read str p.i
    if c ≠ '.'.toUInt8 ∧ c ≠ 'e'.toUInt8 ∧ c ≠ 'E'.toUInt8 ∧ p.i - start_pos ≤ digits10 then
      cString str start_pos
      return (.int (strtol 10 (str.drop start_pos)), p)
    else
      let (ok, p) ← parse_fraction str p
      if !ok then return (.null, p)
      else
        let (ok, p) ← parse_exponent str p
        if !ok then return (.null, p)
        else
          cString str start_pos
          return (.double ((str.drop start_pos).take (p.i - start_pos)), p)

/-- C++ `strncmp`, and the string that is made of the text for the message. -/
def expect (expected : String) (p : JsonParser) : M Unit := do
  cString str p.back.i
  if (bytes expected).isPrefixOf (str.drop p.back.i) then return () else cString str 0

end

/-- The terminator behind a name. -/
def slice (inPlace : Bool) (p : Parser) (start len : Nat) : M (Key × Parser) :=
  Traced.noting (if inPlace then [start + len] else []) (some (JsonCView.slice inPlace p start len))

def parse_key (inPlace : Bool) (p : Parser) : M (Key × Parser) := do
  let start := p.here.i
  let (ok, q) ← keyLoop p.str (p.str.length + 1) p.here
  if ok then slice inPlace { p with here := q } start (q.i - start - 1)
  else slice inPlace { p with here := q } start 0

end Accesses

/-- What is read and written between this event and the next one, or in front of the end of a call. A word that is expected begins
    with the byte in front of the cursor, and `get_next_token` reads a byte if it does not fail. -/
def Event.access (inPlace : Bool) : Event → Accesses.M Unit
  | .call .parse p => Accesses.cString p.str 0
  | .call .consume_whitespace p => do
    let _ ← Accesses.consume_whitespace p.str p.here
    return ()
  | .call .consume_comment p => do
    let _ ← Accesses.consume_comment p.str p.here
    return ()
  | .call .parse_key p => do
    let _ ← Accesses.parse_key inPlace p
    return ()
  | .call .parse_string p => do
    let _ ← Accesses.parse_string p.str p.here
    return ()
  | .call .parse_number p => do
    let _ ← Accesses.parse_number p.str p.here
    return ()
  | .call .expect p =>
    match word? (char p.str p.back.here.i) with
    | some expected => Accesses.expect p.str expected p.here
    | none => return ()
  | .ret .get_next_token _ q => do
    if q.failed then return ()
    else
      let _ ← Accesses.read q.str q.back.here.i
      return ()
  | _ => return ()

namespace Accesses

def ofEvents (inPlace : Bool) : List Event → M Unit
  | [] => return ()
  | e :: es => do
    e.access inPlace
    ofEvents inPlace es

/-- Every index that a parse reads or writes. -/
def accesses (inPlace : Bool) (strategy : ParseMethod) (text : List UInt8) : Option (List Nat) := do
  let (_, events) ← (Steps.parse inPlace strategy text).results
  let (_, ks) ← (ofEvents inPlace events).results
  return ks

/-! ## What the functions give, and where they read -/

section
variable {str : List UInt8} {p : JsonParser} {k n : Nat}

lemma drop_char (h : k < str.length) : str.drop k = char str k :: str.drop (k + 1) := by
  rw [List.drop_eq_getElem_cons h, char, List.getD_eq_getElem?_getD, List.getElem?_eq_getElem h, Option.getD_some]

lemma lt_of_char {c : UInt8} (h : char str k = c) (hc : c ≠ 0) : k < str.length := by
  by_contra outside
  refine hc ?_
  rw [← h, char, List.getD_eq_getElem?_getD, List.getElem?_eq_none (Nat.le_of_not_lt outside), Option.getD_none]

lemma read_ends (h : k ≤ str.length) : Traced.Ends (· ≤ str.length) (read str k) (· = char str k) :=
  .noting rfl (by simpa using h)

lemma cString_ends (h : k ≤ str.length) : Traced.Ends (· ≤ str.length) (cString str k) fun _ => True := by
  refine .noting trivial fun i hi => ?_
  obtain ⟨j, hj, rfl⟩ := List.mem_map.1 hi
  have short : (cStr (str.drop k)).length ≤ (str.drop k).length := (List.takeWhile_prefix _).length_le
  rw [List.length_drop] at short
  rw [List.mem_range] at hj
  omega

lemma skipWhile_step {f : UInt8 → Bool} (h : p.i < str.length) (hf : f (char str p.i) = true) :
    JsonView.skipWhile str f (p.forth 1) = JsonView.skipWhile str f p := by
  rw [JsonView.skipWhile, JsonView.skipWhile, drop_char h, List.takeWhile_cons_of_pos hf, List.length_cons, forth_forth,
    Nat.add_comm]
  rfl

lemma skipWhile_stay {f : UInt8 → Bool} (h : p.i < str.length → f (char str p.i) = false) : JsonView.skipWhile str f p = p := by
  have none : (str.drop p.i).takeWhile f = [] := by
    by_cases inside : p.i < str.length
    · rw [drop_char inside, List.takeWhile_cons_of_neg (by rw [h inside]; exact Bool.false_ne_true)]
    · rw [List.drop_eq_nil_of_le (Nat.le_of_not_lt inside), List.takeWhile_nil]
  rw [JsonView.skipWhile, none]
  rfl

/-- A loop that does not go over the terminator. -/
lemma skipWhile_ends {f : UInt8 → Bool} (hf : f 0 = false) (hp : p.i ≤ str.length) (hn : str.length < p.i + n) :
    Traced.Ends (· ≤ str.length) (skipWhile str f n p) (· = JsonView.skipWhile str f p) := by
  induction n generalizing p with
  | zero => omega
  | succ n ih =>
    refine (read_ends hp).bind ?_
    rintro _ rfl
    split
    next more =>
      have inside : p.i < str.length := lt_of_char rfl fun e => by rw [e, hf] at more; cases more
      rw [← skipWhile_step inside more]
      exact ih inside (by rw [forth_i]; omega)
    next done => exact .pure (skipWhile_stay fun _ => by simpa using done).symm

lemma skipLine_ends (hp : p.i ≤ str.length) (hn : str.length < p.i + n) :
    Traced.Ends (· ≤ str.length) (skipLine str n p) (· = JsonView.skipWhile str (· ≠ '\n'.toUInt8) p) := by
  induction n generalizing p with
  | zero => omega
  | succ n ih =>
    rw [skipLine]
    split
    next inside =>
      refine (read_ends hp).bind ?_
      rintro _ rfl
      split
      next more =>
        rw [← skipWhile_step inside (by simpa using more)]
        exact ih inside (by rw [forth_i]; omega)
      next done => exact .pure (skipWhile_stay fun _ => by simpa using done).symm
    next outside => exact .pure (skipWhile_stay fun inside => absurd inside outside).symm

/-- The bound leaves two bytes to read. -/
lemma commentLoop_ends (h2 : 2 ≤ str.length) (hp : p.i ≤ str.length) (hn : str.length < p.i + n) :
    Traced.Ends (· ≤ str.length) (commentLoop str n p) (· = JsonView.commentLoop (str.drop p.i) p) := by
  induction n generalizing p with
  | zero => omega
  | succ n ih =>
    rw [commentLoop]
    split
    next last =>
      refine .pure ?_
      match e : str.drop p.i with
      | [] => rfl
      | [_] => rfl
      | _ :: _ :: _ =>
        have length := congrArg List.length e
        rw [List.length_drop, List.length_cons, List.length_cons] at length
        omega
    next inside =>
    have first := drop_char (show p.i < str.length by omega)
    have second := drop_char (show p.i + 1 < str.length by omega)
    have further := ih (p := p.forth 1) (by rw [forth_i]; omega) (by rw [forth_i]; omega)
    rw [forth_i, second] at further
    rw [first, second, JsonView.commentLoop]
    refine (read_ends hp).bind ?_
    rintro _ rfl
    split
    next asterisk =>
      refine (read_ends (show p.i + 1 ≤ str.length by omega)).bind ?_
      rintro _ rfl
      split
      next slash => exact .pure (if_pos ⟨asterisk, slash⟩).symm
      next other =>
        rw [if_neg fun h => other h.2]
        exact further
    next other =>
      rw [if_neg fun h => other h.1]
      exact further

lemma consume_comment_ends (hp : p.i ≤ str.length) :
    Traced.Ends (· ≤ str.length) (consume_comment str p) (· = JsonView.consume_comment str p) := by
  rw [JsonView.consume_comment]
  refine (read_ends hp).bind ?_
  rintro _ rfl
  split
  next slash =>
    have inside : p.i < str.length := lt_of_char slash (by decide)
    dsimp only
    split
    · exact .pure rfl
    next more =>
    have inside1 : (p.forth 1).i < str.length := Nat.lt_of_le_of_ne inside more
    have inside2 : ((p.forth 1).forth 1).i ≤ str.length := inside1
    have turns : str.length < ((p.forth 1).forth 1).i + (str.length + 1) := by omega
    refine (read_ends (Nat.le_of_lt inside1)).bind ?_
    rintro _ rfl
    split
    · refine (skipLine_ends inside2 turns).bind ?_
      rintro _ rfl
      exact .pure rfl
    refine (read_ends (Nat.le_of_lt inside1)).bind ?_
    rintro _ rfl
    split
    · refine (commentLoop_ends (by rw [forth_i] at inside1; omega) inside2 turns).bind ?_
      rintro _ rfl
      exact .pure rfl
    · exact .pure rfl
  · exact .pure rfl

lemma keyLoop_ends (hp : p.i ≤ str.length) (hn : str.length < p.i + n) :
    Traced.Ends (· ≤ str.length) (keyLoop str n p) (· = JsonView.keyLoop (str.drop p.i) p) := by
  induction n generalizing p with
  | zero => omega
  | succ n ih =>
    rw [keyLoop]
    split
    next last =>
      rw [List.drop_eq_nil_of_le (Nat.le_of_eq last.symm)]
      exact .pure rfl
    next inside =>
    have inside : p.i < str.length := Nat.lt_of_le_of_ne hp inside
    rw [drop_char inside, JsonView.keyLoop.eq_def]
    refine (read_ends hp).bind ?_
    rintro _ rfl
    dsimp only
    split
    · exact .pure rfl
    split
    · exact ih inside (by rw [forth_i]; omega)
    split
    next last =>
      have nothing : str.drop (p.i + 1) = [] := List.drop_eq_nil_of_le (Nat.le_of_eq last.symm)
      rw [nothing]
      exact .pure rfl
    next more =>
    have inside1 : p.i + 1 < str.length := Nat.lt_of_le_of_ne inside more
    rw [drop_char inside1]
    refine (read_ends (Nat.le_of_lt inside1)).bind ?_
    rintro _ rfl
    dsimp only
    split
    · split
      next short =>
        have length : (str.drop (p.i + 1 + 1)).length < 4 := by
          rw [List.length_drop]
          simp only [forth_i] at short
          omega
        refine .pure ?_
        generalize str.drop (p.i + 1 + 1) = s at length
        rcases s with _ | ⟨a, _ | ⟨b, _ | ⟨c, _ | ⟨d, s⟩⟩⟩⟩
        · rfl
        · rfl
        · rfl
        · rfl
        · simp only [List.length_cons] at length
          omega
      next four =>
        simp only [forth_i] at four
        rw [drop_char (show p.i + 1 + 1 < str.length by omega), drop_char (show p.i + 1 + 1 + 1 < str.length by omega),
          drop_char (show p.i + 1 + 1 + 1 + 1 < str.length by omega), drop_char (show p.i + 1 + 1 + 1 + 1 + 1 < str.length by omega)]
        exact ih (p := p.forth 6) (by rw [forth_i]; omega) (by rw [forth_i]; omega)
    split
    · exact ih (p := p.forth 2) (by rw [forth_i]; omega) (by rw [forth_i]; omega)
    · exact .pure rfl

lemma slice_ends {text : List UInt8} (inPlace : Bool) (p : Parser) {start len : Nat} (h : start + len ≤ text.length) :
    Traced.Ends (· ≤ text.length) (slice inPlace p start len) (· = JsonCView.slice inPlace p start len) := by
  refine .noting rfl fun k hk => ?_
  cases inPlace with
  | false => cases hk
  | true => exact List.mem_singleton.1 hk ▸ h

/-- The terminator is written at the closing quote, or where the name begins. -/
lemma parse_key_ends (inPlace : Bool) {p : Parser} (hp : p.here.i ≤ p.str.length) :
    Traced.Ends (· ≤ p.str.length) (parse_key inPlace p) (· = JsonCView.parse_key inPlace p) := by
  have moves : Moves p.str 0 p.here (JsonView.keyLoop (p.str.drop p.here.i) p.here).2 :=
    keyLoop_moves _ p.here (by rw [List.length_drop]; omega)
  have start := moves.start
  have inside := moves.inside
  rw [JsonCView.parse_key]
  refine (keyLoop_ends hp (by omega)).bind ?_
  rintro _ rfl
  dsimp only
  split
  · exact slice_ends inPlace _ (by omega)
  · exact slice_ends inPlace _ hp

end

/-! ## Strings -/

/-- What is left of a string whose last escape has fewer than three bytes behind its `u`. -/
def CutString (last : Int) (s : List UInt8) : Prop :=
  ∃ t out h, Spells last t out ∧ s = t ++ '\\'.toUInt8 :: 'u'.toUInt8 :: h ∧ h.length < 3

section
variable {str s : List UInt8} {p : JsonParser} {n : Nat} {last : Int} {c : UInt8}

lemma CutString.here {h : List UInt8} (hh : h.length < 3) : CutString last ('\\'.toUInt8 :: 'u'.toUInt8 :: h) :=
  ⟨[], _, h, .nil last, rfl, hh⟩

lemma CutString.plain (h1 : 0x1f < c.toNat) (h2 : c ≠ '"'.toUInt8) (h3 : c ≠ '\\'.toUInt8) (h : CutString (-1) s) :
    CutString last (c :: s) := by
  obtain ⟨t, out, r, spells, rfl, short⟩ := h
  exact ⟨c :: t, _, r, .plain h1 h2 h3 spells, rfl, short⟩

lemma CutString.short {e : UInt8} (he : shortEscape e = some c) (h : CutString (-1) s) :
    CutString last ('\\'.toUInt8 :: e :: s) := by
  obtain ⟨t, out, r, spells, rfl, short⟩ := h
  exact ⟨_ :: e :: t, _, r, .short he spells, rfl, short⟩

lemma CutString.hex {a b c d : UInt8} (digits : [a, b, c, d].all (isDigitOf 16))
    (h : CutString (joinEscapes last (number 16 [a, b, c, d])).2 s) :
    CutString last ('\\'.toUInt8 :: 'u'.toUInt8 :: a :: b :: c :: d :: s) := by
  obtain ⟨t, out, r, spells, rfl, short⟩ := h
  exact ⟨_ :: _ :: a :: b :: c :: d :: t, _, r, .hex digits spells, rfl, short⟩

/-- Behind the text is read only if the string is cut. -/
lemma stringLoop_ends (hp : p.i ≤ str.length) (hn : str.length < p.i + n) (out : List UInt8) (last : Int) :
    Traced.Ends (fun k => str.length < k → CutString last (str.drop p.i)) (stringLoop str n out last p)
      (· = JsonView.stringLoop (str.drop p.i) out last p) := by
  have reads {k : Nat} {s : List UInt8} {last : Int} (h : k ≤ str.length) :
      Traced.Ends (fun k => str.length < k → CutString last s) (read str k) (· = char str k) :=
    (read_ends h).mono fun k hk outside => absurd hk (Nat.not_le_of_lt outside)
  induction n generalizing p out last with
  | zero => omega
  | succ n ih =>
    rw [stringLoop]
    split
    next ended =>
      rw [List.drop_eq_nil_of_le (Nat.le_of_eq ended.symm)]
      exact .pure rfl
    next inside =>
    have inside : p.i < str.length := Nat.lt_of_le_of_ne hp inside
    rw [drop_char inside, JsonView.stringLoop.eq_def]
    refine (reads hp).bind ?_
    rintro _ rfl
    dsimp only
    split
    · exact .pure rfl
    next quote =>
    split
    · exact .pure rfl
    next control =>
    split
    next slash =>
      refine (ih (p := p.forth 1) inside (by rw [forth_i]; omega) _ _).mono fun k hk outside => ?_
      exact (hk outside).plain (Nat.lt_of_not_le control) quote slash
    next slash =>
    rw [not_not.1 slash]
    split
    next ended =>
      have nothing : str.drop (p.i + 1) = [] := List.drop_eq_nil_of_le (Nat.le_of_eq ended.symm)
      rw [nothing]
      exact .pure rfl
    next more =>
    have inside1 : p.i + 1 < str.length := Nat.lt_of_le_of_ne inside more
    rw [drop_char inside1]
    refine (reads (Nat.le_of_lt inside1)).bind ?_
    rintro _ rfl
    dsimp only
    split
    next escape =>
      rw [escape]
      have copied : Traced.Ends (fun k => str.length < k → CutString last ('\\'.toUInt8 :: 'u'.toUInt8 :: str.drop (p.i + 1 + 1)))
          (window str (p.i + 1 + 1)) (· = (str.drop (p.i + 1 + 1)).take 4) := by
        refine .noting rfl fun k hk outside => .here ?_
        simp only [List.mem_cons, List.not_mem_nil, or_false] at hk
        rw [List.length_drop]
        omega
      refine copied.bind ?_
      rintro _ rfl
      rcases e : str.drop (p.i + 1 + 1) with _ | ⟨a, _ | ⟨b, _ | ⟨c, _ | ⟨d, s⟩⟩⟩⟩
      · exact .pure rfl
      · exact .pure rfl
      · exact .pure rfl
      · exact .pure rfl
      · have behind : s = str.drop (p.forth 6).i := by
          rw [forth_i, show p.i + 6 = p.i + 1 + 1 + 4 from rfl, ← List.drop_drop, e]
          rfl
        have length := congrArg List.length e
        simp only [List.length_drop, List.length_cons] at length
        by_cases digits : [a, b, c, d].all (isDigitOf 16) = true
        · dsimp only
          rw [if_pos digits, if_pos ⟨rfl, digits⟩, behind]
          refine (ih (p := p.forth 6) (by rw [forth_i]; omega) (by rw [forth_i]; omega) _ _).mono fun k hk outside => ?_
          exact (hk outside).hex digits
        · dsimp only
          rw [if_neg digits, if_neg fun h => digits h.2]
          exact .pure rfl
    next other =>
      cases he : shortEscape (char str (p.i + 1)) with
      | none => exact .pure rfl
      | some c =>
        refine (ih (p := p.forth 2) (by rw [forth_i]; omega) (by rw [forth_i]; omega) _ _).mono fun k hk outside => ?_
        exact (hk outside).short he

lemma char_drop (h : str.drop p.i = c :: s) : p.i < str.length ∧ char str p.i = c ∧ str.drop (p.forth 1).i = s := by
  have inside : p.i < str.length := by
    by_contra outside
    rw [List.drop_eq_nil_of_le (Nat.le_of_not_lt outside)] at h
    cases h
  rw [drop_char inside] at h
  obtain ⟨first, rest⟩ := List.cons.inj h
  exact ⟨inside, first, rest⟩

/-- A byte that is read, and what comes behind it. -/
lemma read_meets {α : Type} {E : Nat → Prop} {k : Nat} {f : UInt8 → M α} (hc : char str k = c) (h : Traced.Meets E (f c)) :
    Traced.Meets E (read str k >>= f) := .after rfl (hc ▸ h)

/-- In a string that is cut it is read behind the text. -/
lemma stringLoop_meets {t out' h : List UInt8} (spells : Spells last t out') (hh : h.length < 3)
    (hs : str.drop p.i = t ++ '\\'.toUInt8 :: 'u'.toUInt8 :: h) (n : Nat) (out : List UInt8) :
    Traced.Meets (str.length < ·) (stringLoop str n out last p) := by
  -- both bytes of an escape are read
  have escape {last : Int} {e : UInt8} {s : List UInt8} {p : JsonParser} {n : Nat} {out : List UInt8}
      (hs : str.drop p.i = '\\'.toUInt8 :: e :: s)
      (rest : Traced.Meets (str.length < ·) (if e = 'u'.toUInt8 then do
          let esc ← window str (p.forth 2).i
          if esc.length = 4 ∧ esc.all (isDigitOf 16) then
            let r := joinEscapes last (number 16 esc)
            stringLoop str n (out ++ r.1) r.2 (p.forth 6)
          else return ([], (p.forth 2).fail (bytes "Bad \\u escape: " ++ (esc ++ bytes ".")))
        else
          match shortEscape e with
          | some c => stringLoop str n (out ++ encode_utf8 last ++ [c]) (-1) (p.forth 2)
          | none => return ([], (p.forth 2).fail (bytes "Invalid escape character " ++ (esc e ++ bytes "."))))) :
      Traced.Meets (str.length < ·) (stringLoop str (n + 1) out last p) := by
    obtain ⟨inside, first, hs1⟩ := char_drop hs
    obtain ⟨inside1, second, -⟩ := char_drop hs1
    rw [stringLoop, if_neg (Nat.ne_of_lt inside)]
    refine read_meets first ?_
    dsimp only
    rw [if_neg (by decide), if_neg (by decide), if_neg (by decide), if_neg (Nat.ne_of_lt inside1)]
    exact read_meets second rest
  induction spells generalizing p n out with
  | nil last =>
    obtain _ | n := n
    · exact nofun
    have length := congrArg List.length hs
    simp only [List.nil_append, List.length_drop, List.length_cons] at length
    refine escape hs ?_
    rw [if_pos rfl]
    refine .first (.noting (k := p.i + 5) ?_ ?_ _) _
    · simp [forth_i]
    · omega
  | plain h1 h2 h3 _ ih =>
    obtain _ | n := n
    · exact nofun
    obtain ⟨inside, first, hs1⟩ := char_drop hs
    rw [stringLoop, if_neg (Nat.ne_of_lt inside)]
    refine read_meets first ?_
    dsimp only
    rw [if_neg h2, if_neg (Nat.not_le_of_lt h1), if_pos h3]
    exact ih hs1 n _
  | @short last e c s out' he _ ih =>
    obtain _ | n := n
    · exact nofun
    have other : e ≠ 'u'.toUInt8 := by
      rintro rfl
      cases he
    refine escape hs ?_
    rw [if_neg other, he]
    exact ih (char_drop (char_drop hs).2.2).2.2 n _
  | @hex last a b c d s out' digits _ ih =>
    obtain _ | n := n
    · exact nofun
    have behind : str.drop (p.forth 2).i = a :: b :: c :: d :: (s ++ '\\'.toUInt8 :: 'u'.toUInt8 :: h) :=
      (char_drop (char_drop hs).2.2).2.2
    refine escape hs ?_
    rw [if_pos rfl]
    refine .after (a := [a, b, c, d]) ?_ ?_
    · rw [window, behind]
      rfl
    · dsimp only
      rw [if_pos ⟨rfl, digits⟩]
      refine ih ?_ n _
      rw [forth_i, show p.i + 6 = (p.forth 2).i + 4 from rfl, ← List.drop_drop, behind]
      rfl

/-! ## Numbers -/

lemma isDigit_zero : isDigit 0 = false := by decide

lemma parse_digits_ends (hp : p.i ≤ str.length) :
    Traced.Ends (· ≤ str.length) (parse_digits str p) (· = JsonView.parse_digits str p) := by
  rw [JsonView.parse_digits]
  refine (read_ends hp).bind ?_
  rintro _ rfl
  split
  next zero =>
    have inside : (p.forth 1).i ≤ str.length := lt_of_char zero (by decide)
    refine (read_ends inside).bind ?_
    rintro _ rfl
    dsimp only
    split <;> exact .pure rfl
  refine (read_ends hp).bind ?_
  rintro _ rfl
  split
  next digit =>
    have inside : (p.forth 1).i ≤ str.length := lt_of_char rfl (ne_zero_of_isDigit digit)
    refine (skipWhile_ends isDigit_zero inside (by rw [forth_i]; omega)).bind ?_
    rintro _ rfl
    exact .pure rfl
  · refine (read_ends hp).bind ?_
    rintro _ rfl
    exact .pure rfl

lemma parse_integer_ends (hp : p.i ≤ str.length) :
    Traced.Ends (· ≤ str.length) (parse_integer str p) (· = JsonView.parse_integer str p) := by
  refine (read_ends hp).bind ?_
  rintro _ rfl
  refine parse_digits_ends ?_
  split
  next minus => exact lt_of_char minus (by decide)
  · exact hp

lemma someDigits_ends (msg : String) (hp : p.i ≤ str.length) : Traced.Ends (· ≤ str.length) (someDigits str msg p)
    (· = if !isDigit (char str p.i) then (false, p.fail (bytes msg)) else (true, JsonView.skipWhile str isDigit p)) := by
  refine (read_ends hp).bind ?_
  rintro _ rfl
  split
  · exact .pure rfl
  · refine (skipWhile_ends isDigit_zero hp (by omega)).bind ?_
    rintro _ rfl
    exact .pure rfl

lemma parse_fraction_ends (hp : p.i ≤ str.length) :
    Traced.Ends (· ≤ str.length) (parse_fraction str p) (· = JsonView.parse_fraction str p) := by
  rw [JsonView.parse_fraction]
  refine (read_ends hp).bind ?_
  rintro _ rfl
  split
  next point => exact someDigits_ends _ (lt_of_char point (by decide))
  · exact .pure rfl

lemma parse_exponent_ends (hp : p.i ≤ str.length) :
    Traced.Ends (· ≤ str.length) (parse_exponent str p) (· = JsonView.parse_exponent str p) := by
  rw [JsonView.parse_exponent]
  refine (read_ends hp).bind ?_
  rintro _ rfl
  split
  next mark =>
    have inside : (p.forth 1).i ≤ str.length := by
      obtain e | e := mark <;> exact lt_of_char e (by decide)
    refine (read_ends inside).bind ?_
    rintro _ rfl
    refine someDigits_ends _ ?_
    split
    next sign =>
      obtain e | e := sign <;> exact lt_of_char e (by decide)
    · exact inside
  · exact .pure rfl

lemma parse_number_ends (hp : p.i ≤ str.length) :
    Traced.Ends (· ≤ str.length) (parse_number str p) (· = JsonView.parse_number str p) := by
  have inside1 := (parse_integer_moves hp).1.inside
  have inside2 := (parse_fraction_moves inside1).inside
  rw [JsonView.parse_number]
  refine (parse_integer_ends hp).bind ?_
  rintro _ rfl
  dsimp only
  split
  · exact .pure rfl
  refine (read_ends inside1).bind ?_
  rintro _ rfl
  split
  · exact (cString_ends hp).bind fun _ _ => .pure rfl
  refine (parse_fraction_ends inside1).bind ?_
  rintro _ rfl
  split
  · exact .pure rfl
  refine (parse_exponent_ends inside2).bind ?_
  rintro _ rfl
  split
  · exact .pure rfl
  · exact (cString_ends hp).bind fun _ _ => .pure rfl

lemma expect_ends (expected : String) (hp : p.i ≤ str.length) :
    Traced.Ends (· ≤ str.length) (expect str expected p) fun _ => True := by
  refine (cString_ends (Nat.le_trans (Nat.sub_le _ _) hp)).bind fun _ _ => ?_
  split
  · exact .pure trivial
  · exact cString_ends (Nat.zero_le _)

end

end Accesses

/-! ## Calls -/

/-- The call that reads a string which is cut. -/
def Event.Cuts (e : Event) : Prop := ∃ p, e = .call .parse_string p ∧ Accesses.CutString (-1) (p.str.drop p.here.i)

namespace Accesses

section
variable {text : List UInt8} {inPlace : Bool}

/-- Only in a string that is cut it is read behind the text. -/
lemma access_ends (inPlace : Bool) {e : Event} (he : e.Sound text) :
    Traced.Ends (fun k => text.length < k → e.Cuts) (e.access inPlace) fun _ => True := by
  have nothing : Traced.Ends (fun k => text.length < k → e.Cuts) (pure () : M Unit) fun _ => True := .pure trivial
  have inside {α : Type} {m : M α} {P : α → Prop} {p : Parser} (hp : Steps.Inside text p) (h : Traced.Ends (· ≤ p.str.length) m P) :
      Traced.Ends (fun k => text.length < k → e.Cuts) m P := by
    refine h.mono fun k hk outside => ?_
    rw [hp.length] at hk
    exact absurd outside (Nat.not_lt_of_le hk)
  match e, he with
  | .call f p, he =>
    have hp : p.here.i ≤ p.str.length := he.length ▸ he.here
    cases f with
    | parse => exact inside he (cString_ends (Nat.zero_le _))
    | consume_whitespace =>
      exact (inside he (skipWhile_ends (by decide) hp (by omega))).bind fun _ _ => .pure trivial
    | consume_comment => exact (inside he (consume_comment_ends hp)).bind fun _ _ => .pure trivial
    | parse_key => exact (inside he (parse_key_ends inPlace hp)).bind fun _ _ => .pure trivial
    | parse_string =>
      have reads := stringLoop_ends hp (n := p.str.length + 1) (by omega) [] (-1)
      refine (reads.mono fun k hk outside => ⟨p, rfl, hk ?_⟩).bind fun _ _ => .pure trivial
      rw [he.length]
      exact outside
    | parse_number => exact (inside he (parse_number_ends hp)).bind fun _ _ => .pure trivial
    | expect =>
      show Traced.Ends _ (match word? (char p.str p.back.here.i) with
        | some expected => Accesses.expect p.str expected p.here
        | none => return ()) _
      cases word? (char p.str p.back.here.i) with
      | some expected => exact inside he (expect_ends expected hp)
      | none => exact nothing
    | _ => exact nothing
  | .ret f p q, he =>
    cases f with
    | get_next_token =>
      have hq : q.back.here.i ≤ q.str.length := he.1.length ▸ he.1.back.here
      show Traced.Ends _ (if q.failed then _ else _) _
      split
      · exact nothing
      · exact (inside he.1 (read_ends hq)).bind fun _ _ => .pure trivial
    | _ => exact nothing
  | .back _, _ => exact nothing

/-- In a string that is cut it is read behind the text. -/
lemma access_meets (inPlace : Bool) {e : Event} (he : e.Sound text) (hc : e.Cuts) :
    Traced.Meets (text.length < ·) (e.access inPlace) := by
  obtain ⟨p, rfl, t, out, h, spells, hs, short⟩ := hc
  have meets := stringLoop_meets spells short hs (p.str.length + 1) []
  rw [show p.str.length = text.length from he.length] at meets
  refine .first ?_ _
  rw [parse_string, show p.str.length = text.length from he.length]
  exact meets

lemma ofEvents_ends (inPlace : Bool) {es : List Event} (h : ∀ e ∈ es, e.Sound text) :
    Traced.Ends (fun k => text.length < k → ∃ e ∈ es, e.Cuts) (ofEvents inPlace es) fun _ => True := by
  induction es with
  | nil => exact .pure trivial
  | cons e es ih =>
    obtain ⟨first, rest⟩ := List.forall_mem_cons.1 h
    refine ((access_ends inPlace first).mono fun k hk outside => ⟨e, List.mem_cons_self, hk outside⟩).bind fun _ _ => ?_
    refine (ih rest).mono fun k hk outside => ?_
    obtain ⟨e', mem, cuts⟩ := hk outside
    exact ⟨e', List.mem_cons_of_mem _ mem, cuts⟩

lemma ofEvents_meets (inPlace : Bool) {es : List Event} (h : ∀ e ∈ es, e.Sound text) {e : Event} (he : e ∈ es) (hc : e.Cuts) :
    Traced.Meets (text.length < ·) (ofEvents inPlace es) := by
  induction es with
  | nil => cases he
  | cons e' es ih =>
    obtain ⟨first, rest⟩ := List.forall_mem_cons.1 h
    obtain rfl | he := List.mem_cons.1 he
    · exact .first (access_meets inPlace first hc) _
    · obtain ⟨r, ends, hr⟩ := (access_ends inPlace first).outcome
      cases r with
      | error x => cases x
      | ok a => exact .after ends (ih rest he)

/-- The parser comes to its end, and all that it reads and writes is in the text or its terminator. -/
def Inside (inPlace : Bool) (strategy : ParseMethod) (text : List UInt8) : Prop :=
  ∃ ks, accesses inPlace strategy text = some ks ∧ ∀ k ∈ ks, k ≤ text.length

/-- The text is left in a call that reads a string which is cut, and only there. -/
lemma inside_iff_events (inPlace : Bool) (strategy : ParseMethod) {r : Except Exn (Node × Parser)} {events : List Event}
    (h : (Steps.parse inPlace strategy text).results = some (r, events)) :
    Inside inPlace strategy text ↔ ∀ e ∈ events, ¬e.Cuts := by
  have sound : ∀ e ∈ events, e.Sound text := ((Steps.parse_ends strategy inPlace text).keeps r events h).2
  obtain ⟨x, ks, results, -, reads⟩ := ofEvents_ends inPlace sound
  have found : accesses inPlace strategy text = some ks := by
    simp only [accesses, h, results, Option.bind_eq_bind, Option.bind_some]
    rfl
  constructor
  · rintro ⟨ks', found', inside⟩ e he hc
    rw [found] at found'
    cases found'
    obtain ⟨k, hk, outside⟩ := ofEvents_meets inPlace sound he hc x ks results
    exact absurd (inside k hk) (Nat.not_le_of_lt outside)
  · intro uncut
    refine ⟨ks, found, fun k hk => Nat.le_of_not_lt fun outside => ?_⟩
    obtain ⟨e, he, hc⟩ := reads k hk outside
    exact uncut e he hc

end

end Accesses

end ArrowheadCore.Json.JsonCView
