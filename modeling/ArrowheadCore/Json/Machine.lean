import ArrowheadCore.Json.JsonParse

/-!
# The parser of gason on texts

The same parser without a buffer and without nodes. It reads the text from the left, a string is what its escapes stand
for, and an array or object that is open is the list of what is in it so far. `turn_matches` says that a turn of
`jsonParse` does what this one does, that its lists hold these values, and that nothing it writes is in front of the
text that is still to be read or in a string that was read before.
-/

namespace ArrowheadCore.Json.Gason
open Lib

/-! ## Tokens of a text -/

def afterSign (s : List UInt8) : List UInt8 := if s.headD 0 = '-'.toUInt8 then s.tail else s

def afterFraction (s : List UInt8) : List UInt8 := if s.headD 0 = '.'.toUInt8 then s.tail.dropWhile isdigit else s

def afterExponent (s : List UInt8) : List UInt8 :=
  if s.headD 0 = 'e'.toUInt8 ∨ s.headD 0 = 'E'.toUInt8 then
    (if s.tail.headD 0 = '+'.toUInt8 ∨ s.tail.headD 0 = '-'.toUInt8 then s.tail.tail else s.tail).dropWhile isdigit
  else s

/-- What is behind a number. -/
def afterNumber (s : List UInt8) : List UInt8 := afterExponent (afterFraction ((afterSign s).dropWhile isdigit))

/-- What a string stands for, and what is behind its quote if there is one; `none` for a byte that may not stand there. -/
def unescape : List UInt8 → Option (List UInt8 × Option (List UInt8))
  | [] => some ([], none)
  | c :: s =>
    if c = '\\'.toUInt8 then
      match s with
      | [] => none
      | d :: s =>
        match escaped d with
        | some e => (unescape s).map fun r => (e :: r.1, r.2)
        | none =>
          match s with
          | h1 :: h2 :: h3 :: h4 :: s =>
            if d = 'u'.toUInt8 ∧ [h1, h2, h3, h4].all isxdigit then
              (unescape s).map fun r => (utf8 (number 16 [h1, h2, h3, h4]) ++ r.1, r.2)
            else none
          | _ => none
    else if c < ' '.toUInt8 ∨ c = 0x7F then none
    else if c = '"'.toUInt8 then some ([], some s)
    else (unescape s).map fun r => (c :: r.1, r.2)

/-- A value and what is behind it; there is no text any more behind the NUL. -/
abbrev Token := Except JsonParseStatus (JsonValue × Option (List UInt8))

section
variable (toInt : List UInt8 → Int)

def readNumber (s : List UInt8) : Token :=
  if isdelim ((afterNumber s).headD 0) then
    .ok (.number (toInt (s.take (s.length - (afterNumber s).length))), some (afterNumber s))
  else .error .BAD_NUMBER

/-- A string; if it has no end, what was there before is still there behind what has been written. -/
def readString (s : List UInt8) : Token :=
  match unescape s with
  | none => .error .BAD_STRING
  | some (out, some rest) => if isdelim (rest.headD 0) then .ok (.string (cStr out), some rest) else .error .BAD_STRING
  | some (out, none) => .ok (.string (cStr (out ++ s.drop out.length)), some [])

def readIdentifier (name : List UInt8) (o : JsonValue) (n : Nat) (s : List UInt8) : Token :=
  if name.isPrefixOf s && isdelim ((s.drop name.length).headD 0) then
    .ok (o, if n ≤ s.length then some (s.drop n) else none)
  else .error .BAD_IDENTIFIER

/-! ## The stack -/

/-- An array or object that is open. -/
inductive Level where
  | array (items : List JsonValue)
  | object (members : List (List UInt8 × JsonValue)) (key : Option (List UInt8))

structure Machine where
  rest : Option (List UInt8)
  stack : List Level
  separator : Bool

abbrev Move := Option (Turn Machine (Option (JsonValue × Option (List UInt8))))

def refuses (status : JsonParseStatus) : Move := some (.stop status none)

def put (o : JsonValue) (m : Machine) : Move :=
  match m.stack with
  | [] => some (.stop .OK (some (o, m.rest)))
  | .array items :: ls => some (.next { m with stack := .array (items ++ [o]) :: ls, separator := false })
  | .object ms none :: ls =>
    match o with
    | .string k => some (.next { m with stack := .object ms (some k) :: ls, separator := false })
    | _ => refuses .UNQUOTED_KEY
  | .object ms (some k) :: ls => some (.next { m with stack := .object (ms ++ [(k, o)]) none :: ls, separator := false })

def openLevel (level : Level) (m : Machine) : Move :=
  if m.stack.length = JSON_STACK_SIZE then refuses .STACK_OVERFLOW
  else some (.next { m with stack := level :: m.stack, separator := true })

def closeArray (m : Machine) : Move :=
  match m.stack with
  | [] => refuses .STACK_UNDERFLOW
  | .array items :: ls => put (.array items) { m with stack := ls }
  | .object _ _ :: _ => refuses .MISMATCH_BRACKET

def closeObject (m : Machine) : Move :=
  match m.stack with
  | [] => refuses .STACK_UNDERFLOW
  | .array _ :: _ => refuses .MISMATCH_BRACKET
  | .object ms none :: ls => put (.object ms) { m with stack := ls }
  | .object _ (some _) :: _ => refuses .UNEXPECTED_CHARACTER

def Level.keyed : Level → Bool
  | .array _ => false
  | .object _ key => key.isSome

def separated (keyed : Bool) (m : Machine) : Move :=
  if m.separator then refuses .UNEXPECTED_CHARACTER
  else
    match m.stack with
    | [] => none
    | l :: _ => if l.keyed ≠ keyed then refuses .UNEXPECTED_CHARACTER else some (.next { m with separator := true })

def taken (m : Machine) (t : Token) : Move :=
  match t with
  | .error status => refuses status
  | .ok (o, rest) => put o { m with rest }

/-- The turn at the first byte that is no blank. -/
def dispatch (m : Machine) (c : UInt8) (s : List UInt8) : Move :=
  if c = '-'.toUInt8 then
    if !isdigit (s.headD 0) && s.headD 0 ≠ '.'.toUInt8 then refuses .BAD_NUMBER else taken m (readNumber toInt (c :: s))
  else if isdigit c then taken m (readNumber toInt (c :: s))
  else if c = '"'.toUInt8 then taken m (readString s)
  else if c = 't'.toUInt8 then taken m (readIdentifier (bytes "rue") .true 3 s)
  else if c = 'f'.toUInt8 then taken m (readIdentifier (bytes "alse") .false 4 s)
  else if c = 'n'.toUInt8 then taken m (readIdentifier (bytes "ull") .false 4 s)
  else if c = ']'.toUInt8 then closeArray { m with rest := some s }
  else if c = '}'.toUInt8 then closeObject { m with rest := some s }
  else if c = '['.toUInt8 then openLevel (.array []) { m with rest := some s }
  else if c = '{'.toUInt8 then openLevel (.object [] none) { m with rest := some s }
  else if c = ':'.toUInt8 then separated true { m with rest := some s }
  else if c = ','.toUInt8 then separated false { m with rest := some s }
  else refuses .UNEXPECTED_CHARACTER

def move (m : Machine) : Move :=
  match m.rest with
  | none => none
  | some [] => refuses .BREAKING_BAD
  | some (c :: s) =>
    match (c :: s).dropWhile isspace with
    | [] => some (.next { m with rest := none })
    | c :: s => dispatch toInt m c s

def parse (text : List UInt8) : Option (JsonParseStatus × Option (JsonValue × Option (List UInt8))) :=
  run (move toInt) (text.length + 1) ⟨some text, [], true⟩

end

/-! ## Positions -/

/-- The position is in front of this text, which goes to the end of the buffer. -/
def At (buf : List UInt8) (i : Nat) (s : List UInt8) : Prop := buf.drop i = s ++ [0] ∧ 0 ∉ s

/-- The position is in front of this text, or behind the NUL. -/
def Cursor (buf : List UInt8) (i : Nat) : Option (List UInt8) → Prop
  | some s => At buf i s
  | none => i = buf.length

section
variable {buf : List UInt8} {i j n : Nat} {r s w : List UInt8} {c : UInt8} {f : UInt8 → Bool}

lemma At.get (h : At buf i s) : buf[i]? = some (s.headD 0) := by
  have := congrArg (·[0]?) h.1
  simp only [List.getElem?_drop, Nat.add_zero] at this
  rw [this]
  cases s <;> rfl

lemma At.length (h : At buf i s) : buf.length = i + s.length + 1 := by
  have := congrArg List.length h.1
  rw [List.length_drop, List.length_append, List.length_singleton] at this
  omega

lemma At.append (h : At buf i (w ++ s)) : At buf (i + w.length) s := by
  refine ⟨?_, fun h0 => h.2 (List.mem_append_right w h0)⟩
  rw [← List.drop_drop, h.1, List.append_assoc, List.drop_left]

lemma At.cons (h : At buf i (c :: s)) : At buf (i + 1) s := At.append (w := [c]) h

lemma At.tail (h : At buf i s) (hc : s.headD 0 ≠ 0) : At buf (i + 1) s.tail := by
  cases s with
  | nil => exact absurd rfl hc
  | cons c s => exact h.cons

lemma At.end (h : At buf i []) : buf[i + 1]? = none := by
  have := h.length
  rw [List.getElem?_eq_none_iff, this]
  simp

/-- Two positions are as far apart as what is behind them. -/
lemma At.apart (h : At buf i (w ++ s)) (h' : At buf j s) : j = i + w.length := by
  have := h.length
  have := h'.length
  rw [List.length_append] at *
  omega

lemma At.between (h : At buf i (w ++ s)) (h' : At buf j s) : (buf.take j).drop i = w := by
  rw [h.apart h', List.drop_take, Nat.add_sub_cancel_left, h.1, List.append_assoc, List.take_left]

lemma dropWhile_nul (hf : f 0 = false) (s : List UInt8) : (s ++ [0]).dropWhile f = s.dropWhile f ++ [0] := by
  rw [List.dropWhile_append]
  split
  next e => simp [List.isEmpty_iff.1 e, hf]
  next => rfl

lemma At.skip (h : At buf i s) (hf : f 0 = false) : ∃ j, skip f buf i = some j ∧ At buf j (s.dropWhile f) := by
  have split : s = s.takeWhile f ++ s.dropWhile f := (List.takeWhile_append_dropWhile).symm
  have at_ : At buf i (s.takeWhile f ++ s.dropWhile f) := split ▸ h
  refine ⟨i + (s.takeWhile f).length, ?_, at_.append⟩
  have length := at_.length
  rw [List.length_append] at length
  rw [Gason.skip, h.1, dropWhile_nul hf]
  cases e : s.dropWhile f ++ [0] with
  | nil => simp at e
  | cons c rest =>
    have := congrArg List.length e
    rw [List.length_append, List.length_singleton] at this
    simp only [Option.some.injEq]
    omega

lemma headD_ne_zero {d : UInt8} (h : s.headD 0 = d) (hd : d ≠ 0) : s.headD 0 ≠ 0 := h ▸ hd

/-! ## Numbers -/

lemma afterSign_suffix (s : List UInt8) : afterSign s <:+ s := by
  unfold afterSign
  split
  · exact List.tail_suffix s
  · exact List.suffix_refl s

lemma afterFraction_suffix (s : List UInt8) : afterFraction s <:+ s := by
  unfold afterFraction
  split
  · exact (List.dropWhile_suffix _).trans (List.tail_suffix s)
  · exact List.suffix_refl s

lemma afterExponent_suffix (s : List UInt8) : afterExponent s <:+ s := by
  unfold afterExponent
  split
  · refine (List.dropWhile_suffix _).trans ?_
    split
    · exact (List.tail_suffix _).trans (List.tail_suffix s)
    · exact List.tail_suffix s
  · exact List.suffix_refl s

lemma afterNumber_suffix (s : List UInt8) : afterNumber s <:+ s :=
  (afterExponent_suffix _).trans ((afterFraction_suffix _).trans ((List.dropWhile_suffix _).trans (afterSign_suffix s)))

lemma At.afterSign (h : At buf i s) : At buf (if s.headD 0 = '-'.toUInt8 then i + 1 else i) (afterSign s) := by
  unfold Gason.afterSign
  split
  next minus => exact h.tail (headD_ne_zero minus (by decide))
  next => exact h

lemma skipFraction_at (h : At buf i s) : ∃ j, skipFraction buf i = some j ∧ At buf j (afterFraction s) := by
  rw [skipFraction, h.get, afterFraction, Option.bind_eq_bind, Option.bind_some]
  split
  next point => exact (h.tail (headD_ne_zero point (by decide))).skip rfl
  next => exact ⟨i, rfl, h⟩

lemma skipExponent_at (h : At buf i s) : ∃ j, skipExponent buf i = some j ∧ At buf j (afterExponent s) := by
  rw [skipExponent, h.get, afterExponent, Option.bind_eq_bind, Option.bind_some]
  split
  next mark =>
    have h1 := h.tail (by rcases mark with mark | mark <;> exact headD_ne_zero mark (by decide))
    rw [h1.get, Option.bind_some]
    split
    next sign => exact (h1.tail (by rcases sign with sign | sign <;> exact headD_ne_zero sign (by decide))).skip rfl
    next => exact h1.skip rfl
  next => exact ⟨i, rfl, h⟩

lemma string2double_at (h : At buf i s) : ∃ j, string2double buf i = some j ∧ At buf j (afterNumber s) := by
  obtain ⟨i1, e1, h1⟩ := h.afterSign.skip (f := isdigit) rfl
  obtain ⟨i2, e2, h2⟩ := skipFraction_at h1
  obtain ⟨i3, e3, h3⟩ := skipExponent_at h2
  refine ⟨i3, ?_, h3⟩
  rw [string2double, h.get]
  simp only [Option.bind_eq_bind, Option.bind_some, e1, e2, e3]

/-! ## Strings -/

lemma write_at (a x t u : List UInt8) (h : u.length ≤ x.length) :
    write (a ++ (x ++ t)) a.length u = some (a ++ (u ++ (x.drop u.length ++ t))) := by
  induction u generalizing a x with
  | nil => simp [write]
  | cons c cs ih =>
    cases x with
    | nil => simp at h
    | cons y ys =>
      have := ih (a ++ [c]) ys (by simpa using h)
      rw [List.length_append, List.length_singleton, List.append_assoc] at this
      simp only [write, List.length_append, List.cons_append, List.length_cons, List.set_append_right, Nat.le_refl,
        Nat.sub_self, List.set_cons_zero, List.drop_succ_cons]
      rw [if_pos (by omega)]
      simpa using this

/-- Up to `n` digits are read, as far as they are there. -/
lemma hexLoop_at (h : At buf (i + 1) s) (n : Nat) (ds : List UInt8) :
    if n ≤ s.length ∧ (s.take n).all isxdigit then hexLoop buf n i ds = some (.ok (ds ++ s.take n, i + n))
    else ∃ e, hexLoop buf n i ds = some (.error e) := by
  induction n generalizing i s ds with
  | zero => simp [hexLoop]
  | succ n ih =>
    rw [hexLoop, h.get]
    cases s with
    | nil => exact ⟨i + 1, rfl⟩
    | cons c s =>
      simp only [Option.bind_eq_bind, Option.bind_some, List.headD_cons, List.length_cons, Nat.add_le_add_iff_right,
        List.take_succ_cons, List.all_cons, Bool.and_eq_true]
      cases hc : isxdigit c with
      | false => simp
      | true =>
        have := ih h.cons (ds ++ [c])
        simpa [Nat.add_assoc, Nat.add_comm 1 n] using this

lemma utf8_length (c : Nat) : 1 ≤ (utf8 c).length ∧ (utf8 c).length ≤ 3 := by
  unfold utf8
  split
  · simp
  · split <;> simp

end

/-- What the loop makes of the text `r`, between `a` and `r` there being the gap `g`: an error, a string with a NUL behind it,
    or a string that goes on with what is left of the gap and the text. -/
def StringEnds (a g r : List UInt8) (result : Option (Except Nat (List UInt8 × Nat))) :
    Option (List UInt8 × Option (List UInt8)) → Prop
  | none => ∃ e, result = some (.error e)
  | some (out, some rest) => ∃ left e, result = some (.ok (a ++ (out ++ 0 :: (left ++ (rest ++ [0]))), e)) ∧
    e = a.length + out.length + 1 + left.length ∧ rest <:+ r
  | some (out, none) => ∃ e, result = some (.ok (a ++ (out ++ ((g ++ r).drop out.length ++ [0])), e)) ∧
    e = a.length + g.length + r.length ∧ out.length ≤ g.length + r.length

section
variable {a g g' r s u v : List UInt8} {result : Option (Except Nat (List UInt8 × Nat))} {c d : UInt8} {n : Nat}

/-- The bytes `u` have been written for the bytes `v`. -/
lemma StringEnds.step (hg : g' = (g ++ v).drop u.length) (hu : u.length ≤ (g ++ v).length)
    {x : Option (List UInt8 × Option (List UInt8))} (h : StringEnds (a ++ u) g' s result x) :
    StringEnds a g (v ++ s) result (x.map fun r => (u ++ r.1, r.2)) := by
  have length := congrArg List.length hg
  rw [List.length_drop, List.length_append] at length
  rw [List.length_append] at hu
  match x, h with
  | none, h => exact h
  | some (out, some rest), ⟨left, e, hr, he, hs⟩ =>
    refine ⟨left, e, ?_, ?_, hs.trans (List.suffix_append v s)⟩
    · rw [hr]
      simp
    · rw [he]
      simp only [List.length_append]
      omega
  | some (out, none), ⟨e, hr, he, hl⟩ =>
    have covers : u.length ≤ (g ++ v).length := by rwa [List.length_append]
    refine ⟨e, ?_, ?_, ?_⟩
    · rw [hr, hg, List.length_append, ← List.append_assoc g v s, ← List.drop_drop, List.drop_append_of_le_length covers]
      simp
    · rw [he]
      simp only [List.length_append]
      omega
    · simp only [List.length_append]
      omega

/-- What the loop does first with a byte of the string: `*it = *s`. -/
lemma write_first (a g r : List UInt8) (c : UInt8) :
    write (a ++ (g ++ (c :: r ++ [0]))) a.length [c] = some (a ++ (c :: ((g ++ [c]).drop 1 ++ (r ++ [0])))) := by
  have := write_at a (g ++ [c]) (r ++ [0]) [c] (by simp)
  simpa using this

lemma gap_length (g : List UInt8) (c : UInt8) : ((g ++ [c]).drop 1).length = g.length := by simp

lemma get_at (a g r : List UInt8) : (a ++ (g ++ (r ++ [0])))[a.length + g.length]? = some (r.headD 0) := by
  rw [List.getElem?_append_right (by omega), Nat.add_sub_cancel_left, List.getElem?_append_right (Nat.le_refl _), Nat.sub_self]
  cases r <;> rfl

lemma at_gap (a g : List UInt8) (hr : 0 ∉ r) : At (a ++ (g ++ (r ++ [0]))) (a.length + g.length) r := by
  refine ⟨?_, hr⟩
  rw [← List.drop_drop, List.drop_left, List.drop_left]

/-- The loop goes on behind `v`, for which it has written `u`. -/
lemma stringLoop_step {buf : List UInt8} {it s' : Nat} (run : stringLoop (n + 1) (a ++ (g ++ (v ++ s ++ [0]))) a.length
      (a.length + g.length) = stringLoop n buf it s')
    (hb : buf = a ++ (u ++ ((g ++ v).drop u.length ++ (s ++ [0])))) (hu : u.length ≤ (g ++ v).length)
    (hit : it = a.length + u.length) (hs : s' = a.length + g.length + v.length)
    (ih : StringEnds (a ++ u) ((g ++ v).drop u.length) s
      (stringLoop n ((a ++ u) ++ ((g ++ v).drop u.length ++ (s ++ [0]))) (a ++ u).length
        ((a ++ u).length + ((g ++ v).drop u.length).length)) (unescape s)) :
    StringEnds a g (v ++ s) (stringLoop (n + 1) (a ++ (g ++ (v ++ s ++ [0]))) a.length (a.length + g.length))
      ((unescape s).map fun r => (u ++ r.1, r.2)) := by
  refine StringEnds.step rfl hu ?_
  have position : (a ++ u).length + ((g ++ v).drop u.length).length = s' := by
    rw [List.length_append] at hu
    rw [List.length_append, List.length_drop, List.length_append]
    omega
  rw [position, List.append_assoc a u, List.length_append] at ih
  rwa [run, hb, hit]

/-- Where the loop looks next. -/
lemma at_first (a g : List UInt8) (hr : 0 ∉ r) (c : UInt8) :
    At (a ++ (c :: ((g ++ [c]).drop 1 ++ (r ++ [0])))) (a.length + g.length + 1) r := by
  have := at_gap (a ++ [c]) ((g ++ [c]).drop 1) hr
  rw [gap_length, List.length_append, List.length_singleton, Nat.add_right_comm] at this
  simpa using this

/-- The first byte is written again if there is an escape. -/
lemma write_again (a g v s u : List UInt8) (c : UInt8) (h1 : 1 ≤ u.length) (hu : u.length ≤ v.length + 1) :
    write (a ++ (c :: ((g ++ [c]).drop 1 ++ (v ++ s ++ [0])))) a.length u =
      some (a ++ (u ++ ((g ++ c :: v).drop u.length ++ (s ++ [0])))) := by
  have behind : (c :: ((g ++ [c]).drop 1 ++ v)).drop u.length = (g ++ c :: v).drop u.length := by
    obtain ⟨k, hk⟩ := Nat.exists_eq_add_of_le' h1
    rw [hk, List.drop_succ_cons, ← List.drop_append_of_le_length (by simp), List.drop_drop, Nat.add_comm]
    simp
  have := write_at a (c :: ((g ++ [c]).drop 1 ++ v)) (s ++ [0]) u (by simp; omega)
  rw [behind] at this
  simpa using this

lemma stringLoop_escaped {e : UInt8} (hr : 0 ∉ d :: s) (he : escaped d = some e) :
    stringLoop (n + 1) (a ++ (g ++ ('\\'.toUInt8 :: d :: s ++ [0]))) a.length (a.length + g.length) =
      stringLoop n (a ++ ([e] ++ ((g ++ ['\\'.toUInt8, d]).drop 1 ++ (s ++ [0])))) (a.length + 1) (a.length + g.length + 2) := by
  have again := write_again a g [d] s [e] '\\'.toUInt8 (by simp) (by simp)
  rw [stringLoop, get_at, List.headD_cons, Option.bind_eq_bind, Option.bind_some, if_neg (by decide), write_first]
  simp only [Option.bind_eq_bind, Option.bind_some, if_pos, (at_first a g hr _).get, List.headD_cons, he]
  rw [show d :: s ++ [0] = [d] ++ s ++ [0] by simp, again]
  rfl

lemma stringLoop_hex {h1 h2 h3 h4 : UInt8} (hr : 0 ∉ d :: h1 :: h2 :: h3 :: h4 :: s) (he : escaped d = none)
    (hu : d = 'u'.toUInt8 ∧ [h1, h2, h3, h4].all isxdigit) :
    stringLoop (n + 1) (a ++ (g ++ ('\\'.toUInt8 :: d :: h1 :: h2 :: h3 :: h4 :: s ++ [0]))) a.length (a.length + g.length) =
      stringLoop n (a ++ (utf8 (number 16 [h1, h2, h3, h4]) ++ ((g ++ ['\\'.toUInt8, d, h1, h2, h3, h4]).drop
        (utf8 (number 16 [h1, h2, h3, h4])).length ++ (s ++ [0])))) (a.length + (utf8 (number 16 [h1, h2, h3, h4])).length)
        (a.length + g.length + 6) := by
  obtain ⟨rfl, hx⟩ := hu
  obtain ⟨least, most⟩ := utf8_length (number 16 [h1, h2, h3, h4])
  have again := write_again a g ['u'.toUInt8, h1, h2, h3, h4] s (utf8 (number 16 [h1, h2, h3, h4])) '\\'.toUInt8
    least (by simp; omega)
  have digits := hexLoop_at (at_first a g hr '\\'.toUInt8).cons 4 []
  rw [if_pos ⟨by simp, by simpa using hx⟩] at digits
  rw [stringLoop, get_at, List.headD_cons, Option.bind_eq_bind, Option.bind_some, if_neg (by decide), write_first]
  simp only [Option.bind_eq_bind, Option.bind_some, if_pos, (at_first a g hr _).get, List.headD_cons, he, ne_eq,
    not_true_eq_false, if_false]
  rw [digits]
  simp only [Option.bind_some, List.nil_append, List.take_succ_cons, List.take_zero]
  rw [show 'u'.toUInt8 :: h1 :: h2 :: h3 :: h4 :: s ++ [0] = ['u'.toUInt8, h1, h2, h3, h4] ++ s ++ [0] by simp, again]
  rfl

/-- A backslash with nothing behind it that it could stand in front of. -/
lemma stringLoop_refused (hr : 0 ∉ d :: s) (he : escaped d = none)
    (hu : ¬(d = 'u'.toUInt8 ∧ 4 ≤ s.length ∧ (s.take 4).all isxdigit)) :
    ∃ e, stringLoop (n + 1) (a ++ (g ++ ('\\'.toUInt8 :: d :: s ++ [0]))) a.length (a.length + g.length) = some (.error e) := by
  rw [stringLoop, get_at, List.headD_cons, Option.bind_eq_bind, Option.bind_some, if_neg (by decide), write_first]
  simp only [Option.bind_eq_bind, Option.bind_some, if_pos, (at_first a g hr _).get, List.headD_cons, he]
  by_cases letter : d = 'u'.toUInt8
  · have digits := hexLoop_at (at_first a g hr '\\'.toUInt8).cons 4 []
    rw [if_neg fun h => hu ⟨letter, h⟩] at digits
    obtain ⟨e, digits⟩ := digits
    rw [if_neg (not_not.2 letter), digits]
    exact ⟨e, rfl⟩
  · rw [if_pos letter]
    exact ⟨_, rfl⟩

/-- A byte that stands for itself, or may not stand there, or ends the string. -/
lemma stringLoop_byte (hr : 0 ∉ c :: s) (hc : c ≠ '\\'.toUInt8) :
    stringLoop (n + 1) (a ++ (g ++ (c :: s ++ [0]))) a.length (a.length + g.length) =
      if c < ' '.toUInt8 ∨ c = 0x7F then some (.error (a.length + g.length))
      else if c = '"'.toUInt8 then some (.ok (a ++ (0 :: ((g ++ [c]).drop 1 ++ (s ++ [0]))), a.length + g.length + 1))
      else stringLoop n (a ++ ([c] ++ ((g ++ [c]).drop 1 ++ (s ++ [0])))) (a.length + 1) (a.length + g.length + 1) := by
  have again := write_again a g [] s [0] c (by simp) (by simp)
  have c0 : c ≠ 0 := fun h => hr (by simp [h])
  rw [stringLoop, get_at, List.headD_cons, Option.bind_eq_bind, Option.bind_some, if_neg c0, write_first]
  simp only [Option.bind_eq_bind, Option.bind_some, if_neg hc]
  rw [show (s ++ [0] : List UInt8) = [] ++ s ++ [0] by simp, again]
  rfl

/-- The loop makes of a text what `unescape` does. -/
lemma stringLoop_at (hr : 0 ∉ r) (hn : r.length < n) (a g : List UInt8) :
    StringEnds a g r (stringLoop n (a ++ (g ++ (r ++ [0]))) a.length (a.length + g.length)) (unescape r) := by
  induction r using unescape.induct generalizing n a g with
  | case1 =>
    obtain ⟨n, rfl⟩ := Nat.exists_eq_add_of_lt hn
    refine ⟨_, ?_, rfl, by simp⟩
    rw [List.length_nil, Nat.zero_add, stringLoop, get_at]
    simp
  | case2 =>
    obtain ⟨n, rfl⟩ := Nat.exists_eq_add_of_lt hn
    rw [stringLoop, get_at, List.headD_cons, Option.bind_eq_bind, Option.bind_some, if_neg (by decide), write_first]
    simp only [Option.bind_eq_bind, Option.bind_some, if_pos, (at_first a g (r := []) (by simp) _).get, List.headD_nil]
    exact ⟨_, rfl⟩
  | case3 d s e he ih =>
    obtain ⟨n, rfl⟩ : ∃ m, n = m + 1 := ⟨n - 1, by simp at hn; omega⟩
    rw [List.mem_cons, not_or] at hr
    have tail : 0 ∉ s := fun h => hr.2 (by simp [h])
    have := stringLoop_step (v := ['\\'.toUInt8, d]) (u := [e]) (stringLoop_escaped hr.2 he) rfl (by simp) rfl (by simp)
      (ih (n := n) tail (by simp at hn; omega) (a ++ [e]) ((g ++ ['\\'.toUInt8, d]).drop 1))
    rw [unescape.eq_def]
    simp only [if_pos, he]
    exact this
  | case4 d he h1 h2 h3 h4 s hu ih =>
    obtain ⟨n, rfl⟩ : ∃ m, n = m + 1 := ⟨n - 1, by simp at hn; omega⟩
    rw [List.mem_cons, not_or] at hr
    have tail : 0 ∉ s := fun h => hr.2 (by simp [h])
    have length := (utf8_length (number 16 [h1, h2, h3, h4])).2
    have := stringLoop_step (a := a) (g := g) (v := ['\\'.toUInt8, d, h1, h2, h3, h4]) (stringLoop_hex hr.2 he hu) rfl (by simp; omega) rfl (by simp)
      (ih (n := n) tail (by simp at hn; omega) _ _)
    rw [unescape, if_pos rfl, he]
    simp only [if_pos hu]
    exact this
  | case5 d he h1 h2 h3 h4 s hu =>
    obtain ⟨n, rfl⟩ : ∃ m, n = m + 1 := ⟨n - 1, by simp at hn; omega⟩
    rw [List.mem_cons, not_or] at hr
    have := stringLoop_refused (n := n) (a := a) (g := g) hr.2 he fun h => hu ⟨h.1, by simpa using h.2.2⟩
    rw [unescape, if_pos rfl, he]
    simp only [if_neg hu]
    exact this
  | case6 d s he short =>
    obtain ⟨n, rfl⟩ : ∃ m, n = m + 1 := ⟨n - 1, by simp at hn; omega⟩
    rw [List.mem_cons, not_or] at hr
    have := stringLoop_refused (n := n) (a := a) (g := g) hr.2 he fun h => by
      obtain ⟨-, long, -⟩ := h
      rcases s with _ | ⟨h1, _ | ⟨h2, _ | ⟨h3, _ | ⟨h4, s⟩⟩⟩⟩
      all_goals first | exact short h1 h2 h3 h4 s rfl | simp at long
    have none_ : unescape ('\\'.toUInt8 :: d :: s) = none := by
      rw [unescape.eq_def]
      simp only [if_pos, he]
    rw [none_]
    exact this
  | case7 c s hc bad =>
    obtain ⟨n, rfl⟩ : ∃ m, n = m + 1 := ⟨n - 1, by simp at hn; omega⟩
    rw [stringLoop_byte hr hc, if_pos bad, unescape.eq_def]
    simp only [if_neg hc, if_pos bad]
    exact ⟨_, rfl⟩
  | case8 s hc good =>
    obtain ⟨n, rfl⟩ : ∃ m, n = m + 1 := ⟨n - 1, by simp at hn; omega⟩
    rw [stringLoop_byte hr hc, if_neg good, if_pos rfl, unescape.eq_def]
    simp only [if_neg hc, if_neg good, if_pos]
    exact ⟨_, _, rfl, by rw [gap_length, List.length_nil]; omega, List.suffix_cons _ s⟩
  | case9 c s hc good quote ih =>
    obtain ⟨n, rfl⟩ : ∃ m, n = m + 1 := ⟨n - 1, by simp at hn; omega⟩
    have tail : 0 ∉ s := fun h => hr (by simp [h])
    have run := stringLoop_byte (n := n) (a := a) (g := g) hr hc
    rw [if_neg good, if_neg quote] at run
    have := stringLoop_step (v := [c]) (u := [c]) run rfl (by simp) rfl (by simp)
      (ih (n := n) tail (by simpa using hn) (a ++ [c]) ((g ++ [c]).drop 1))
    rw [unescape.eq_def]
    simp only [if_neg hc, if_neg good, if_neg quote]
    exact this

end

end ArrowheadCore.Json.Gason
