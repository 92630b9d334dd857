import ArrowheadCore.Utils.ParseOpt

/-!
# INI files

Embedding of `INIFile` (`utils/inifile.h`, `utils/inifile.cpp`): `parse` files the lines under the section of the last header,
one behind the other with a blank between them, and `options` reads all that is there at once.
-/

namespace ArrowheadCore.Utils
open Lib

/-- C++ `INIFile`; without a file that is open, `file` is `none`. -/
structure INIFile where
  file : Option (List UInt8) := none
  values : INIFile.Options := ∅

namespace INIFile

abbrev Line := List UInt8

def newline : UInt8 := 10

/-- C `isblank` -/
def isblank (c : UInt8) : Bool := c = 32 ∨ c = 9

/-- What `std::getline` gives, one after another: there is no line behind a newline at the end. -/
def getlines (file : List UInt8) : List Line :=
  let parts := file.splitOn newline
  if parts.getLast? = some [] then parts.dropLast else parts

/-- C++ `values[section]` -/
def text (values : Options) (section_ : List UInt8) : List UInt8 := (values.lookup section_).getD []

def appendTo (values : Options) (section_ conf : List UInt8) : Options :=
  let val := text values section_
  values.insert section_ ((if val = [] then val else val ++ bytes " ") ++ conf)

def prependTo (values : Options) (section_ conf : List UInt8) : Options :=
  let val := text values section_
  values.insert section_ (conf ++ if val = [] then val else bytes " " ++ val)

/-- Comments and empty lines. -/
def isSkipped (line : Line) : Bool :=
  line.getD 0 0 = ';'.toUInt8 || line.isEmpty || (line.getD 0 0 = '#'.toUInt8 && line.getD 1 0 = ' '.toUInt8)

/-- What is behind the bracket of a section tag; `none` when `parse` returns `false`. -/
def headerLoop (gr : List UInt8) (check : Bool) : List UInt8 → Option (List UInt8)
  | [] => if !check then none else some gr
  | c :: s =>
    if check && (c = '#'.toUInt8 || c ≠ ';'.toUInt8) then some gr
    else if check && !isblank c then none
    else if c = ']'.toUInt8 then headerLoop gr true s
    else headerLoop (gr ++ [c]) check s

/-- Whether the lines of a section are wanted. -/
def wanted (section_ : Option (List UInt8)) (gr : List UInt8) : Bool := section_.all fun s => gr = cStr s

def parseLoop (section_ : Option (List UInt8)) (collect : Bool) (gr : List UInt8) (values : Options) :
    List Line → Bool × Options
  | [] => (true, values)
  | line :: rest =>
    if isSkipped line then parseLoop section_ collect gr values rest
    else if line.getD 0 0 = '['.toUInt8 then
      match headerLoop [] false line.tail with
      | none => (false, values)
      | some gr => parseLoop section_ (wanted section_ gr) gr values rest
    else if collect then parseLoop section_ collect gr (appendTo values gr line) rest
    else parseLoop section_ collect gr values rest

/-- `none` is an exception. -/
def parse (ini : INIFile) (section_ : Option (List UInt8)) (strict : Bool) : Option (Bool × INIFile) :=
  ini.file.map fun file =>
    let r := parseLoop section_ (section_.isNone || !strict) [] ini.values (getlines file)
    (r.1, { ini with values := r.2 })

def append (ini : INIFile) (section_ conf : List UInt8) : INIFile := { ini with values := appendTo ini.values section_ conf }

def prepend (ini : INIFile) (section_ conf : List UInt8) : INIFile := { ini with values := prependTo ini.values section_ conf }

def options (ini : INIFile) (section_ : List UInt8) : Option Options := parse_opt (text ini.values section_)

example : getlines (bytes "a\n\nb\n") = [bytes "a", [], bytes "b"] ∧ headerLoop [] false (bytes "s] # t") = some (bytes "s") := by
  decide

/-! ## Section headers -/

/-- Blanks, and a comment if there is one. -/
def IsTail (t : List UInt8) : Prop :=
  ∃ blanks comment, t = blanks ++ comment ∧ (∀ c ∈ blanks, isblank c) ∧
    (comment = [] ∨ comment.head? = some '#'.toUInt8 ∨ comment.head? = some ';'.toUInt8)

/-- The line is the header of a section. -/
def IsHeader (line : Line) (s : List UInt8) : Prop :=
  ∃ t, line = '['.toUInt8 :: (s ++ ']'.toUInt8 :: t) ∧ ']'.toUInt8 ∉ s ∧ IsTail t

/-- What is to become of the lines, from a section and the values on: the return value, and the values at the end. -/
inductive Files (section_ : Option (List UInt8)) :
    Bool → List UInt8 → Options → List Line → Bool × Options → Prop
  | done {collect gr values} : Files section_ collect gr values [] (true, values)
  | skipped {collect gr values line rest r} : isSkipped line → Files section_ collect gr values rest r →
    Files section_ collect gr values (line :: rest) r
  | header {collect gr values line rest r s} : IsHeader line s → Files section_ (wanted section_ s) s values rest r →
    Files section_ collect gr values (line :: rest) r
  | malformed {collect gr values line rest} : line.head? = some '['.toUInt8 → (∀ s, ¬IsHeader line s) →
    Files section_ collect gr values (line :: rest) (false, values)
  | key {gr values line rest r} : isSkipped line = false → line.head? ≠ some '['.toUInt8 →
    Files section_ true gr (appendTo values gr line) rest r → Files section_ true gr values (line :: rest) r
  | unwanted {gr values line rest r} : isSkipped line = false → line.head? ≠ some '['.toUInt8 →
    Files section_ false gr values rest r → Files section_ false gr values (line :: rest) r

/-- A line that the scanner takes for what it is: the bracket is not closed, or what is behind it is blank or a comment and
    does not begin with a semicolon. -/
def Plain (line : Line) : Prop :=
  ∀ s t, line = '['.toUInt8 :: (s ++ ']'.toUInt8 :: t) → ']'.toUInt8 ∉ s → IsTail t ∧ t.head? ≠ some ';'.toUInt8

/-- The lines with a bracket are plain, up to the first that is no header. -/
def Orderly : List Line → Prop
  | [] => True
  | line :: rest => (line.head? = some '['.toUInt8 → Plain line) ∧
    ((line.head? = some '['.toUInt8 → ∃ s, IsHeader line s) → Orderly rest)

section
variable {section_ : Option (List UInt8)} {collect : Bool} {gr s t : List UInt8} {values : Options} {line : Line}
  {lines rest : List Line} {r : Bool × Options}

lemma headerLoop_open (h : ']'.toUInt8 ∉ s) (gr : List UInt8) : headerLoop gr false s = none := by
  induction s generalizing gr with
  | nil => rfl
  | cons c s ih =>
    obtain ⟨hc, hs⟩ := not_or.1 (mt List.mem_cons.2 h)
    simp only [headerLoop, Bool.false_and, Bool.false_eq_true, if_false, Ne.symm hc]
    exact ih hs _

lemma headerLoop_closed (h : ']'.toUInt8 ∉ s) (gr t : List UInt8) :
    headerLoop gr false (s ++ ']'.toUInt8 :: t) = if t.head? = some ';'.toUInt8 then none else some (gr ++ s) := by
  induction s generalizing gr with
  | nil =>
    cases t with
    | nil => simp [headerLoop]
    | cons c t =>
      by_cases semicolon : c = ';'.toUInt8
      · subst semicolon
        simp [headerLoop, show ';'.toUInt8 ≠ '#'.toUInt8 by decide, show isblank ';'.toUInt8 = false by decide]
      · simp [headerLoop, semicolon]
  | cons c s ih =>
    obtain ⟨hc, hs⟩ := not_or.1 (mt List.mem_cons.2 h)
    rw [List.cons_append]
    simp only [headerLoop, Bool.false_and, Bool.false_eq_true, if_false, Ne.symm hc]
    rw [ih hs, List.append_assoc, List.singleton_append]

/-- A section has one name. -/
lemma IsHeader.scanned (h : IsHeader line s) :
    ∃ t, line.tail = s ++ ']'.toUInt8 :: t ∧ IsTail t ∧
      headerLoop [] false line.tail = if t.head? = some ';'.toUInt8 then none else some s := by
  obtain ⟨t, rfl, hs, tail⟩ := h
  exact ⟨t, rfl, tail, headerLoop_closed hs [] t⟩

lemma IsHeader.unique (h : IsHeader line s) (h' : IsHeader line t) : s = t := by
  obtain ⟨u, rfl, hs, -⟩ := h
  obtain ⟨v, e, ht, -⟩ := h'
  exact (cut_inj hs ht (List.cons.inj e).2).1

/-- The scanner tells whether a line is a header exactly if the line is plain. -/
lemma scanned_iff_plain (bracket : line.head? = some '['.toUInt8) :
    (∀ s, headerLoop [] false line.tail = some s ↔ IsHeader line s) ↔ Plain line := by
  obtain ⟨r, rfl⟩ := List.head?_eq_some_iff.1 bracket
  rw [List.tail_cons]
  constructor
  · rintro scanned s t e hs
    have found : headerLoop [] false r = if t.head? = some ';'.toUInt8 then none else some s := by
      rw [(List.cons.inj e).2]
      exact headerLoop_closed hs [] t
    have plain : t.head? ≠ some ';'.toUInt8 := fun semicolon => by
      have := (scanned s).2 ⟨t, e, hs, [], t, rfl, by simp, .inr (.inr semicolon)⟩
      rw [found, if_pos semicolon] at this
      cases this
    rw [if_neg plain] at found
    obtain ⟨t', e', hs', tail⟩ := (scanned s).1 found
    rw [e] at e'
    obtain ⟨-, rfl⟩ := cut_inj hs hs' (List.cons.inj e').2
    exact ⟨tail, plain⟩
  · intro plain s
    constructor
    · intro found
      by_cases closed : ']'.toUInt8 ∉ r
      · rw [headerLoop_open closed] at found
        cases found
      obtain ⟨s', t, rfl, hs⟩ := List.eq_append_cons_of_mem (not_not.1 closed)
      obtain ⟨tail, semicolon⟩ := plain s' t rfl hs
      rw [headerLoop_closed hs, if_neg semicolon] at found
      cases found
      exact ⟨t, rfl, hs, tail⟩
    · rintro ⟨t, e, hs, tail⟩
      obtain ⟨-, semicolon⟩ := plain s t e hs
      rw [(List.cons.inj e).2, headerLoop_closed hs, if_neg semicolon]
      rfl

/-! What happens to the first line, in the code and as it is to be. -/

lemma bracket_iff : line.getD 0 0 = '['.toUInt8 ↔ line.head? = some '['.toUInt8 := by
  cases line with
  | nil => simp [show (0 : UInt8) ≠ '['.toUInt8 by decide]
  | cons c s => simp

lemma not_skipped (bracket : line.head? = some '['.toUInt8) : isSkipped line = false := by
  obtain ⟨r, rfl⟩ := List.head?_eq_some_iff.1 bracket
  simp [isSkipped, show '['.toUInt8 ≠ ';'.toUInt8 by decide, show '['.toUInt8 ≠ '#'.toUInt8 by decide]

lemma parseLoop_bracket (bracket : line.head? = some '['.toUInt8) :
    parseLoop section_ collect gr values (line :: rest) = ((headerLoop [] false line.tail).map fun s =>
      parseLoop section_ (wanted section_ s) s values rest).getD (false, values) := by
  rw [parseLoop, not_skipped bracket, if_neg Bool.false_ne_true, if_pos (bracket_iff.2 bracket)]
  cases headerLoop [] false line.tail <;> rfl

lemma parseLoop_other (other : line.head? ≠ some '['.toUInt8) :
    parseLoop section_ collect gr values (line :: rest) =
      parseLoop section_ collect gr (if isSkipped line || !collect then values else appendTo values gr line) rest := by
  rw [parseLoop, if_neg (mt bracket_iff.1 other)]
  cases isSkipped line <;> cases collect <;> rfl

lemma files_bracket (bracket : line.head? = some '['.toUInt8) :
    Files section_ collect gr values (line :: rest) r ↔
      (∃ s, IsHeader line s ∧ Files section_ (wanted section_ s) s values rest r) ∨
        (∀ s, ¬IsHeader line s) ∧ r = (false, values) := by
  constructor
  · intro h
    cases h with
    | skipped skip _ =>
      rw [not_skipped bracket] at skip
      cases skip
    | header head rest => exact .inl ⟨_, head, rest⟩
    | malformed _ none => exact .inr ⟨none, rfl⟩
    | key _ other _ => exact absurd bracket other
    | unwanted _ other _ => exact absurd bracket other
  · rintro (⟨s, head, rest⟩ | ⟨none, rfl⟩)
    · exact .header head rest
    · exact .malformed bracket none

lemma files_other (other : line.head? ≠ some '['.toUInt8) :
    Files section_ collect gr values (line :: rest) r ↔
      Files section_ collect gr (if isSkipped line || !collect then values else appendTo values gr line) rest r := by
  constructor
  · intro h
    cases h with
    | skipped skip rest => simpa [skip] using rest
    | header head _ =>
      obtain ⟨t, rfl, -⟩ := head
      exact absurd rfl other
    | malformed bracket _ => exact absurd bracket other
    | key skip _ rest => simpa [skip] using rest
    | unwanted _ _ rest => simpa using rest
  · intro h
    cases skip : isSkipped line with
    | true => exact .skipped skip (by simpa [skip] using h)
    | false =>
      cases collect with
      | true => exact .key skip other (by simpa [skip] using h)
      | false => exact .unwanted skip other (by simpa using h)

lemma files_nil (h : Files section_ collect gr values [] r) : r = (true, values) := by
  generalize e : wanted section_ = w at *
  cases h
  rfl

lemma files_of_orderly (h : Orderly lines) :
    Files section_ collect gr values lines (parseLoop section_ collect gr values lines) := by
  induction lines generalizing collect gr values with
  | nil => exact .done
  | cons line rest ih =>
    obtain ⟨plain, tail⟩ := h
    by_cases bracket : line.head? = some '['.toUInt8
    · have scanned := (scanned_iff_plain bracket).2 (plain bracket)
      rw [parseLoop_bracket bracket, files_bracket bracket]
      cases e : headerLoop [] false line.tail with
      | none => exact .inr ⟨fun s head => by simp [(scanned s).2 head] at e, rfl⟩
      | some s =>
        have head := (scanned s).1 e
        exact .inl ⟨s, head, ih (tail fun _ => ⟨s, head⟩)⟩
    · rw [parseLoop_other bracket, files_other bracket]
      exact ih (tail fun b => absurd b bracket)

lemma Orderly.take (h : Orderly lines) (n : Nat) : Orderly (lines.take n) := by
  induction lines generalizing n with
  | nil => simpa using h
  | cons line rest ih =>
    cases n with
    | zero => trivial
    | succ n => exact ⟨h.1, fun header => ih (h.2 header) n⟩

/-- After each number of lines the result is what it is to be exactly if the lines with a bracket are plain. -/
lemma files_iff : (∀ n, Files section_ collect gr values (lines.take n) (parseLoop section_ collect gr values (lines.take n))) ↔
    Orderly lines := by
  refine ⟨fun h => ?_, fun h n => files_of_orderly (h.take n)⟩
  induction lines generalizing collect gr values with
  | nil => trivial
  | cons line rest ih =>
    by_cases bracket : line.head? = some '['.toUInt8
    · have scanned : ∀ s, headerLoop [] false line.tail = some s ↔ IsHeader line s := by
        have one := h 1
        rw [List.take_succ_cons, List.take_zero, parseLoop_bracket bracket, files_bracket bracket] at one
        intro s
        constructor
        · intro e
          rw [e] at one
          obtain ⟨s', head, -⟩ | ⟨-, none⟩ := one
          · obtain ⟨t, -, -, e'⟩ := head.scanned
            rw [e] at e'
            split at e'
            · cases e'
            · cases e'
              exact head
          · cases none
        · intro head
          cases e : headerLoop [] false line.tail with
          | none =>
            rw [e] at one
            obtain ⟨s', -, files⟩ | ⟨none, -⟩ := one
            · have := files_nil files
              cases this
            · exact absurd head (none s)
          | some s' =>
            rw [e] at one
            obtain ⟨s'', head', -⟩ | ⟨none, -⟩ := one
            · obtain ⟨t, -, -, e'⟩ := head'.scanned
              rw [e] at e'
              split at e'
              · cases e'
              · cases e'
                rw [head.unique head']
            · exact absurd head (none s)
      refine ⟨fun _ => (scanned_iff_plain bracket).1 scanned, fun header => ?_⟩
      obtain ⟨s, head⟩ := header bracket
      refine @ih (wanted section_ s) s values fun n => ?_
      have further := h (n + 1)
      rw [List.take_succ_cons, parseLoop_bracket bracket, (scanned s).2 head, files_bracket bracket] at further
      obtain ⟨s', head', files⟩ | ⟨none, -⟩ := further
      · rw [head.unique head']
        rwa [head.unique head'] at files
      · exact absurd head (none s)
    · refine ⟨fun b => absurd b bracket, fun _ => @ih collect gr
        (if isSkipped line || !collect then values else appendTo values gr line) fun n => ?_⟩
      have further := h (n + 1)
      rwa [List.take_succ_cons, parseLoop_other bracket, files_other bracket] at further

/-! ## Files -/

lemma newline_splitOn (file : List UInt8) : ∀ l ∈ file.splitOn newline, newline ∉ l := by
  induction hn : file.length using Nat.strong_induction_on generalizing file with
  | h n ih =>
  by_cases one : newline ∉ file
  · rw [List.splitOn_eq_singleton one]
    simpa using one
  obtain ⟨a, t, rfl, ha⟩ := List.eq_append_cons_of_mem (not_not.1 one)
  have shorter : t.length < n := by
    rw [← hn, List.length_append, List.length_cons]
    omega
  rw [List.splitOn_append_cons_self, List.splitOn_eq_singleton ha, List.singleton_append]
  exact List.forall_mem_cons.2 ⟨ha, ih t.length shorter t rfl⟩

lemma newline_getlines (file : List UInt8) : ∀ l ∈ getlines file, newline ∉ l := by
  intro l mem
  rw [getlines] at mem
  split at mem
  · exact newline_splitOn file l (List.mem_of_mem_dropLast mem)
  · exact newline_splitOn file l mem

/-- The lines of a file are whatever is written there, each with a newline behind it. -/
lemma getlines_lines (h : ∀ l ∈ lines, newline ∉ l) : getlines (lines.flatMap (· ++ [newline])) = lines := by
  have parts : (lines.flatMap (· ++ [newline])).splitOn newline = lines ++ [[]] := by
    induction lines with
    | nil => rfl
    | cons l ls ih =>
      obtain ⟨hl, h⟩ := List.forall_mem_cons.1 h
      rw [List.flatMap_cons, List.append_assoc, List.singleton_append, List.splitOn_append_cons_self,
        List.splitOn_eq_singleton hl, ih h]
      rfl
  rw [getlines, parts]
  simp

/-- The file has the first lines of another. -/
def Begins (g file : List UInt8) : Prop := ∃ n, getlines g = (getlines file).take n

/-- A file, and each that has its first lines, is parsed as it is to be exactly if the lines with a bracket are plain up to
    the first that is no header. -/
theorem parse_files_iff (file : List UInt8) (values : Options) (section_ : Option (List UInt8)) (strict : Bool) :
    (∀ g, Begins g file → ∃ b ini, INIFile.parse ⟨some g, values⟩ section_ strict = some (b, ini) ∧
      Files section_ (section_.isNone || !strict) [] values (getlines g) (b, ini.values)) ↔ Orderly (getlines file) := by
  rw [← @files_iff section_ (section_.isNone || !strict) [] values]
  constructor
  · intro h n
    have lines := getlines_lines fun l mem => newline_getlines file l (List.mem_of_mem_take (i := n) mem)
    obtain ⟨b, ini, e, files⟩ := h (((getlines file).take n).flatMap (· ++ [newline])) ⟨n, lines⟩
    rw [lines] at files
    rw [INIFile.parse, Option.map_some, lines] at e
    cases e
    exact files
  · rintro h g ⟨n, e⟩
    refine ⟨_, _, rfl, ?_⟩
    rw [e]
    exact h n

/-- `[a]x` is taken for a header. -/
theorem not_files : ¬∃ b ini, INIFile.parse ⟨some (bytes "[a]x\nk=1"), ∅⟩ none false = some (b, ini) ∧
    Files none true [] ∅ (getlines (bytes "[a]x\nk=1")) (b, ini.values) := by
  have lines : getlines (bytes "[a]x\nk=1") = [bytes "[a]x", bytes "k=1"] := by decide
  have bracket : (bytes "[a]x").head? = some '['.toUInt8 := by decide
  rintro ⟨b, ini, e, files⟩
  rw [lines, files_bracket bracket] at files
  obtain ⟨s, ⟨t, e', hs, blanks, comment, rfl, blank, tail⟩, -⟩ | ⟨-, r⟩ := files
  · obtain ⟨rfl, behind⟩ := cut_inj (s := bytes "a") (t := bytes "x") (by decide) hs (List.cons.inj e').2
    cases blanks with
    | nil =>
      rw [List.nil_append] at behind
      subst behind
      revert tail
      decide
    | cons c blanks =>
      have x : 'x'.toUInt8 = c := (List.cons.inj behind).1
      subst x
      exact absurd (blank _ List.mem_cons_self) (by decide)
  · have found : headerLoop [] false (bytes "[a]x").tail = some (bytes "a") := by decide
    rw [INIFile.parse, Option.map_some, lines, parseLoop_bracket bracket, found] at e
    cases e
    cases r

end

end INIFile

end ArrowheadCore.Utils
