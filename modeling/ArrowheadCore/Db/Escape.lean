import ArrowheadCore.Lib.Sql.Lexer

/-!
# Escaping

Embedding of the two overloads of `MariaDB::escape` (`db/MariaDB.h`) and of the one the tests replace them with
(`test/hlpr/MockDBase.h`). The client library's `mysql_real_escape_string` is a parameter: `Escapes` says what its
documentation promises.
-/

namespace ArrowheadCore.Db
open Lib Lib.Sql

/-- The bytes that have a meaning inside a literal: NUL, line feed, carriage return, control-Z, the two quotes and
    the backslash. -/
def isSpecial (c : UInt8) : Bool :=
  c == 0 || c == 10 || c == 13 || c == 26 || c == QUOTE || c == '"'.toUInt8 || c == BACKSLASH

/-- `mysql_real_escape_string` puts a backslash before a letter or sign that stands for a special byte, copies every
    other byte, and adds no quotes. What it has written is terminated by a NUL, which is the only one. -/
structure Escapes (realEscape : List UInt8 → List UInt8) : Prop where
  nil : realEscape [] = []
  special : ∀ c s, isSpecial c → ∃ x, x ≠ 0 ∧ realEscape (c :: s) = BACKSLASH :: x :: realEscape s
  other : ∀ c s, isSpecial c = false → realEscape (c :: s) = c :: realEscape s

/-! ## `MariaDB::escape` -/

def STRING_BUFFER_LEN : Nat := 127

section
variable (realEscape : List UInt8 → List UInt8)

/-- The buffer behind a call of `mysql_real_escape_string`. -/
def mysql_real_escape_string (buffer str : List UInt8) : List UInt8 :=
  let text := realEscape str
  text ++ 0 :: buffer.drop (text.length + 1)

/-- The common body of the two overloads. `escbuffer` holds what the last call has left in it, `fresh` what a new
    array has in it. -/
def escapeLen (escbuffer fresh str : List UInt8) : List UInt8 :=
  let len := str.length
  if STRING_BUFFER_LEN ≥ 2 * len then cStr (mysql_real_escape_string realEscape escbuffer str)
  else cStr (mysql_real_escape_string realEscape fresh str)

/-- C++ `escape(const char *)` -/
def escapeCStr (escbuffer fresh str : List UInt8) : List UInt8 := escapeLen realEscape escbuffer fresh (cStr str)

/-- C++ `escape(const std::string &)` -/
def escapeString (escbuffer fresh str : List UInt8) : List UInt8 := escapeLen realEscape escbuffer fresh str

end

variable {realEscape : List UInt8 → List UInt8} {s : List UInt8}

lemma Escapes.no_nul (h : Escapes realEscape) (s : List UInt8) : 0 ∉ realEscape s := by
  induction s with
  | nil => simp [h.nil]
  | cons c s ih =>
    cases hc : isSpecial c with
    | true =>
      obtain ⟨x, hx, e⟩ := h.special c s hc
      have back : (0 : UInt8) ≠ BACKSLASH := by decide
      simp [e, ih, hx.symm, back]
    | false =>
      have hc0 : c ≠ 0 := by
        rintro rfl
        exact absurd hc (by decide)
      simp [h.other c s hc, ih, hc0.symm]

/-- Both buffers give the whole text, whatever they held before. -/
lemma escapeLen_eq (h : Escapes realEscape) (escbuffer fresh str : List UInt8) :
    escapeLen realEscape escbuffer fresh str = realEscape str := by
  have whole : ∀ buffer, cStr (mysql_real_escape_string realEscape buffer str) = realEscape str := by
    intro buffer
    rw [mysql_real_escape_string, cStr_append (h.no_nul str)]
    simp [cStr]
  simp only [escapeLen]
  split
  · exact whole escbuffer
  · exact whole fresh

/-- The lexer is inside no literal. -/
def Outside : Mode → Prop
  | .idle | .word _ | .number _ | .bad => True
  | .text _ | .escape _ | .quote _ => False

lemma start_outside {c : UInt8} (h : c ≠ QUOTE) : Outside (start c).1 := by
  unfold start
  split
  · trivial
  split
  · trivial
  split
  · trivial
  split <;> trivial

/-- Only a quote leads into a literal. -/
lemma lexStep_outside {m : Mode} {c : UInt8} (hm : Outside m) (h : c ≠ QUOTE) : Outside (lexStep m c).1 := by
  cases m with
  | idle => exact start_outside h
  | word w =>
    simp only [lexStep]
    split
    · trivial
    · exact start_outside h
  | number n =>
    simp only [lexStep]
    split
    · trivial
    split
    · trivial
    · exact start_outside h
  | bad => trivial
  | text _ | escape _ | quote _ => cases hm

/-- Outside of a literal a backslash is no part of any token. -/
lemma lexStep_backslash {m : Mode} (hm : Outside m) : (lexStep m BACKSLASH).1 = .bad := by
  have begin : (start BACKSLASH).1 = .bad := by decide
  have word : isWord BACKSLASH = false := by decide
  have digit : isDigitOf 10 BACKSLASH = false := by decide
  cases m with
  | idle => exact begin
  | word w => simp [lexStep, word, emit, begin]
  | number n => simp [lexStep, word, digit, emit, begin]
  | bad => rfl
  | text _ | escape _ | quote _ => cases hm

/-- An escaped text never leads into a literal. -/
lemma Escapes.outside (h : Escapes realEscape) {m : Mode} (hm : Outside m) :
    Outside (lexRun m (realEscape s)).1 := by
  induction s generalizing m with
  | nil =>
    rw [h.nil]
    exact hm
  | cons c s ih =>
    cases hc : isSpecial c with
    | true =>
      obtain ⟨x, -, e⟩ := h.special c s hc
      rw [e]
      show Outside (lexRun (lexStep m BACKSLASH).1 (x :: realEscape s)).1
      rw [lexStep_backslash hm, lexRun_bad]
      trivial
    | false =>
      have hq : c ≠ QUOTE := by
        rintro rfl
        exact absurd hc (by decide)
      rw [h.other c s hc]
      exact ih (lexStep_outside hm hq)

lemma Escapes.not_literal (h : Escapes realEscape) (s t : List UInt8) : ¬IsLiteral (realEscape s) t := by
  intro lit
  have out := h.outside (s := s) (m := .idle) trivial
  rw [lit.2] at out
  exact out

/-- What `escape` returns is the quoted literal of no string, so not of the one it was given. -/
theorem escape_not_literal (h : Escapes realEscape) (escbuffer fresh str : List UInt8) :
    (∀ t, ¬IsLiteral (escapeCStr realEscape escbuffer fresh str) t) ∧
      ∀ t, ¬IsLiteral (escapeString realEscape escbuffer fresh str) t := by
  refine ⟨fun t => ?_, fun t => ?_⟩
  · rw [escapeCStr, escapeLen_eq h]
    exact h.not_literal (cStr str) t
  · rw [escapeString, escapeLen_eq h]
    exact h.not_literal str t

/-- The sign behind the backslash for a special byte. -/
def escapeSign (c : UInt8) : UInt8 :=
  if c = 0 then '0'.toUInt8 else if c = 10 then 'n'.toUInt8 else if c = 13 then 'r'.toUInt8
  else if c = 26 then 'Z'.toUInt8 else c

/-- The client library's own table. -/
def backslashEscape (s : List UInt8) : List UInt8 :=
  s.flatMap fun c => if isSpecial c then [BACKSLASH, escapeSign c] else [c]

lemma backslashEscape_escapes : Escapes backslashEscape where
  nil := rfl
  special := by
    intro c s hc
    refine ⟨escapeSign c, ?_, by simp [backslashEscape, hc]⟩
    intro e
    unfold escapeSign at e
    split at e
    · exact absurd e (by decide)
    split at e
    · exact absurd e (by decide)
    split at e
    · exact absurd e (by decide)
    split at e
    · exact absurd e (by decide)
    · contradiction
  other := by
    intro c s hc
    simp [backslashEscape, hc]

theorem escape_not_literal_sensor : Escapes backslashEscape ∧
    ∀ t, ¬IsLiteral (escapeString backslashEscape [] [] (bytes "sensor")) t :=
  ⟨backslashEscape_escapes, (escape_not_literal backslashEscape_escapes [] [] (bytes "sensor")).2⟩

/-- The text that is spliced for `sensor` is a bare word. -/
theorem escape_sensor_bare :
    escapeCStr backslashEscape [] [] (bytes "sensor") = bytes "sensor" ∧
      lex (escapeCStr backslashEscape [] [] (bytes "sensor")) = some [.ident "sensor"] ∧
      ¬IsLiteral (escapeCStr backslashEscape [] [] (bytes "sensor")) (bytes "sensor") := by
  decide +kernel

/-! ## `MockDBase::escape` -/

/-- `std::quoted` with the quote as the delimiter and as the escape character. -/
def mockEscape (str : List UInt8) : List UInt8 :=
  QUOTE :: (str.flatMap (fun c => if c = QUOTE then [QUOTE, QUOTE] else [c]) ++ [QUOTE])

/-- What the callers rely on: the mock's text is the literal of every string in which no NUL and no backslash stands
    (to SQLite, which knows no escapes, a backslash is a byte like others). -/
theorem mockEscape_isLiteral (h0 : 0 ∉ s) (hb : BACKSLASH ∉ s) : IsLiteral (mockEscape s) s := by
  let body (s : List UInt8) : List UInt8 := s.flatMap fun c => if c = QUOTE then [QUOTE, QUOTE] else [c]
  have inside : ∀ s acc : List UInt8, 0 ∉ s → BACKSLASH ∉ s → Lexes (.text acc) (body s) [] (.text (acc ++ s)) := by
    intro s
    induction s with
    | nil => exact fun acc _ _ => ⟨by simp [body], by simp [body, lexRun]⟩
    | cons c s ih =>
      intro acc h0 hb
      rw [List.mem_cons, not_or] at h0 hb
      have rest := ih (acc ++ [c]) h0.2 hb.2
      rw [List.append_assoc] at rest
      have first : Lexes (.text acc) (if c = QUOTE then [QUOTE, QUOTE] else [c]) [] (.text (acc ++ [c])) := by
        split
        next hc =>
          subst hc
          exact ⟨by decide, rfl⟩
        next hc =>
          refine ⟨by simpa using h0.1, ?_⟩
          simp [lexRun, lexStep, hc, Ne.symm hb.1]
      exact first.append rest
  have opening : Lexes .idle [QUOTE] [] (.text []) := by decide
  have closing : Lexes (.text s) [QUOTE] [] (.quote s) := ⟨by decide, rfl⟩
  exact opening.append ((inside s [] h0 hb).append closing)

end ArrowheadCore.Db
