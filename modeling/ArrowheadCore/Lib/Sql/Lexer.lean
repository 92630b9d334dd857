import ArrowheadCore.Lib.CString

/-!
# The tokens of SQL statements

The lexer is a machine that reads one byte at a time and emits the tokens that the byte completes, so that a
statement which is put together from pieces is read piece by piece (`Lexes.append`). Words are keywords
(letter case ignored) or identifiers. A text literal stands between single quotes; inside it a quote is
doubled or follows a backslash, and the escapes are those of MariaDB.
-/

namespace ArrowheadCore.Lib.Sql

inductive Keyword where
  | select | from | inner | join | on | where | and | or | in | order | by | asc | desc | as
  | insert | into | values | delete | limit | offset | update | set | null
deriving DecidableEq, Repr

inductive Symbol where
  | lparen | rparen | comma | dot | eq | star | semicolon | minus
deriving DecidableEq, Repr

inductive Token where
  | kw (k : Keyword)
  | ident (name : String)
  | number (n : Nat)
  | text (s : List UInt8)
  | sym (s : Symbol)
deriving DecidableEq, Repr

def keywords : List (String × Keyword) :=
  [("select", .select), ("from", .from), ("inner", .inner), ("join", .join), ("on", .on),
    ("where", .where), ("and", .and), ("or", .or), ("in", .in), ("order", .order), ("by", .by),
    ("asc", .asc), ("desc", .desc), ("as", .as), ("insert", .insert), ("into", .into), ("values", .values),
    ("delete", .delete), ("limit", .limit), ("offset", .offset), ("update", .update), ("set", .set),
    ("null", .null)]

def symbols : List (Char × Symbol) :=
  [('(', .lparen), (')', .rparen), (',', .comma), ('.', .dot), ('=', .eq), ('*', .star),
    (';', .semicolon), ('-', .minus)]

def isWord (c : UInt8) : Bool := isalnum c || c == '_'.toUInt8

/-- The token of a whole word. -/
def wordToken (w : List UInt8) : Token :=
  match keywords.find? (fun k => bytes k.1 == w.map tolower) with
  | some k => .kw k.2
  | none => .ident (String.ofList (w.map fun c => Char.ofNat c.toNat))

/-- What a backslash and this byte stand for inside a text literal. -/
def unescape (c : UInt8) : List UInt8 :=
  if c = '0'.toUInt8 then [0]
  else if c = 'b'.toUInt8 then [8]
  else if c = 'n'.toUInt8 then [10]
  else if c = 'r'.toUInt8 then [13]
  else if c = 't'.toUInt8 then [9]
  else if c = 'Z'.toUInt8 then [26]
  else if c = '%'.toUInt8 ∨ c = '_'.toUInt8 then ['\\'.toUInt8, c]
  else [c]

def QUOTE : UInt8 := '\''.toUInt8

def BACKSLASH : UInt8 := '\\'.toUInt8

/-- What the lexer has begun to read. -/
inductive Mode where
  | idle
  | word (w : List UInt8)
  | number (n : Nat)
  | text (s : List UInt8)
  /-- behind a backslash in a text literal -/
  | escape (s : List UInt8)
  /-- behind a quote in a text literal: its end, or the first of two -/
  | quote (s : List UInt8)
  /-- a byte that no token has -/
  | bad
deriving DecidableEq, Repr

/-- Read a byte that begins something new. -/
def start (c : UInt8) : Mode × List Token :=
  if isspace c then (.idle, [])
  else if isDigitOf 10 c then (.number (digitVal c), [])
  else if isWord c then (.word [c], [])
  else if c = QUOTE then (.text [], [])
  else
    match symbols.find? (fun s => s.1.toUInt8 == c) with
    | some s => (.idle, [.sym s.2])
    | none => (.bad, [])

def emit (t : Token) (r : Mode × List Token) : Mode × List Token := (r.1, t :: r.2)

/-- Read one byte. -/
def lexStep : Mode → UInt8 → Mode × List Token
  | .idle, c => start c
  | .word w, c => if isWord c then (.word (w ++ [c]), []) else emit (wordToken w) (start c)
  | .number n, c =>
    if isDigitOf 10 c then (.number (n * 10 + digitVal c), [])
    else if isWord c then (.bad, [])
    else emit (.number n) (start c)
  | .text s, c =>
    if c = QUOTE then (.quote s, []) else if c = BACKSLASH then (.escape s, []) else (.text (s ++ [c]), [])
  | .escape s, c => (.text (s ++ unescape c), [])
  | .quote s, c => if c = QUOTE then (.text (s ++ [QUOTE]), []) else emit (.text s) (start c)
  | .bad, _ => (.bad, [])

/-- Read a text. -/
def lexRun (m : Mode) : List UInt8 → Mode × List Token
  | [] => (m, [])
  | c :: cs =>
    let r := lexStep m c
    let rs := lexRun r.1 cs
    (rs.1, r.2 ++ rs.2)

/-- The end of the statement completes what was begun. -/
def lexEnd : Mode → Option (List Token)
  | .idle => some []
  | .word w => some [wordToken w]
  | .number n => some [.number n]
  | .quote s => some [.text s]
  | .text _ | .escape _ | .bad => none

/-- The tokens of a statement, which ends at its first NUL; `none` when it has none. -/
def lex (s : List UInt8) : Option (List Token) :=
  let r := lexRun .idle (cStr s)
  (lexEnd r.1).map (r.2 ++ ·)

/-! ## Reading piece by piece -/

/-- From `m` the text `s`, in which no NUL stands, gives the tokens `ts` and leads to `m'`. -/
def Lexes (m : Mode) (s : List UInt8) (ts : List Token) (m' : Mode) : Prop :=
  0 ∉ s ∧ lexRun m s = (m', ts)

instance (m s ts m') : Decidable (Lexes m s ts m') := inferInstanceAs (Decidable (_ ∧ _))

variable {m m' m'' : Mode} {s s' : List UInt8} {ts ts' : List Token}

lemma lexRun_append (h : lexRun m s = (m', ts)) (h' : lexRun m' s' = (m'', ts')) :
    lexRun m (s ++ s') = (m'', ts ++ ts') := by
  induction s generalizing m ts with
  | nil =>
    cases h
    exact h'
  | cons c cs ih =>
    simp only [lexRun, Prod.mk.injEq] at h
    obtain ⟨h1, h2⟩ := h
    have := ih (Prod.ext h1 rfl : lexRun (lexStep m c).1 cs = (m', _))
    simp only [List.cons_append, lexRun, this, ← h2, List.append_assoc]

lemma lexRun_bad (s : List UInt8) : (lexRun .bad s).1 = .bad := by
  induction s with
  | nil => rfl
  | cons c s ih => exact ih

lemma Lexes.append (h : Lexes m s ts m') (h' : Lexes m' s' ts' m'') : Lexes m (s ++ s') (ts ++ ts') m'' :=
  ⟨by simp [h.1, h'.1], lexRun_append h.2 h'.2⟩

/-- A constant piece is read as the list of its characters, which evaluates much faster than the string. -/
lemma lexes_bytes {l : List Char} (h : Lexes m (l.map Char.toUInt8) ts m') :
    Lexes m (bytes (String.ofList l)) ts m' := by
  have e : bytes (String.ofList l) = l.map Char.toUInt8 := by simp [bytes]
  rw [e]
  exact h

lemma lex_of_lexes (h : Lexes .idle s ts m) (e : lexEnd m = some ts') : lex s = some (ts ++ ts') := by
  simp [lex, cStr_eq h.1, h.2, e]

lemma isWord_of_digit {c : UInt8} (h : isDigitOf 10 c) : isWord c := by
  simp [isWord, isalnum_of_isDigitOf (by decide) h]

lemma ne_zero_of_digit {c : UInt8} (h : isDigitOf 10 c) : c ≠ 0 := by
  rintro rfl
  exact absurd h (by decide)

/-- Digits continue a number. -/
lemma lexRun_digits (ds : List UInt8) (h : ∀ d ∈ ds, isDigitOf 10 d) (n : Nat) :
    lexRun (.number n) ds = (.number (ds.foldl (fun n d => n * 10 + digitVal d) n), []) := by
  induction ds generalizing n with
  | nil => rfl
  | cons d ds ih =>
    have hd : isDigitOf 10 d := h d (by simp)
    simp [lexRun, lexStep, hd, ih fun d hd => h d (by simp [hd])]

lemma lexes_decimal (n : Nat) : Lexes .idle (decimal n) [] (.number n) := by
  have hn := number_decimal n
  have hd := decimal_digits n
  refine ⟨fun h0 => ne_zero_of_digit (hd 0 h0) rfl, ?_⟩
  cases e : decimal n with
  | nil => exact absurd e (decimal_ne_nil n)
  | cons d ds =>
    rw [e] at hn hd
    have h1 : isDigitOf 10 d := hd d (by simp)
    have h2 : isspace d = false := isspace_of_isalnum (isalnum_of_isDigitOf (by decide) h1)
    have := lexRun_digits ds (fun d hd' => hd d (by simp [hd'])) (digitVal d)
    simp only [lexRun, lexStep, start, h1, h2, this, Bool.false_eq_true, if_false, if_true, List.append_nil]
    simp only [number, List.foldl_cons, Nat.zero_mul, Nat.zero_add] at hn
    rw [hn]

/-- A text that begins with a byte of no word. -/
def Delimits (s : List UInt8) : Prop := ∃ c cs, s = c :: cs ∧ isWord c = false

lemma delimits_cons {c : UInt8} (cs : List UInt8) (h : isWord c = false) : Delimits (c :: cs) := ⟨c, cs, rfl, h⟩

lemma Delimits.append (h : Delimits s) (s' : List UInt8) : Delimits (s ++ s') := by
  obtain ⟨c, cs, rfl, hc⟩ := h
  exact ⟨c, cs ++ s', rfl, hc⟩

/-- A token that was begun is completed by the byte behind it. -/
lemma Lexes.complete {c : UInt8} {t : Token} (h : Lexes .idle (c :: s) ts m)
    (hc : lexStep m' c = emit t (start c)) : Lexes m' (c :: s) (t :: ts) m := by
  refine ⟨h.1, ?_⟩
  have := h.2
  simp only [lexRun, hc, emit, List.cons_append, Prod.mk.injEq, List.cons.injEq, true_and]
  simpa [lexRun, lexStep] using this

lemma Lexes.number_then (h : Lexes .idle s ts m) (hs : Delimits s) (n : Nat) :
    Lexes (.number n) s (.number n :: ts) m := by
  obtain ⟨c, cs, rfl, hc⟩ := hs
  have hd : isDigitOf 10 c = false := by
    cases e : isDigitOf 10 c with
    | false => rfl
    | true => simp [isWord_of_digit e] at hc
  exact h.complete (by simp [lexStep, hd, hc])

/-- A number in the middle of a statement. -/
lemma Lexes.decimal (h : Lexes .idle s ts m) (hs : Delimits s) (n : Nat) :
    Lexes .idle (decimal n ++ s) (.number n :: ts) m :=
  (lexes_decimal n).append (h.number_then hs n)

/-- `w` is a word and the identifier `n`. -/
def IsName (w : List UInt8) (n : String) : Prop := Lexes .idle w [] (.word w) ∧ wordToken w = .ident n

instance (w : List UInt8) (n : String) : Decidable (IsName w n) := inferInstanceAs (Decidable (_ ∧ _))

/-- An identifier in the middle of a statement. -/
lemma Lexes.name {w : List UInt8} {n : String} (h : Lexes .idle s ts m) (hs : Delimits s) (hw : IsName w n) :
    Lexes .idle (w ++ s) (.ident n :: ts) m := by
  obtain ⟨c, cs, rfl, hc⟩ := hs
  exact hw.1.append (h.complete (by simp [lexStep, hc, hw.2]))

/-- The tokens of an integer literal. -/
def intTokens : Int → List Token
  | .ofNat n => [.number n]
  | .negSucc n => [.sym .minus, .number (n + 1)]

/-- An integer in the middle of a statement. -/
lemma Lexes.to_string (h : Lexes .idle s ts m) (hs : Delimits s) (z : Int) :
    Lexes .idle (to_string z ++ s) (intTokens z ++ ts) m := by
  cases z with
  | ofNat n => exact h.decimal hs n
  | negSucc n =>
    have minus : Lexes .idle ['-'.toUInt8] [.sym .minus] .idle := by decide
    exact minus.append (h.decimal hs (n + 1))

/-- A text that stands for itself between quotes. -/
def Plain (s : List UInt8) : Prop := ∀ c ∈ s, c ≠ 0 ∧ c ≠ QUOTE ∧ c ≠ BACKSLASH

instance (s : List UInt8) : Decidable (Plain s) := List.decidableBAll _ s

lemma plain_decimal (n : Nat) : Plain (decimal n) := by
  intro c hc
  have hd : isDigitOf 10 c := decimal_digits n c hc
  have ne : ∀ x : UInt8, isDigitOf 10 x = false → c ≠ x := by
    rintro x hx rfl
    rw [hx] at hd
    cases hd
  exact ⟨ne 0 (by decide), ne QUOTE (by decide), ne BACKSLASH (by decide)⟩

lemma plain_to_string (z : Int) : Plain (to_string z) := by
  cases z with
  | ofNat n => exact plain_decimal n
  | negSucc n => exact List.forall_mem_cons.2 ⟨by decide, plain_decimal (n + 1)⟩

lemma lexRun_plain (h : Plain s) (acc : List UInt8) : lexRun (.text acc) s = (.text (acc ++ s), []) := by
  induction s generalizing acc with
  | nil => simp [lexRun]
  | cons c cs ih =>
    obtain ⟨-, h1, h2⟩ := h c (by simp)
    have := ih (fun c hc => h c (by simp [hc])) (acc ++ [c])
    simp [lexRun, lexStep, h1, h2, this]

/-- `lit` is a quoted literal that denotes `s`. -/
def IsLiteral (lit s : List UInt8) : Prop := Lexes .idle lit [] (.quote s)

instance (lit s : List UInt8) : Decidable (IsLiteral lit s) := inferInstanceAs (Decidable (Lexes _ _ _ _))

/-- A plain text between two quotes. -/
lemma isLiteral_plain (h : Plain s) : IsLiteral (QUOTE :: (s ++ [QUOTE])) s := by
  have h0 : Lexes .idle [QUOTE] [] (.text []) := by decide
  have h1 : Lexes (.text []) s [] (.text ([] ++ s)) := ⟨fun h0 => (h 0 h0).1 rfl, lexRun_plain h []⟩
  have h2 : ∀ s, Lexes (.text s) [QUOTE] [] (.quote s) := fun s => ⟨by decide, rfl⟩
  exact h0.append (h1.append (h2 s))

/-- A plain text behind its opening quote, in the middle of a statement. -/
lemma Lexes.quoted {v : List UInt8} (h : Lexes .idle s ts m) (hs : Delimits s) (hq : s.head? ≠ some QUOTE)
    (hv : Plain v) : Lexes (.text []) (v ++ QUOTE :: s) (.text v :: ts) m := by
  obtain ⟨c, cs, rfl, -⟩ := hs
  have hc : c ≠ QUOTE := by simpa using hq
  have inside : Lexes (.text []) v [] (.text ([] ++ v)) := ⟨fun h0 => (hv 0 h0).1 rfl, lexRun_plain hv []⟩
  have close : Lexes (.text ([] ++ v)) [QUOTE] [] (.quote v) := ⟨by decide, rfl⟩
  exact inside.append (close.append (h.complete (by simp [lexStep, hc])))

/-- A literal in the middle of a statement. -/
lemma Lexes.literal {lit v : List UInt8} (h : Lexes .idle s ts m) (hs : Delimits s) (hl : IsLiteral lit v)
    (hq : s.head? ≠ some QUOTE) : Lexes .idle (lit ++ s) (.text v :: ts) m := by
  obtain ⟨c, cs, rfl, -⟩ := hs
  have hc : c ≠ QUOTE := by simpa using hq
  exact Lexes.append hl (h.complete (by simp [lexStep, hc]))

end ArrowheadCore.Lib.Sql
