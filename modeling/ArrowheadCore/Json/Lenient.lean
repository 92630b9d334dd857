import ArrowheadCore.Json.Simulation

/-!
# What gason accepts

A grammar of the texts that `jsonParse` takes, which is not the one of RFC 8259: a comma and a colon may be missing, a
comma may stand behind the last item, a number may have no digits behind its point or its `e`, the string that ends the
text needs no quote, and `null` is read as `false` together with the delimiter behind it. Behind every other scalar
there has to be a delimiter, which is not read with it.
-/

namespace ArrowheadCore.Json.Gason
open Lib

/-! ## The grammar -/

/-- From one token to the next. -/
def Skips (s rest : List UInt8) : Prop := ∃ w, s = w ++ rest ∧ ∀ c ∈ w, isspace c = true

def IsDigits (w : List UInt8) : Prop := ∀ c ∈ w, isdigit c = true

def IsFraction (w : List UInt8) : Prop := w = [] ∨ ∃ ds, w = '.'.toUInt8 :: ds ∧ IsDigits ds

def IsExponent (w : List UInt8) : Prop :=
  w = [] ∨ ∃ mark sign ds, w = mark :: (sign ++ ds) ∧ (mark = 'e'.toUInt8 ∨ mark = 'E'.toUInt8) ∧
    (sign = [] ∨ sign = ['+'.toUInt8] ∨ sign = ['-'.toUInt8]) ∧ IsDigits ds

/-- A number; there is no digit in it if a point follows the sign. -/
def IsNumber (w : List UInt8) : Prop :=
  ∃ sign ds f e, w = sign ++ (ds ++ (f ++ e)) ∧ (sign = [] ∧ ds ≠ [] ∨ sign = ['-'.toUInt8] ∧ (ds ≠ [] ∨ f ≠ [])) ∧
    IsDigits ds ∧ IsFraction f ∧ IsExponent e

/-- The content of a string and what it stands for. -/
inductive Content.Spells : List UInt8 → List UInt8 → Prop
  | nil : Spells [] []
  | plain {c : UInt8} {w out : List UInt8} : ¬(c < ' '.toUInt8 ∨ c = 0x7F) → c ≠ '"'.toUInt8 → c ≠ '\\'.toUInt8 →
    Spells w out → Spells (c :: w) (c :: out)
  | short {d e : UInt8} {w out : List UInt8} : escaped d = some e → Spells w out → Spells ('\\'.toUInt8 :: d :: w) (e :: out)
  | hex {h1 h2 h3 h4 : UInt8} {w out : List UInt8} : [h1, h2, h3, h4].all isxdigit → Spells w out →
    Spells ('\\'.toUInt8 :: 'u'.toUInt8 :: h1 :: h2 :: h3 :: h4 :: w) (utf8 (number 16 [h1, h2, h3, h4]) ++ out)

def Delimited (rest : List UInt8) : Prop := isdelim (rest.headD 0) = true

section
variable (toInt : List UInt8 → Int)

/-- A scalar at the beginning of a text, and what is behind it. -/
inductive Scalar : List UInt8 → JsonValue → Option (List UInt8) → Prop
  | true {rest : List UInt8} : Delimited rest → Scalar (bytes "true" ++ rest) .true (some rest)
  | false {rest : List UInt8} : Delimited rest → Scalar (bytes "false" ++ rest) .false (some rest)
  | null {c : UInt8} {rest : List UInt8} : isdelim c = Bool.true → Scalar (bytes "null" ++ c :: rest) .false (some rest)
  | nullAtEnd : Scalar (bytes "null") .false none
  | number {w rest : List UInt8} : IsNumber w → Delimited rest → Scalar (w ++ rest) (.number (toInt w)) (some rest)
  | string {w out rest : List UInt8} : Content.Spells w out → Delimited rest →
    Scalar ('"'.toUInt8 :: (w ++ '"'.toUInt8 :: rest)) (.string (cStr out)) (some rest)
  | unended {w out : List UInt8} : Content.Spells w out →
    Scalar ('"'.toUInt8 :: w) (.string (cStr (out ++ w.drop out.length))) (some [])

/-- Between a name and its value there may be a colon, unless there has been one (`separator`). -/
def Colon (separator : Bool) (s rest : List UInt8) : Prop :=
  Skips s rest ∨ separator = false ∧ ∃ s1, Skips s (':'.toUInt8 :: s1) ∧ Skips s1 rest

variable (V : List UInt8 → JsonValue → Option (List UInt8) → Prop)

/-- The items of an array and its closing bracket. -/
inductive Items : Bool → List UInt8 → List JsonValue → List UInt8 → Prop
  | close {separator : Bool} {s rest : List UInt8} : Skips s (']'.toUInt8 :: rest) → Items separator s [] rest
  | comma {s s1 rest : List UInt8} {vs : List JsonValue} : Skips s (','.toUInt8 :: s1) → Items true s1 vs rest →
    Items false s vs rest
  | item {separator : Bool} {s s1 s2 rest : List UInt8} {v : JsonValue} {vs : List JsonValue} : Skips s s1 →
    V s1 v (some s2) → Items false s2 vs rest → Items separator s (v :: vs) rest

/-- The members of an object and its closing bracket. -/
inductive Members : Bool → List UInt8 → List (List UInt8 × JsonValue) → List UInt8 → Prop
  | close {separator : Bool} {s rest : List UInt8} : Skips s ('}'.toUInt8 :: rest) → Members separator s [] rest
  | comma {s s1 rest : List UInt8} {ms : List (List UInt8 × JsonValue)} : Skips s (','.toUInt8 :: s1) →
    Members true s1 ms rest → Members false s ms rest
  | member {separator : Bool} {s s1 s2 s3 s4 rest k : List UInt8} {v : JsonValue} {ms : List (List UInt8 × JsonValue)} :
    Skips s s1 → Scalar toInt s1 (.string k) (some s2) → Colon false s2 s3 → V s3 v (some s4) → Members false s4 ms rest →
    Members separator s ((k, v) :: ms) rest

/-- The values whose parts are `V`. -/
inductive Layer : List UInt8 → JsonValue → Option (List UInt8) → Prop
  | scalar {s : List UInt8} {v : JsonValue} {rest : Option (List UInt8)} : Scalar toInt s v rest → Layer s v rest
  | array {s rest : List UInt8} {vs : List JsonValue} : Items V true s vs rest →
    Layer ('['.toUInt8 :: s) (.array vs) (some rest)
  | object {s rest : List UInt8} {ms : List (List UInt8 × JsonValue)} : Members toInt V true s ms rest →
    Layer ('{'.toUInt8 :: s) (.object ms) (some rest)

end

/-- The values with `n` levels of arrays and objects at most. -/
def Value (toInt : List UInt8 → Int) : Nat → List UInt8 → JsonValue → Option (List UInt8) → Prop
  | 0 => Scalar toInt
  | n + 1 => Layer toInt (Value toInt n)

/-- A value at the beginning of a text, with blanks in front of it, and the text behind it. -/
def Document (toInt : List UInt8 → Int) (text : List UInt8) (v : JsonValue) (rest : Option (List UInt8)) : Prop :=
  ∃ s, Skips text s ∧ Value toInt JSON_STACK_SIZE s v rest

/-! ## Tokens -/

section
variable {s t w out rest : List UInt8} {c : UInt8} {f : UInt8 → Bool}

lemma dropWhile_takes (ds : List UInt8) (hds : ∀ c ∈ ds, f c = true) (ht : f (t.headD 0) = false ∨ t = []) :
    (ds ++ t).dropWhile f = t := by
  rw [List.dropWhile_append_of_pos hds]
  cases t with
  | nil => rfl
  | cons c t => exact List.dropWhile_cons_of_neg (by simpa using ht)

lemma skips_iff (hc : isspace c = false) : Skips s (c :: t) ↔ s.dropWhile isspace = c :: t := by
  constructor
  · rintro ⟨w, rfl, hw⟩
    exact dropWhile_takes w hw (.inl hc)
  · intro e
    exact ⟨s.takeWhile isspace, by rw [← e, List.takeWhile_append_dropWhile], fun d hd => List.mem_takeWhile_imp hd⟩

/-- A delimiter goes on with no number. -/
lemma ends_number (h : isdelim c = true) : isdigit c = false ∧ c ≠ '.'.toUInt8 ∧ c ≠ 'e'.toUInt8 ∧ c ≠ 'E'.toUInt8 := by
  simp only [isdelim, Bool.or_eq_true, decide_eq_true_eq] at h
  rcases h with ((((rfl | rfl) | rfl) | rfl) | space) | rfl
  case inl.inr =>
    have range : c.toNat = 32 ∨ 9 ≤ c.toNat ∧ c.toNat ≤ 13 := by simpa [isspace] using space
    refine ⟨?_, ?_, ?_, ?_⟩
    · rw [Bool.eq_false_iff]
      intro digit
      have := isDigitOf_ten.1 digit
      omega
    all_goals
      rintro rfl
      revert range
      decide
  all_goals decide

/-! ### Numbers -/

lemma afterSign_split (s : List UInt8) : ∃ sign, s = sign ++ afterSign s ∧
    (sign = [] ∧ s.headD 0 ≠ '-'.toUInt8 ∨ sign = ['-'.toUInt8]) := by
  unfold afterSign
  split
  next minus =>
    cases s with
    | nil => exact absurd minus (by decide)
    | cons c s =>
      rw [List.headD_cons] at minus
      exact ⟨['-'.toUInt8], by simp [minus], .inr rfl⟩
  next plus => exact ⟨[], rfl, .inl ⟨rfl, plus⟩⟩

lemma digits_split (s : List UInt8) : ∃ ds, s = ds ++ s.dropWhile isdigit ∧ IsDigits ds :=
  ⟨s.takeWhile isdigit, (List.takeWhile_append_dropWhile).symm, fun _ hc => List.mem_takeWhile_imp hc⟩

lemma afterFraction_split (s : List UInt8) : ∃ w, s = w ++ afterFraction s ∧ IsFraction w := by
  unfold afterFraction
  split
  next point =>
    cases s with
    | nil => exact absurd point (by decide)
    | cons c s =>
      obtain ⟨ds, split, digits⟩ := digits_split s
      rw [List.headD_cons] at point
      refine ⟨'.'.toUInt8 :: ds, ?_, .inr ⟨ds, rfl, digits⟩⟩
      rw [List.tail_cons, List.cons_append, ← split, point]
  next => exact ⟨[], rfl, .inl rfl⟩

lemma afterExponent_split (s : List UInt8) : ∃ w, s = w ++ afterExponent s ∧ IsExponent w := by
  unfold afterExponent
  split
  next mark =>
    cases s with
    | nil => exact absurd mark (by decide)
    | cons c s =>
      rw [List.headD_cons] at mark
      rw [List.tail_cons]
      split
      next sign =>
        cases s with
        | nil => exact absurd sign (by decide)
        | cons d s =>
          obtain ⟨ds, split, digits⟩ := digits_split s
          rw [List.headD_cons] at sign
          refine ⟨c :: ([d] ++ ds), ?_, .inr ⟨c, [d], ds, rfl, mark, .inr (by simpa using sign), digits⟩⟩
          rw [List.tail_cons, List.cons_append, List.append_assoc, ← split, List.singleton_append]
      next =>
        obtain ⟨ds, split, digits⟩ := digits_split s
        refine ⟨c :: ([] ++ ds), ?_, .inr ⟨c, [], ds, rfl, mark, .inl rfl, digits⟩⟩
        rw [List.nil_append, List.cons_append, ← split]
  next => exact ⟨[], rfl, .inl rfl⟩

lemma headD_append (h : w ≠ []) : (w ++ s).headD 0 = w.headD 0 := by
  cases w with
  | nil => exact absurd rfl h
  | cons => rfl

lemma IsDigits.headD (h : IsDigits w) (ne : w ≠ []) : isdigit (w.headD 0) = true := by
  cases w with
  | nil => exact absurd rfl ne
  | cons c w => exact h c (by simp)

lemma isdigit_ne {c d : UInt8} (h : isdigit c = true) (hd : isdigit d = false) : c ≠ d := by
  rintro rfl
  rw [h] at hd
  cases hd

lemma IsExponent.after (h : IsExponent w) (end_ : Delimited rest) : afterExponent (w ++ rest) = rest := by
  obtain ⟨digit, -, small, capital⟩ := ends_number end_
  rcases h with rfl | ⟨mark, sign, ds, rfl, hmark, hsign, digits⟩
  · rw [List.nil_append, afterExponent, if_neg (not_or.2 ⟨small, capital⟩)]
  · have stop : (ds ++ rest).dropWhile isdigit = rest := dropWhile_takes ds digits (.inl digit)
    rw [List.cons_append, afterExponent, List.headD_cons, if_pos hmark, List.tail_cons, List.append_assoc]
    rcases hsign with rfl | rfl | rfl
    · rw [List.nil_append, if_neg ?_, stop]
      cases ds with
      | nil =>
        have : isdelim '+'.toUInt8 = false ∧ isdelim '-'.toUInt8 = false := by decide
        rintro (e | e)
        all_goals
          rw [Delimited, show rest.headD 0 = _ from e] at end_
          simp [this] at end_
      | cons d ds =>
        have : isdigit d = true := digits d (by simp)
        exact not_or.2 ⟨isdigit_ne this (by decide), isdigit_ne this (by decide)⟩
    · exact stop
    · exact stop

lemma IsExponent.start (h : IsExponent w) (end_ : Delimited rest) :
    isdigit ((w ++ rest).headD 0) = false ∧ (w ++ rest).headD 0 ≠ '.'.toUInt8 := by
  rcases h with rfl | ⟨mark, sign, ds, rfl, rfl | rfl, -⟩
  · have := ends_number end_
    exact ⟨this.1, this.2.1⟩
  all_goals exact ⟨by rw [List.cons_append, List.headD_cons]; decide, by rw [List.cons_append, List.headD_cons]; decide⟩

lemma IsFraction.after (h : IsFraction w) (digit : isdigit (t.headD 0) = false) (point : t.headD 0 ≠ '.'.toUInt8) :
    afterFraction (w ++ t) = t := by
  rcases h with rfl | ⟨ds, rfl, digits⟩
  · rw [List.nil_append, afterFraction, if_neg point]
  · rw [List.cons_append, afterFraction, List.headD_cons, if_pos rfl]
    exact dropWhile_takes ds digits (.inl digit)

lemma IsFraction.start (h : IsFraction w) (digit : isdigit (t.headD 0) = false) : isdigit ((w ++ t).headD 0) = false := by
  rcases h with rfl | ⟨ds, rfl, -⟩
  · exact digit
  · rw [List.cons_append, List.headD_cons]
    decide

/-- The parser reads a number to its end. -/
lemma IsNumber.after (h : IsNumber w) (end_ : Delimited rest) : afterNumber (w ++ rest) = rest := by
  obtain ⟨sign, ds, f, e, rfl, first, digits, fraction, exponent⟩ := h
  obtain ⟨d1, p1⟩ := exponent.start end_
  have stop : ∀ {x}, x = ds ++ (f ++ (e ++ rest)) → afterExponent (afterFraction (x.dropWhile isdigit)) = rest := by
    rintro _ rfl
    rw [dropWhile_takes ds digits (.inl (fraction.start d1)), fraction.after d1 p1, exponent.after end_]
  rw [afterNumber]
  refine stop ?_
  simp only [List.append_assoc]
  rcases first with ⟨rfl, ne⟩ | ⟨rfl, -⟩
  · rw [List.nil_append, afterSign, if_neg]
    rw [headD_append ne]
    exact isdigit_ne (digits.headD ne) (by decide)
  · rfl

/-- How a number begins. -/
def Begins (c : UInt8) (t : List UInt8) : Prop :=
  isdigit c = true ∨ c = '-'.toUInt8 ∧ (isdigit (t.headD 0) = true ∨ t.headD 0 = '.'.toUInt8)

lemma IsNumber.begins (h : IsNumber w) (rest : List UInt8) : ∃ c t, w ++ rest = c :: t ∧ Begins c t := by
  obtain ⟨sign, ds, f, e, rfl, ⟨rfl, ne⟩ | ⟨rfl, ne⟩, digits, fraction, -⟩ := h
  · cases ds with
    | nil => exact absurd rfl ne
    | cons d ds => exact ⟨d, _, rfl, .inl (digits d (by simp))⟩
  · refine ⟨'-'.toUInt8, _, rfl, .inr ⟨rfl, ?_⟩⟩
    cases ds with
    | cons d ds => exact .inl (digits d (by simp))
    | nil =>
      rcases fraction with rfl | ⟨ds, rfl, -⟩
      · simp at ne
      · exact .inr rfl

/-- What is read of a text that begins as a number is one. -/
lemma isNumber_of_begins (h : Begins c t) : ∃ w, c :: t = w ++ afterNumber (c :: t) ∧ IsNumber w := by
  obtain ⟨sign, e0, hsign⟩ := afterSign_split (c :: t)
  obtain ⟨ds, e1, digits⟩ := digits_split (afterSign (c :: t))
  obtain ⟨f, e2, fraction⟩ := afterFraction_split ((afterSign (c :: t)).dropWhile isdigit)
  obtain ⟨e, e3, exponent⟩ := afterExponent_split (afterFraction ((afterSign (c :: t)).dropWhile isdigit))
  have whole : c :: t = sign ++ (ds ++ (f ++ (e ++ afterNumber (c :: t)))) := by
    rw [afterNumber, ← e3, ← e2, ← e1, ← e0]
  refine ⟨sign ++ (ds ++ (f ++ e)), by simpa only [List.append_assoc] using whole, sign, ds, f, e, rfl, ?_, digits, fraction,
    exponent⟩
  -- the first digit, or the point, is not behind the digits
  have first : isdigit ((afterSign (c :: t)).headD 0) = true → ds ≠ [] := by
    rintro digit rfl
    rw [List.nil_append] at e1
    generalize afterSign (c :: t) = s at e1 digit
    cases s with
    | nil => exact absurd digit (by decide)
    | cons d s =>
      rw [List.headD_cons] at digit
      rw [List.dropWhile_cons_of_pos digit] at e1
      have same := congrArg List.length e1
      have := (List.dropWhile_suffix isdigit (l := s)).length_le
      rw [List.length_cons] at same
      omega
  rcases hsign with ⟨rfl, plus⟩ | rfl
  · refine .inl ⟨rfl, first ?_⟩
    rw [List.nil_append] at e0
    rw [← e0]
    rcases h with digit | ⟨rfl, -⟩
    · exact digit
    · exact absurd rfl plus
  · refine .inr ⟨rfl, ?_⟩
    rw [List.singleton_append, List.cons.injEq] at e0
    obtain ⟨rfl, rest⟩ := e0
    rcases h with digit | ⟨-, digit | point⟩
    · exact absurd digit (by decide)
    · exact .inl (first (rest ▸ digit))
    · by_cases ne : ds = []
      · right
        rintro rfl
        subst ne
        rw [List.nil_append] at e1 e2
        rw [← e1, ← rest] at e2
        rw [afterFraction, if_pos point] at e2
        have := (List.dropWhile_suffix isdigit (l := t.tail)).length_le
        cases t with
        | nil => exact absurd point (by decide)
        | cons d t =>
          have same := congrArg List.length e2
          rw [List.tail_cons] at *
          rw [List.length_cons] at same
          omega
      · exact .inl ne

/-! ### Strings -/

lemma spells_of_unescape {r : Option (List UInt8)} (h : unescape s = some (out, r)) :
    ∃ w, Content.Spells w out ∧ s = w ++ r.elim [] ('"'.toUInt8 :: ·) := by
  induction s using unescape.induct generalizing out r with
  | case1 =>
    rw [unescape, Option.some.injEq, Prod.mk.injEq] at h
    obtain ⟨rfl, rfl⟩ := h
    exact ⟨[], .nil, rfl⟩
  | case2 =>
    rw [unescape.eq_def] at h
    simp at h
  | case3 d s e he ih =>
    rw [unescape.eq_def] at h
    simp only [if_pos, he, Option.map_eq_some_iff, Prod.mk.injEq] at h
    obtain ⟨⟨out, r⟩, h, rfl, rfl⟩ := h
    obtain ⟨w, spells, rfl⟩ := ih h
    exact ⟨_, .short he spells, rfl⟩
  | case4 d he h1 h2 h3 h4 s hu ih =>
    rw [unescape.eq_def] at h
    simp only [if_pos, he, if_pos hu, Option.map_eq_some_iff, Prod.mk.injEq] at h
    obtain ⟨⟨out, r⟩, h, rfl, rfl⟩ := h
    obtain ⟨w, spells, rfl⟩ := ih h
    obtain ⟨rfl, digits⟩ := hu
    exact ⟨_, .hex digits spells, rfl⟩
  | case5 d he h1 h2 h3 h4 s hu =>
    rw [unescape.eq_def] at h
    simp only [if_pos, he, if_neg hu] at h
    cases h
  | case6 d s he short =>
    rw [unescape.eq_def] at h
    simp [he] at h
  | case7 c s hc bad =>
    rw [unescape.eq_def] at h
    simp only [if_neg hc, if_pos bad] at h
    cases h
  | case8 s hc good =>
    rw [unescape.eq_def] at h
    simp only [if_neg hc, if_neg good, if_pos, Option.some.injEq, Prod.mk.injEq] at h
    obtain ⟨rfl, rfl⟩ := h
    exact ⟨[], .nil, rfl⟩
  | case9 c s hc good quote ih =>
    rw [unescape.eq_def] at h
    simp only [if_neg hc, if_neg good, if_neg quote, Option.map_eq_some_iff, Prod.mk.injEq] at h
    obtain ⟨⟨out, r⟩, h, rfl, rfl⟩ := h
    obtain ⟨w, spells, rfl⟩ := ih h
    exact ⟨_, .plain good quote hc spells, rfl⟩

lemma Content.Spells.unescape (h : Content.Spells w out) (r : Option (List UInt8)) :
    unescape (w ++ r.elim [] ('"'.toUInt8 :: ·)) = some (out, r) := by
  induction h with
  | nil =>
    cases r with
    | none => rfl
    | some rest =>
      rw [Gason.unescape.eq_def]
      rfl
  | plain good quote hc _ ih =>
    rw [List.cons_append, Gason.unescape.eq_def]
    simp only [if_neg hc, if_neg good, if_neg quote, ih, Option.map_some]
  | short he _ ih =>
    rw [List.cons_append, List.cons_append, Gason.unescape.eq_def]
    simp only [if_pos, he, ih, Option.map_some]
  | hex digits _ ih =>
    have letter : escaped 'u'.toUInt8 = none := by decide
    simp only [List.cons_append]
    rw [Gason.unescape.eq_def]
    simp only [if_pos, letter, digits, and_self, ih, Option.map_some]

variable {toInt : List UInt8 → Int} {v : JsonValue} {r : Option (List UInt8)}

lemma scalar_string : Scalar toInt ('"'.toUInt8 :: s) v r ↔ readString s = .ok (v, r) := by
  constructor
  · intro h
    generalize e : '"'.toUInt8 :: s = t at h
    cases h with
    | @string w out rest spells end_ =>
      obtain ⟨-, rfl⟩ := List.cons.inj e
      have := spells.unescape (some rest)
      rw [Option.elim_some] at this
      rw [readString, this]
      exact if_pos end_
    | unended spells =>
      obtain ⟨-, rfl⟩ := List.cons.inj e
      have := spells.unescape none
      rw [Option.elim_none, List.append_nil] at this
      rw [readString, this]
    | @number w rest number end_ =>
      obtain ⟨c, t, e', begins⟩ := number.begins rest
      obtain ⟨rfl, rfl⟩ := List.cons.inj (e.trans e')
      rcases begins with digit | ⟨minus, -⟩
      · exact absurd digit (by decide)
      · exact absurd minus (by decide)
    | _ => exact absurd (List.cons.inj e).1 (by decide)
  · intro h
    rw [readString] at h
    cases e : unescape s with
    | none =>
      rw [e] at h
      cases h
    | some p =>
      obtain ⟨out, rest⟩ := p
      obtain ⟨w, spells, rfl⟩ := spells_of_unescape e
      rw [e] at h
      cases rest with
      | none =>
        cases h
        rw [Option.elim_none, List.append_nil]
        exact .unended spells
      | some rest =>
        dsimp only at h
        split at h
        next end_ =>
          cases h
          exact .string spells end_
        next => cases h

/-! ### Other scalars -/

/-- How the texts of the scalars begin. -/
lemma Scalar.first (h : Scalar toInt (c :: s) v r) :
    c = '"'.toUInt8 ∨ c = 't'.toUInt8 ∨ c = 'f'.toUInt8 ∨ c = 'n'.toUInt8 ∨ Begins c s := by
  generalize e : c :: s = t at h
  cases h with
  | true => exact .inr (.inl (List.cons.inj e).1)
  | false => exact .inr (.inr (.inl (List.cons.inj e).1))
  | null => exact .inr (.inr (.inr (.inl (List.cons.inj e).1)))
  | nullAtEnd => exact .inr (.inr (.inr (.inl (List.cons.inj e).1)))
  | number number =>
    obtain ⟨c', s', e', begins⟩ := number.begins _
    obtain ⟨rfl, rfl⟩ := List.cons.inj (e.trans e')
    exact .inr (.inr (.inr (.inr begins)))
  | string => exact .inl (List.cons.inj e).1
  | unended => exact .inl (List.cons.inj e).1

lemma scalar_number (begins : Begins c s) : Scalar toInt (c :: s) v r ↔ readNumber toInt (c :: s) = .ok (v, r) := by
  have other : ∀ d : UInt8, isdigit d = false → d ≠ '-'.toUInt8 → c ≠ d := by
    rintro d digit minus rfl
    rcases begins with h | h
    · exact isdigit_ne h digit rfl
    · exact minus h.1
  constructor
  · intro h
    generalize e : c :: s = t at h
    cases h with
    | @number w rest number end_ =>
      have length : (w ++ rest).length - rest.length = w.length := by simp
      rw [readNumber, number.after end_, length, List.take_left]
      exact if_pos end_
    | _ => exact absurd (List.cons.inj e).1 (other _ (by decide) (by decide))
  · intro h
    obtain ⟨w, split, number⟩ := isNumber_of_begins begins
    rw [readNumber] at h
    split at h
    next end_ =>
      cases h
      have text : (c :: s).take ((c :: s).length - (afterNumber (c :: s)).length) = w := by
        have length := congrArg List.length split
        rw [List.length_append] at length
        rw [length, Nat.add_sub_cancel]
        exact (List.prefix_iff_eq_take.1 ⟨_, split.symm⟩).symm
      rw [text]
      nth_rewrite 1 [split]
      exact .number number end_
    next => cases h

lemma readIdentifier_iff {name : List UInt8} {o : JsonValue} {n : Nat} : readIdentifier name o n s = .ok (v, r) ↔
    ∃ t, s = name ++ t ∧ Delimited t ∧ v = o ∧ r = if n ≤ s.length then some (s.drop n) else none := by
  rw [readIdentifier]
  constructor
  · intro h
    split at h
    next good =>
      rw [Bool.and_eq_true] at good
      obtain ⟨t, rfl⟩ := List.isPrefixOf_iff_prefix.1 good.1
      rw [List.drop_left] at good
      cases h
      exact ⟨t, rfl, good.2, rfl, rfl⟩
    next => cases h
  · rintro ⟨t, rfl, end_, rfl, rfl⟩
    have good : name.isPrefixOf (name ++ t) = true := List.isPrefixOf_iff_prefix.2 (List.prefix_append _ _)
    have end_' : isdelim (((name ++ t).drop name.length).headD 0) = true := by rwa [List.drop_left]
    rw [good, end_']
    rfl

lemma scalar_true : Scalar toInt ('t'.toUInt8 :: s) v r ↔ readIdentifier (bytes "rue") .true 3 s = .ok (v, r) := by
  rw [readIdentifier_iff]
  constructor
  · intro h
    generalize e : 't'.toUInt8 :: s = t at h
    cases h with
    | @true rest end_ =>
      obtain ⟨-, rfl⟩ := List.cons.inj e
      exact ⟨rest, rfl, end_, rfl, by rw [if_pos (by simp)]; rfl⟩
    | number number =>
      obtain ⟨c', s', e', begins⟩ := number.begins _
      obtain ⟨rfl, rfl⟩ := List.cons.inj (e.trans e')
      rcases begins with h | ⟨h, -⟩
      all_goals exact absurd h (by decide)
    | _ => exact absurd (List.cons.inj e).1 (by decide)
  · rintro ⟨t, rfl, end_, rfl, rfl⟩
    have : 3 ≤ (bytes "rue" ++ t).length := by rw [List.length_append]; exact Nat.le_add_right 3 _
    rw [if_pos this]
    exact .true end_

lemma scalar_false : Scalar toInt ('f'.toUInt8 :: s) v r ↔ readIdentifier (bytes "alse") .false 4 s = .ok (v, r) := by
  rw [readIdentifier_iff]
  constructor
  · intro h
    generalize e : 'f'.toUInt8 :: s = t at h
    cases h with
    | @false rest end_ =>
      obtain ⟨-, rfl⟩ := List.cons.inj e
      exact ⟨rest, rfl, end_, rfl, by rw [if_pos (by simp)]; rfl⟩
    | number number =>
      obtain ⟨c', s', e', begins⟩ := number.begins _
      obtain ⟨rfl, rfl⟩ := List.cons.inj (e.trans e')
      rcases begins with h | ⟨h, -⟩
      all_goals exact absurd h (by decide)
    | _ => exact absurd (List.cons.inj e).1 (by decide)
  · rintro ⟨t, rfl, end_, rfl, rfl⟩
    have : 4 ≤ (bytes "alse" ++ t).length := by rw [List.length_append]; exact Nat.le_add_right 4 _
    rw [if_pos this]
    exact .false end_

/-- The delimiter behind it, or the NUL, is read with it. -/
lemma scalar_null : Scalar toInt ('n'.toUInt8 :: s) v r ↔ readIdentifier (bytes "ull") .false 4 s = .ok (v, r) := by
  rw [readIdentifier_iff]
  constructor
  · intro h
    generalize e : 'n'.toUInt8 :: s = t at h
    cases h with
    | @null c rest end_ =>
      obtain ⟨-, rfl⟩ := List.cons.inj e
      exact ⟨c :: rest, rfl, end_, rfl, by rw [if_pos (by simp)]; rfl⟩
    | nullAtEnd =>
      obtain ⟨-, rfl⟩ := List.cons.inj e
      exact ⟨[], rfl, rfl, rfl, rfl⟩
    | number number =>
      obtain ⟨c', s', e', begins⟩ := number.begins _
      obtain ⟨rfl, rfl⟩ := List.cons.inj (e.trans e')
      rcases begins with h | ⟨h, -⟩
      all_goals exact absurd h (by decide)
    | _ => exact absurd (List.cons.inj e).1 (by decide)
  · rintro ⟨t, rfl, end_, rfl, rfl⟩
    cases t with
    | nil => exact .nullAtEnd
    | cons c t =>
      have : 4 ≤ (bytes "ull" ++ c :: t).length := by rw [List.length_append, List.length_cons, show (bytes "ull").length = 3 from rfl]; omega
      rw [if_pos this]
      exact .null end_

/-! ## Values -/

lemma Begins.no_delimiter (h : Begins c s) : isdelim c = false := by
  rw [Bool.eq_false_iff]
  intro end_
  have := ends_number end_
  rcases h with digit | ⟨rfl, -⟩
  · exact isdigit_ne digit this.1 rfl
  · exact absurd end_ (by decide)

lemma Scalar.start (h : Scalar toInt s v r) : ∃ c t, s = c :: t ∧ isdelim c = Bool.false := by
  cases h with
  | number number =>
    obtain ⟨c, t, e, begins⟩ := number.begins _
    exact ⟨c, t, e, begins.no_delimiter⟩
  | _ => exact ⟨_, _, rfl, by decide⟩

/-- No value begins with a delimiter. -/
lemma Value.start {n : Nat} (h : Value toInt n s v r) : ∃ c t, s = c :: t ∧ isdelim c = false := by
  cases n with
  | zero => exact Scalar.start h
  | succ n =>
    cases h with
    | scalar h => exact h.start
    | array => exact ⟨_, _, rfl, by decide⟩
    | object => exact ⟨_, _, rfl, by decide⟩

lemma value_of_scalar {n : Nat} (h : Scalar toInt s v r) : Value toInt n s v r := by
  cases n with
  | zero => exact h
  | succ n => exact .scalar h

lemma Value.scalar {n : Nat} (h : Value toInt n (c :: s) v r) (plain : c ≠ '['.toUInt8 ∧ c ≠ '{'.toUInt8) :
    Scalar toInt (c :: s) v r := by
  cases n with
  | zero => exact h
  | succ n =>
    generalize e : c :: s = t at h
    cases h with
    | scalar h => exact h
    | array => exact absurd (List.cons.inj e).1 plain.1
    | object => exact absurd (List.cons.inj e).1 plain.2

/-- A string is a scalar. -/
lemma scalar_of_value {n : Nat} {k : List UInt8} (h : Value toInt n s (.string k) r) : Scalar toInt s (.string k) r := by
  cases n with
  | zero => exact h
  | succ n =>
    cases h with
    | scalar h => exact h

lemma isspace_of_isdelim (h : isdelim c = false) : isspace c = false := by
  simp only [isdelim, Bool.or_eq_false_iff] at h
  exact h.1.2

lemma head_dropWhile (e : s.dropWhile isspace = c :: t) : isspace c = false := by
  have := List.head?_dropWhile_not isspace s
  rw [e] at this
  simpa using this

lemma skips_of_dropWhile (e : s.dropWhile isspace = c :: t) : Skips s (c :: t) := (skips_iff (head_dropWhile e)).2 e

/-- Where the blanks end, a token begins, which is this one. -/
lemma Skips.token {d : UInt8} {u : List UInt8} (h : Skips s (d :: u)) (hd : isspace d = false)
    (e : s.dropWhile isspace = c :: t) : d = c ∧ u = t := by
  have := ((skips_iff hd).1 h).symm.trans e
  exact List.cons.inj this

lemma Skips.start {n : Nat} {s1 : List UInt8} (h : Skips s s1) (value : Value toInt n s1 v r)
    (e : s.dropWhile isspace = c :: t) : s1 = c :: t ∧ isdelim c = false := by
  obtain ⟨d, u, rfl, hd⟩ := value.start
  obtain ⟨rfl, rfl⟩ := h.token (isspace_of_isdelim hd) e
  exact ⟨rfl, hd⟩

lemma items_iff {n : Nat} {separator : Bool} {vs : List JsonValue} (e : s.dropWhile isspace = c :: t) :
    Items (Value toInt n) separator s vs rest ↔
      c = ']'.toUInt8 ∧ vs = [] ∧ rest = t ∨
      c = ','.toUInt8 ∧ separator = false ∧ Items (Value toInt n) true t vs rest ∨
      isdelim c = false ∧ ∃ v s2 vs', vs = v :: vs' ∧ Value toInt n (c :: t) v (some s2) ∧
        Items (Value toInt n) false s2 vs' rest := by
  constructor
  · intro h
    cases h with
    | close skips =>
      obtain ⟨rfl, rfl⟩ := skips.token (by decide) e
      exact .inl ⟨rfl, rfl, rfl⟩
    | comma skips rest =>
      obtain ⟨rfl, rfl⟩ := skips.token (by decide) e
      exact .inr (.inl ⟨rfl, rfl, rest⟩)
    | item skips value rest =>
      obtain ⟨rfl, hc⟩ := skips.start value e
      exact .inr (.inr ⟨hc, _, _, _, rfl, value, rest⟩)
  · have skips := skips_of_dropWhile e
    rintro (⟨rfl, rfl, rfl⟩ | ⟨rfl, rfl, rest⟩ | ⟨-, v, s2, vs', rfl, value, rest⟩)
    · exact .close skips
    · exact .comma skips rest
    · exact .item skips value rest

lemma members_iff {n : Nat} {separator : Bool} {ms : List (List UInt8 × JsonValue)} (e : s.dropWhile isspace = c :: t) :
    Members toInt (Value toInt n) separator s ms rest ↔
      c = '}'.toUInt8 ∧ ms = [] ∧ rest = t ∨
      c = ','.toUInt8 ∧ separator = false ∧ Members toInt (Value toInt n) true t ms rest ∨
      isdelim c = false ∧ ∃ k s2 s3 v s4 ms', ms = (k, v) :: ms' ∧ Scalar toInt (c :: t) (.string k) (some s2) ∧
        Colon false s2 s3 ∧ Value toInt n s3 v (some s4) ∧ Members toInt (Value toInt n) false s4 ms' rest := by
  constructor
  · intro h
    cases h with
    | close skips =>
      obtain ⟨rfl, rfl⟩ := skips.token (by decide) e
      exact .inl ⟨rfl, rfl, rfl⟩
    | comma skips rest =>
      obtain ⟨rfl, rfl⟩ := skips.token (by decide) e
      exact .inr (.inl ⟨rfl, rfl, rest⟩)
    | member skips key colon value rest =>
      have as_value : Value toInt 0 _ _ _ := key
      obtain ⟨rfl, hc⟩ := skips.start as_value e
      exact .inr (.inr ⟨hc, _, _, _, _, _, _, rfl, key, colon, value, rest⟩)
  · have skips := skips_of_dropWhile e
    rintro (⟨rfl, rfl, rfl⟩ | ⟨rfl, rfl, rest⟩ | ⟨-, k, s2, s3, v, s4, ms', rfl, key, colon, value, rest⟩)
    · exact .close skips
    · exact .comma skips rest
    · exact .member skips key colon value rest

/-- A value behind a name, and a colon if there is one. -/
lemma colon_iff {n : Nat} {separator : Bool} {s2 : List UInt8} (e : s.dropWhile isspace = c :: t) :
    (∃ s1, Colon separator s s1 ∧ Value toInt n s1 v (some s2)) ↔
      c = ':'.toUInt8 ∧ separator = false ∧ (∃ s1, Colon true t s1 ∧ Value toInt n s1 v (some s2)) ∨
      isdelim c = false ∧ Value toInt n (c :: t) v (some s2) := by
  have skips := skips_of_dropWhile e
  constructor
  · rintro ⟨s1, skips' | ⟨rfl, s2, skips', behind⟩, value⟩
    · obtain ⟨rfl, hc⟩ := skips'.start value e
      exact .inr ⟨hc, value⟩
    · obtain ⟨rfl, rfl⟩ := skips'.token (by decide) e
      exact .inl ⟨rfl, rfl, s1, .inl behind, value⟩
  · rintro (⟨rfl, rfl, s1, behind | ⟨h, -⟩, value⟩ | ⟨-, value⟩)
    · exact ⟨s1, .inr ⟨rfl, t, skips, behind⟩, value⟩
    · cases h
    · exact ⟨_, .inl skips, value⟩

end

end ArrowheadCore.Json.Gason
