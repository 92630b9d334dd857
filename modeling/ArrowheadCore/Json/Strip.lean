import ArrowheadCore.Json.Comments

/-!
# Comments taken out

`strip` takes the comments out of a text, in one pass that knows nothing of the grammar. What is read with comments is
what is read without them once they are taken out (`parse_comments_iff`).

`strip` knows a literal by its quotes and takes a backslash to escape one byte. A name may have any four bytes behind
`\u`, so the two agree on the texts in which these have no quote among them and do not end in a backslash that escapes
what follows.
-/

namespace ArrowheadCore.Json.JsonView
open Lib Grammar

/-! ## The pass -/

inductive Mode where
  | outside | slash | line | block | star | literal | escape
deriving DecidableEq, Repr

/-- A text without its comments, from the place on that the mode describes. -/
def strip : Mode → List UInt8 → Option (List UInt8)
  | .outside, [] => some []
  | .line, [] => some []
  | .literal, [] => some []
  | .escape, [] => some []
  -- a comment that does not end, or a slash that begins none
  | .slash, [] => none
  | .block, [] => none
  | .star, [] => none
  | .outside, c :: s =>
    if c = '/'.toUInt8 then strip .slash s
    else if c = '"'.toUInt8 then (strip .literal s).map (c :: ·)
    else (strip .outside s).map (c :: ·)
  | .slash, c :: s =>
    if c = '/'.toUInt8 then (strip .line s).map (' '.toUInt8 :: ·)
    else if c = '*'.toUInt8 then (strip .block s).map (' '.toUInt8 :: ·)
    else none
  | .line, c :: s => if c = '\n'.toUInt8 then (strip .outside s).map (c :: ·) else strip .line s
  | .block, c :: s => if c = '*'.toUInt8 then strip .star s else strip .block s
  | .star, c :: s =>
    if c = '/'.toUInt8 then strip .outside s
    else if c = '*'.toUInt8 then strip .star s
    else strip .block s
  | .literal, c :: s =>
    if c = '"'.toUInt8 then (strip .outside s).map (c :: ·)
    else if c = '\\'.toUInt8 then (strip .escape s).map (c :: ·)
    else (strip .literal s).map (c :: ·)
  | .escape, c :: s => (strip .literal s).map (c :: ·)

/-- Whether a part of a literal ends in a backslash that escapes what follows. -/
def escaping : List UInt8 → Bool
  | [] => false
  | [c] => c == '\\'.toUInt8
  | c :: d :: s => if c = '\\'.toUInt8 then escaping s else escaping (d :: s)

/-- The four bytes behind `\u` have no quote among them and do not end in a backslash that escapes what follows. -/
def Tame (t : List UInt8) : Prop :=
  ∀ a b, t = a ++ '\\'.toUInt8 :: 'u'.toUInt8 :: b →
    '"'.toUInt8 ∉ b.take 4 ∧ (4 ≤ b.length → escaping (b.take 4) = false)

/-! ## What the pass keeps -/

section
variable {s rest w o : List UInt8} {m m' : Mode}

attribute [local simp] strip

/-- Bytes that the pass copies: all of a literal, and outside of literals what is neither a blank nor a slash. -/
inductive Copies : Mode → List UInt8 → Mode → Prop
  | nil (m : Mode) : Copies m [] m
  | plain {c : UInt8} {w : List UInt8} {m : Mode} : Solid c → c ≠ '"'.toUInt8 → Copies .outside w m →
    Copies .outside (c :: w) m
  | opening {w : List UInt8} {m : Mode} : Copies .literal w m → Copies .outside ('"'.toUInt8 :: w) m
  | closing {w : List UInt8} {m : Mode} : Copies .outside w m → Copies .literal ('"'.toUInt8 :: w) m
  | inside {c : UInt8} {w : List UInt8} {m : Mode} : c ≠ '"'.toUInt8 → c ≠ '\\'.toUInt8 → Copies .literal w m →
    Copies .literal (c :: w) m
  | escape {c : UInt8} {w : List UInt8} {m : Mode} : Copies .literal w m → Copies .literal ('\\'.toUInt8 :: c :: w) m

lemma strip_copies (h : Copies m w m') (s : List UInt8) : strip m (w ++ s) = (strip m' s).map (w ++ ·) := by
  induction h with
  | nil m => simp
  | plain hc hq _ ih => simp [hc.2, hq, ih, Function.comp_def]
  | opening _ ih =>
    have slash : '"'.toUInt8 ≠ '/'.toUInt8 := by decide
    simp [slash, ih, Function.comp_def]
  | closing _ ih => simp [ih, Function.comp_def]
  | inside hq hb _ ih => simp [hq, hb, ih, Function.comp_def]
  | escape _ ih =>
    have quote : '\\'.toUInt8 ≠ '"'.toUInt8 := by decide
    simp [quote, ih, Function.comp_def]

/-- What the pass gives outside of literals begins with a byte of the text, or with the blank of a comment. -/
lemma strip_outside_inv {c : UInt8} (hc : c ≠ ' '.toUInt8) (e : strip .outside s = some (c :: o)) :
    ∃ s', s = c :: s' ∧ strip (if c = '"'.toUInt8 then .literal else .outside) s' = some o := by
  cases s with
  | nil => cases e
  | cons d s =>
    rw [strip] at e
    by_cases slash : d = '/'.toUInt8
    · rw [if_pos slash] at e
      cases s with
      | nil => cases e
      | cons x s =>
        rw [strip] at e
        split at e
        · simp only [Option.map_eq_some_iff, List.cons.injEq] at e
          obtain ⟨_, -, h, -⟩ := e
          exact absurd h.symm hc
        split at e
        · simp only [Option.map_eq_some_iff, List.cons.injEq] at e
          obtain ⟨_, -, h, -⟩ := e
          exact absurd h.symm hc
        · cases e
    rw [if_neg slash] at e
    by_cases quote : d = '"'.toUInt8
    · simp only [if_pos quote, Option.map_eq_some_iff, List.cons.injEq] at e
      obtain ⟨o', e, rfl, rfl⟩ := e
      exact ⟨s, rfl, by rwa [if_pos quote]⟩
    · simp only [if_neg quote, Option.map_eq_some_iff, List.cons.injEq] at e
      obtain ⟨o', e, rfl, rfl⟩ := e
      exact ⟨s, rfl, by rwa [if_neg quote]⟩

lemma strip_literal_inv {c : UInt8} (e : strip .literal s = some (c :: o)) :
    ∃ s', s = c :: s' ∧
      strip (if c = '"'.toUInt8 then .outside else if c = '\\'.toUInt8 then .escape else .literal) s' = some o := by
  cases s with
  | nil => cases e
  | cons d s =>
    rw [strip] at e
    by_cases quote : d = '"'.toUInt8
    · simp only [if_pos quote, Option.map_eq_some_iff, List.cons.injEq] at e
      obtain ⟨o', e, rfl, rfl⟩ := e
      exact ⟨s, rfl, by rwa [if_pos quote]⟩
    by_cases backslash : d = '\\'.toUInt8
    · simp only [if_neg quote, if_pos backslash, Option.map_eq_some_iff, List.cons.injEq] at e
      obtain ⟨o', e, rfl, rfl⟩ := e
      exact ⟨s, rfl, by rwa [if_neg quote, if_pos backslash]⟩
    · simp only [if_neg quote, if_neg backslash, Option.map_eq_some_iff, List.cons.injEq] at e
      obtain ⟨o', e, rfl, rfl⟩ := e
      exact ⟨s, rfl, by rwa [if_neg quote, if_neg backslash]⟩

lemma strip_copies_inv (h : Copies m w m') {s : List UInt8} (e : strip m s = some (w ++ o)) :
    ∃ rest, s = w ++ rest ∧ strip m' rest = some o := by
  induction h generalizing s with
  | nil m => exact ⟨s, rfl, e⟩
  | @plain c w m hc hq _ ih =>
    have blank : c ≠ ' '.toUInt8 := by
      rintro rfl
      cases hc.1
    obtain ⟨s, rfl, next⟩ := strip_outside_inv blank e
    rw [if_neg hq] at next
    obtain ⟨rest, rfl, last⟩ := ih next
    exact ⟨rest, rfl, last⟩
  | opening _ ih =>
    obtain ⟨s, rfl, next⟩ := strip_outside_inv (by decide) e
    obtain ⟨rest, rfl, last⟩ := ih next
    exact ⟨rest, rfl, last⟩
  | closing _ ih =>
    obtain ⟨s, rfl, next⟩ := strip_literal_inv e
    obtain ⟨rest, rfl, last⟩ := ih next
    exact ⟨rest, rfl, last⟩
  | inside hq hb _ ih =>
    obtain ⟨s, rfl, next⟩ := strip_literal_inv e
    rw [if_neg hq, if_neg hb] at next
    obtain ⟨rest, rfl, last⟩ := ih next
    exact ⟨rest, rfl, last⟩
  | @escape c w m _ ih =>
    obtain ⟨s, rfl, next⟩ := strip_literal_inv e
    rw [if_neg (by decide), if_pos rfl] at next
    cases s with
    | nil => cases next
    | cons d s =>
      rw [strip, Option.map_eq_some_iff] at next
      obtain ⟨o', next, h⟩ := next
      obtain ⟨rfl, rfl⟩ := List.cons.inj h
      obtain ⟨rest, rfl, last⟩ := ih next
      exact ⟨rest, rfl, last⟩

/-! ## What the pass takes out -/

lemma strip_line {body : List UInt8} (hb : '\n'.toUInt8 ∉ body) (s : List UInt8) :
    strip .line (body ++ s) = strip .line s := by
  induction body with
  | nil => rfl
  | cons c body ih =>
    rw [List.mem_cons, not_or] at hb
    rw [List.cons_append, strip, if_neg (Ne.symm hb.1), ih hb.2]

/-- One byte more of a comment that does not end with it. -/
lemma strip_block_cons {a b : UInt8} (hab : ¬(a = '*'.toUInt8 ∧ b = '/'.toUInt8)) (s : List UInt8) :
    strip .block (a :: b :: s) = strip .block (b :: s) := by
  rw [strip]
  split
  next star =>
    have slash : b ≠ '/'.toUInt8 := fun slash => hab ⟨star, slash⟩
    rw [strip, strip, if_neg slash]
  · rfl

lemma strip_closes (h : Closes s rest) : strip .block s = strip .outside rest := by
  induction h with
  | here rest => rfl
  | later hab _ ih => rw [strip_block_cons hab, ih]

lemma strip_unclosed (s : List UInt8) (h : ∀ rest, ¬Closes s rest) : strip .block s = none := by
  match s with
  | [] => rfl
  | [a] =>
    rw [strip]
    split <;> rfl
  | a :: b :: s =>
    by_cases hab : a = '*'.toUInt8 ∧ b = '/'.toUInt8
    · obtain ⟨rfl, rfl⟩ := hab
      exact absurd (.here s) (h s)
    · rw [strip_block_cons hab]
      exact strip_unclosed (b :: s) fun rest hr => h rest (.later hab hr)

lemma strip_openLine (h : OpenLine s) : strip .outside s = some [' '.toUInt8] := by
  obtain ⟨body, rfl, hb⟩ := h
  have line := strip_line hb []
  rw [List.append_nil] at line
  simp [line]

lemma strip_malformed (h : Malformed s) : strip .outside s = none := by
  obtain ⟨cs, rfl, hline, hblock⟩ := h
  cases cs with
  | nil => rfl
  | cons d ds =>
    have line : d ≠ '/'.toUInt8 := fun h => hline (congrArg some h)
    rw [strip, if_pos rfl, strip, if_neg line]
    split
    next star =>
      subst star
      rw [strip_unclosed ds (hblock ds rfl)]
      rfl
    · rfl

/-- Blanks stay, and a comment becomes one. -/
lemma strip_commented (h : Commented w) :
    ∃ b, Blanks b ∧ ∀ s, strip .outside (w ++ s) = (strip .outside s).map (b ++ ·) := by
  have blank : ∀ {c : UInt8}, isBlank c → ∀ s, strip .outside (c :: s) = (strip .outside s).map (c :: ·) := by
    intro c hc s
    have slash : c ≠ '/'.toUInt8 := by
      rintro rfl
      revert hc
      decide
    have quote : c ≠ '"'.toUInt8 := by
      rintro rfl
      revert hc
      decide
    rw [strip, if_neg slash, if_neg quote]
  have space : ∀ {b : List UInt8}, Blanks b → Blanks (' '.toUInt8 :: b) :=
    fun hb => List.forall_mem_cons.2 ⟨by decide, hb⟩
  induction h with
  | nil => exact ⟨[], by simp [Blanks], by simp⟩
  | @blank c w hc _ ih =>
    obtain ⟨b, hb, e⟩ := ih
    refine ⟨c :: b, List.forall_mem_cons.2 ⟨hc, hb⟩, fun s => ?_⟩
    rw [List.cons_append, blank hc, e, Option.map_map]
    rfl
  | @line body w hbody _ ih =>
    obtain ⟨b, hb, e⟩ := ih
    refine ⟨' '.toUInt8 :: b, space hb, fun s => ?_⟩
    have newline : strip .line ('\n'.toUInt8 :: (w ++ s)) = strip .outside ('\n'.toUInt8 :: w ++ s) := by
      rw [strip, if_pos rfl, List.cons_append, blank (by decide)]
    simp only [List.cons_append, List.append_assoc]
    rw [strip, if_pos rfl, strip, if_pos rfl, strip_line hbody, newline, e, Option.map_map]
    rfl
  | @block body w hbody _ ih =>
    obtain ⟨b, hb, e⟩ := ih
    refine ⟨' '.toUInt8 :: b, space hb, fun s => ?_⟩
    have closes : Closes (body ++ (w ++ s)) (w ++ s) := hbody.append (w ++ s)
    simp only [List.cons_append, List.append_assoc]
    rw [strip, if_pos rfl, strip, if_neg (by decide), if_pos rfl, strip_closes closes, e, Option.map_map]
    rfl

lemma strip_skips (h : Skips comments s rest) (e : strip .outside rest = some o) :
    ∃ s', strip .outside s = some s' ∧ Skips jsonView s' o := by
  obtain ⟨w, rfl, hw⟩ := h
  obtain ⟨b, hb, out⟩ := strip_commented hw
  exact ⟨b ++ o, by rw [out, e]; rfl, b, rfl, hb⟩

/-- What is behind the blanks. -/
lemma dropWhile_blanks {c : UInt8} (hw : Blanks w) (hc : isBlank c = false) :
    (w ++ c :: s).dropWhile isBlank = c :: s := by
  rw [List.dropWhile_append_of_pos hw, List.dropWhile_cons_of_neg (by simp [hc])]

/-- A text with a token behind the blanks that the pass gives has the token behind its blanks and comments. -/
lemma strip_skips_inv {c : UInt8} {s' : List UInt8} (hc : Solid c) (e : strip .outside s = some s')
    (h : Skips jsonView s' (c :: o)) :
    ∃ rest, Skips comments s (c :: rest) ∧ strip .outside (c :: rest) = some (c :: o) := by
  obtain ⟨w, rfl, hw⟩ := h
  have token := dropWhile_blanks (s := o) hw hc.1
  obtain ⟨rest, ⟨v, rfl, hv⟩, halts⟩ := skips_halts s
  obtain ⟨b, hb, out⟩ := strip_commented hv
  rw [out] at e
  cases halts with
  | malformed malformed =>
    rw [strip_malformed malformed] at e
    cases e
  | openLine line =>
    rw [strip_openLine line, Option.map_some, Option.some.injEq] at e
    rw [← e, List.dropWhile_append_of_pos hb] at token
    cases token
  | solid solid =>
    cases rest with
    | nil =>
      rw [strip, Option.map_some, Option.some.injEq] at e
      rw [← e, List.dropWhile_append_of_pos hb] at token
      cases token
    | cons d rest =>
      have hd := solid d rfl
      obtain ⟨x, behind, e⟩ := Option.map_eq_some_iff.1 e
      obtain ⟨o', rfl⟩ : ∃ o', x = d :: o' := by
        rw [strip, if_neg hd.2] at behind
        split at behind
        · obtain ⟨o', -, h⟩ := Option.map_eq_some_iff.1 behind
          exact ⟨o', h.symm⟩
        · obtain ⟨o', -, h⟩ := Option.map_eq_some_iff.1 behind
          exact ⟨o', h.symm⟩
      rw [← e, dropWhile_blanks hb hd.1, List.cons.injEq] at token
      obtain ⟨rfl, rfl⟩ := token
      exact ⟨rest, ⟨v, rfl, hv⟩, behind⟩

/-- If nothing but blanks is left, there was nothing but blanks and comments. -/
lemma finished_iff : Finished s ↔ ∃ s', strip .outside s = some s' ∧ Skips jsonView s' [] := by
  constructor
  · rintro ⟨rest, skip, rfl | line⟩
    · exact strip_skips skip rfl
    · obtain ⟨s', e, w, rfl, hw⟩ := strip_skips skip (strip_openLine line)
      refine ⟨_, e, w ++ [' '.toUInt8], by simp, ?_⟩
      intro c hc
      obtain hc | hc := List.mem_append.1 hc
      · exact hw c hc
      · rw [List.mem_singleton.1 hc]
        decide
  · rintro ⟨s', e, w, rfl, hw⟩
    rw [List.append_nil] at e
    obtain ⟨rest, skip, halts⟩ := skips_halts s
    cases halts with
    | openLine line => exact ⟨rest, skip, .inr line⟩
    | malformed malformed =>
      obtain ⟨v, rfl, hv⟩ := skip
      obtain ⟨b, -, out⟩ := strip_commented hv
      rw [out, strip_malformed malformed] at e
      cases e
    | solid solid =>
      refine ⟨rest, skip, .inl ?_⟩
      by_contra hne
      obtain ⟨d, rest, rfl⟩ := List.exists_cons_of_ne_nil hne
      have hd := solid d rfl
      obtain ⟨v, rfl, hv⟩ := skip
      obtain ⟨b, hb, out⟩ := strip_commented hv
      rw [out, strip, if_neg hd.2] at e
      obtain ⟨x, behind, e⟩ := Option.map_eq_some_iff.1 e
      have mem : d ∈ x := by
        split at behind
        · obtain ⟨o', -, rfl⟩ := Option.map_eq_some_iff.1 behind
          exact List.mem_cons_self
        · obtain ⟨o', -, rfl⟩ := Option.map_eq_some_iff.1 behind
          exact List.mem_cons_self
      have blank := hw d (e ▸ List.mem_append_right b mem)
      rw [hd.1] at blank
      cases blank

/-! ## Literals and numbers -/

lemma Copies.trans {v : List UInt8} {m'' : Mode} (h1 : Copies m v m') (h2 : Copies m' w m'') :
    Copies m (v ++ w) m'' := by
  induction h1 with
  | nil => exact h2
  | plain hc hq _ ih => exact .plain hc hq (ih h2)
  | opening _ ih => exact .opening (ih h2)
  | closing _ ih => exact .closing (ih h2)
  | inside hq hb _ ih => exact .inside hq hb (ih h2)
  | escape _ ih => exact .escape (ih h2)

lemma Tame.suffix {t : List UInt8} (h : Tame t) (hs : s <:+ t) : Tame s := by
  obtain ⟨a, rfl⟩ := hs
  rintro b c rfl
  exact h (a ++ b) c (by simp)

lemma copies_unquoted {v : List UInt8} (hq : '"'.toUInt8 ∉ v) (he : escaping v = false) (h : Copies .literal w m) :
    Copies .literal (v ++ w) m := by
  fun_induction escaping v with
  | case1 => exact h
  | case2 c =>
    rw [List.mem_singleton] at hq
    exact .inside (Ne.symm hq) (by simpa using he) h
  | case3 d s ih =>
    simp only [List.mem_cons, not_or] at hq
    exact .escape (ih hq.2.2 he)
  | case4 c d s hc ih =>
    rw [List.mem_cons, not_or] at hq
    exact .inside (Ne.symm hq.1) hc (ih hq.2 he)

lemma copies_name {k : List UInt8} (hk : IsName k) (tame : Tame k) :
    Copies .literal (k ++ ['"'.toUInt8]) .outside := by
  induction hk with
  | nil => exact .closing (.nil _)
  | plain hq hb _ ih => exact .inside hq hb (ih (tame.suffix (List.suffix_cons _ _)))
  | short _ _ ih => exact .escape (ih (tame.suffix ((List.suffix_cons _ _).trans (List.suffix_cons _ _))))
  | @hex a b c d k _ ih =>
    obtain ⟨hq, he⟩ := tame [] _ rfl
    have inner := ih (tame.suffix ⟨['\\'.toUInt8, 'u'.toUInt8, a, b, c, d], rfl⟩)
    exact .escape (copies_unquoted (v := [a, b, c, d]) hq (he (by simp)) inner)

lemma hex_digit {c : UInt8} (h : isDigitOf 16 c) : c ≠ '"'.toUInt8 ∧ c ≠ '\\'.toUInt8 := by
  refine ⟨?_, ?_⟩ <;>
  · rintro rfl
    revert h
    decide

lemma copies_spells {last : Int} {out : List UInt8} (h : Spells last s out) :
    Copies .literal (s ++ ['"'.toUInt8]) .outside := by
  induction h with
  | nil => exact .closing (.nil _)
  | plain _ hq hb _ ih => exact .inside hq hb ih
  | short _ _ ih => exact .escape ih
  | @hex last a b c d s out hd _ ih =>
    simp only [List.all_cons, List.all_nil, Bool.and_true, Bool.and_eq_true] at hd
    obtain ⟨ha, hb, hc, hd⟩ := hd
    have digits : Copies .literal ([a, b, c, d] ++ (s ++ ['"'.toUInt8])) .outside := by
      refine .inside (hex_digit ha).1 (hex_digit ha).2 (.inside (hex_digit hb).1 (hex_digit hb).2 ?_)
      exact .inside (hex_digit hc).1 (hex_digit hc).2 (.inside (hex_digit hd).1 (hex_digit hd).2 ih)
    exact .escape digits

lemma copies_plain (h : ∀ c ∈ w, Solid c ∧ c ≠ '"'.toUInt8) : Copies .outside w .outside := by
  induction w with
  | nil => exact .nil _
  | cons c w ih =>
    obtain ⟨hc, hw⟩ := List.forall_mem_cons.1 h
    exact .plain hc.1 hc.2 (ih hw)

lemma copies_word (h : w.all fun c => decide (Solid c ∧ c ≠ '"'.toUInt8)) : Copies .outside w .outside :=
  copies_plain fun c hc => of_decide_eq_true (List.all_eq_true.1 h c hc)

lemma copies_number {v : JsonNode} (h : IsNumber s v) : Copies .outside s .outside := by
  have digits : ∀ {ds : List UInt8}, (∀ d ∈ ds, isDigit d) → Copies .outside ds .outside := by
    intro ds hd
    refine copies_plain fun c hc => ⟨(solid_number (.inr (hd c hc))).1, ?_⟩
    rintro rfl
    have := hd _ hc
    revert this
    decide
  have sign : ∀ {c : UInt8}, c = '-'.toUInt8 ∨ c = '+'.toUInt8 ∨ c = '.'.toUInt8 ∨ c = 'e'.toUInt8 ∨ c = 'E'.toUInt8 →
      Copies .outside [c] .outside := by
    rintro c (rfl | rfl | rfl | rfl | rfl) <;> exact copies_word (by decide)
  have int : ∀ {i : List UInt8}, IsInt i → Copies .outside i .outside := by
    rintro i ⟨mark, ds, rfl, rfl | rfl, hd, -⟩
    · exact digits hd.2
    · exact (sign (by simp)).trans (digits hd.2)
  cases h with
  | int hi => exact int hi
  | @double i f e hi hf he =>
    have frac : Copies .outside f .outside := by
      obtain rfl | ⟨ds, rfl, hd⟩ := hf
      · exact .nil _
      · exact (sign (by simp)).trans (digits hd.2)
    have exp : Copies .outside e .outside := by
      obtain rfl | ⟨mark, plus, ds, rfl, hm, hplus, hd⟩ := he
      · exact .nil _
      have signs : Copies .outside plus .outside := by
        obtain rfl | rfl | rfl := hplus
        · exact .nil _
        · exact sign (by simp)
        · exact sign (by simp)
      exact (sign (by tauto)).trans (signs.trans (digits hd.2))
    exact (int hi).trans (frac.trans exp)

end

/-! ## Values -/

section
variable {text s s' rest o : List UInt8} {V V' : List UInt8 → JsonNode → List UInt8 → Prop}

/-- The pass takes the values of the one kind to those of the other, and gives no others. -/
structure Strips (text : List UInt8) (V V' : List UInt8 → JsonNode → List UInt8 → Prop) : Prop where
  suffix : ∀ {s v rest}, V s v rest → rest <:+ s
  head : ∀ {s v rest}, V' s v rest → ∃ c cs, s = c :: cs ∧ Solid c ∧ c ≠ ']'.toUInt8
  forth : ∀ {s v rest o}, s <:+ text → V s v rest → strip .outside rest = some o →
    ∃ s', strip .outside s = some s' ∧ V' s' v o
  back : ∀ {s s' v o}, s <:+ text → strip .outside s = some s' → V' s' v o →
    ∃ rest, V s v rest ∧ strip .outside rest = some o

/-- A token, in front of what the pass gives for the rest. -/
lemma strip_token {c : UInt8} (hc : Solid c ∧ c ≠ '"'.toUInt8) (e : strip .outside rest = some o) :
    strip .outside (c :: rest) = some (c :: o) := by
  rw [strip, if_neg hc.1.2, if_neg hc.2, e]
  rfl

lemma strip_token_inv {c : UInt8} (hc : Solid c ∧ c ≠ '"'.toUInt8) (e : strip .outside (c :: rest) = some (c :: o)) :
    strip .outside rest = some o := by
  rw [strip, if_neg hc.1.2, if_neg hc.2, Option.map_eq_some_iff] at e
  obtain ⟨o', e, h⟩ := e
  rw [e, (List.cons.inj h).2]

lemma strip_items (hV : Strips text V V') {vs : List JsonNode} (hs : s <:+ text) (h : Items comments V s vs rest)
    (e : strip .outside rest = some o) : ∃ s', strip .outside s = some s' ∧ Items jsonView V' s' vs o := by
  induction h generalizing o with
  | last h1 hv h2 =>
    obtain ⟨s2, e2, skip2⟩ := strip_skips h2 (strip_token (by decide) e)
    obtain ⟨s1, e1, value⟩ := hV.forth (h1.suffix hs) hv e2
    obtain ⟨s0, e0, skip1⟩ := strip_skips h1 e1
    exact ⟨s0, e0, .last skip1 value skip2⟩
  | more h1 hv h2 _ ih =>
    have inner := h2.suffix ((hV.suffix hv).trans (h1.suffix hs))
    obtain ⟨s3, e3, items⟩ := ih (suffix_of_cons inner) e
    obtain ⟨s2, e2, skip2⟩ := strip_skips h2 (strip_token (by decide) e3)
    obtain ⟨s1, e1, value⟩ := hV.forth (h1.suffix hs) hv e2
    obtain ⟨s0, e0, skip1⟩ := strip_skips h1 e1
    exact ⟨s0, e0, .more skip1 value skip2 items⟩

lemma strip_items_inv (hV : Strips text V V') {vs : List JsonNode} (hs : s <:+ text) (e : strip .outside s = some s')
    (h : Items jsonView V' s' vs o) : ∃ rest, Items comments V s vs rest ∧ strip .outside rest = some o := by
  induction h generalizing s with
  | last h1 hv h2 =>
    obtain ⟨c, cs, rfl, solid, -⟩ := hV.head hv
    obtain ⟨s1, skip1, e1⟩ := strip_skips_inv solid e h1
    obtain ⟨s2, value, e2⟩ := hV.back (skip1.suffix hs) e1 hv
    obtain ⟨rest, skip2, e3⟩ := strip_skips_inv (by decide) e2 h2
    exact ⟨rest, .last skip1 value skip2, strip_token_inv (by decide) e3⟩
  | more h1 hv h2 _ ih =>
    obtain ⟨c, cs, rfl, solid, -⟩ := hV.head hv
    obtain ⟨s1, skip1, e1⟩ := strip_skips_inv solid e h1
    obtain ⟨s2, value, e2⟩ := hV.back (skip1.suffix hs) e1 hv
    obtain ⟨s3, skip2, e3⟩ := strip_skips_inv (by decide) e2 h2
    have inner := skip2.suffix ((hV.suffix value).trans (skip1.suffix hs))
    obtain ⟨rest, items, e4⟩ := ih (suffix_of_cons inner) (strip_token_inv (by decide) e3)
    exact ⟨rest, .more skip1 value skip2 items, e4⟩

/-- A name between its quotes. -/
lemma strip_quoted {k : List UInt8} (h : Copies .literal (k ++ ['"'.toUInt8]) .outside)
    (e : strip .outside rest = some o) :
    strip .outside ('"'.toUInt8 :: (k ++ '"'.toUInt8 :: rest)) = some ('"'.toUInt8 :: (k ++ '"'.toUInt8 :: o)) := by
  have out := strip_copies (.opening h) rest
  rw [e] at out
  simpa using out

lemma strip_quoted_inv {k t : List UInt8} (h : Copies .literal (k ++ ['"'.toUInt8]) .outside)
    (e : strip .outside ('"'.toUInt8 :: t) = some ('"'.toUInt8 :: (k ++ '"'.toUInt8 :: o))) :
    ∃ rest, t = k ++ '"'.toUInt8 :: rest ∧ strip .outside rest = some o := by
  have split : '"'.toUInt8 :: (k ++ '"'.toUInt8 :: o) = '"'.toUInt8 :: (k ++ ['"'.toUInt8]) ++ o := by simp
  rw [split] at e
  obtain ⟨rest, h, e⟩ := strip_copies_inv (.opening h) e
  exact ⟨rest, by simpa using h, e⟩

/-- A literal without a quote is copied to its end. -/
lemma strip_unquoted {t : List UInt8} (h : '"'.toUInt8 ∉ t) : strip .literal t = some t ∧ strip .escape t = some t := by
  induction t with
  | nil => exact ⟨rfl, rfl⟩
  | cons c t ih =>
    rw [List.mem_cons, not_or] at h
    obtain ⟨literal, escape⟩ := ih h.2
    refine ⟨?_, by rw [strip, literal]; rfl⟩
    rw [strip, if_neg (Ne.symm h.1), literal, escape]
    split <;> rfl

/-- A name that the pass gives is in the text. -/
lemma strip_name_inv {k t : List UInt8} (hk : IsName k) (tame : Tame t)
    (e : strip .literal t = some (k ++ '"'.toUInt8 :: o)) :
    ∃ rest, t = k ++ '"'.toUInt8 :: rest ∧ strip .outside rest = some o := by
  induction hk generalizing t with
  | nil =>
    obtain ⟨rest, rfl, last⟩ := strip_literal_inv e
    exact ⟨rest, rfl, last⟩
  | @plain c k hq hb _ ih =>
    obtain ⟨t, rfl, next⟩ := strip_literal_inv e
    rw [if_neg hq, if_neg hb] at next
    obtain ⟨rest, rfl, last⟩ := ih (tame.suffix (List.suffix_cons _ _)) next
    exact ⟨rest, rfl, last⟩
  | @short x k _ _ ih =>
    obtain ⟨t', rfl, next⟩ := strip_copies_inv (w := ['\\'.toUInt8, x]) (.escape (.nil _)) e
    obtain ⟨rest, rfl, last⟩ := ih (tame.suffix (List.suffix_append _ _)) next
    exact ⟨rest, rfl, last⟩
  | @hex a b c d k _ ih =>
    obtain ⟨t', rfl, next⟩ := strip_copies_inv (w := ['\\'.toUInt8, 'u'.toUInt8]) (.escape (.nil _)) e
    have behind : strip .literal t' = some ([a, b, c, d] ++ (k ++ '"'.toUInt8 :: o)) := next
    obtain ⟨hq, he⟩ := tame [] t' rfl
    obtain hlt | hge := Nat.lt_or_ge t'.length 4
    · rw [List.take_of_length_le (Nat.le_of_lt hlt)] at hq
      rw [(strip_unquoted hq).1, Option.some.injEq] at behind
      have length := congrArg List.length behind
      rw [List.length_append] at length
      simp only [List.length_cons] at length
      omega
    obtain ⟨a', b', c', d', u, rfl⟩ : ∃ a' b' c' d' u, t' = a' :: b' :: c' :: d' :: u := by
      match t', hge with
      | a' :: b' :: c' :: d' :: u, _ => exact ⟨a', b', c', d', u, rfl⟩
    have four : Copies .literal ([a', b', c', d'] ++ []) .literal := copies_unquoted hq (he hge) (.nil _)
    have out : strip .literal (a' :: b' :: c' :: d' :: u) = (strip .literal u).map ([a', b', c', d'] ++ ·) :=
      strip_copies four u
    rw [out, Option.map_eq_some_iff] at behind
    obtain ⟨o', inside, h⟩ := behind
    obtain ⟨heads, tails⟩ := List.append_inj h rfl
    simp only [List.cons.injEq, and_true] at heads
    obtain ⟨rfl, rfl, rfl, rfl⟩ := heads
    rw [tails] at inside
    have inner : u <:+ ['\\'.toUInt8, 'u'.toUInt8] ++ a' :: b' :: c' :: d' :: u :=
      ⟨['\\'.toUInt8, 'u'.toUInt8, a', b', c', d'], rfl⟩
    obtain ⟨rest, rfl, last⟩ := ih (tame.suffix inner) inside
    exact ⟨rest, rfl, last⟩

lemma Tame.of_append {t u : List UInt8} (h : Tame (t ++ u)) : Tame t := by
  rintro a b rfl
  obtain ⟨hq, he⟩ := h a (b ++ u) (by simp)
  refine ⟨fun mem => hq ?_, fun hb => ?_⟩
  · rw [List.take_append]
    exact List.mem_append_left _ mem
  · have length : 4 ≤ (b ++ u).length := by
      rw [List.length_append]
      omega
    rw [← List.take_append_of_le_length hb]
    exact he length

lemma strip_member (tame : Tame text) (hV : Strips text V V') {m : List UInt8 × JsonNode} (hs : s <:+ text)
    (h : Member comments V s m rest) (e : strip .outside rest = some o) :
    ∃ s', strip .outside s = some s' ∧ Member jsonView V' s' m o := by
  cases h with
  | mk h1 hk h2 h3 hv =>
    have hs0 := suffix_of_cons (h1.suffix hs)
    have hs1 := suffix_of_cons (suffix_of_append hs0)
    have hs3 := h3.suffix (suffix_of_cons (h2.suffix hs1))
    obtain ⟨s3, e3, value⟩ := hV.forth hs3 hv e
    obtain ⟨s2, e2, skip3⟩ := strip_skips h3 e3
    obtain ⟨s1, e1, skip2⟩ := strip_skips h2 (strip_token (by decide) e2)
    have name := copies_name hk (tame.suffix hs0).of_append
    obtain ⟨s0, e0, skip1⟩ := strip_skips h1 (strip_quoted name e1)
    exact ⟨s0, e0, .mk skip1 hk skip2 skip3 value⟩

lemma strip_member_inv (tame : Tame text) (hV : Strips text V V') {m : List UInt8 × JsonNode} (hs : s <:+ text)
    (e : strip .outside s = some s') (h : Member jsonView V' s' m o) :
    ∃ rest, Member comments V s m rest ∧ strip .outside rest = some o := by
  cases h with
  | mk h1 hk h2 h3 hv =>
    obtain ⟨t, skip1, e1⟩ := strip_skips_inv (by decide) e h1
    have ht := suffix_of_cons (skip1.suffix hs)
    obtain ⟨t', h, literal⟩ := strip_outside_inv (by decide) e1
    obtain ⟨-, rfl⟩ := List.cons.inj h
    rw [if_pos rfl] at literal
    obtain ⟨s1, rfl, e2⟩ := strip_name_inv hk (tame.suffix ht) literal
    have hs1 := suffix_of_cons (suffix_of_append ht)
    obtain ⟨s2, skip2, e3⟩ := strip_skips_inv (by decide) e2 h2
    have hs2 := suffix_of_cons (skip2.suffix hs1)
    obtain ⟨c, cs, rfl, solid, -⟩ := hV.head hv
    obtain ⟨s3, skip3, e4⟩ := strip_skips_inv solid (strip_token_inv (by decide) e3) h3
    obtain ⟨rest, value, e5⟩ := hV.back (skip3.suffix hs2) e4 hv
    exact ⟨rest, .mk skip1 hk skip2 skip3 value, e5⟩

lemma strip_members (tame : Tame text) (hV : Strips text V V') {ms : List (List UInt8 × JsonNode)} (hs : s <:+ text)
    (h : Members comments V s ms rest) (e : strip .outside rest = some o) :
    ∃ s', strip .outside s = some s' ∧ Members jsonView V' s' ms o := by
  induction h generalizing o with
  | last hm h2 =>
    obtain ⟨s1, e1, skip⟩ := strip_skips h2 (strip_token (by decide) e)
    obtain ⟨s0, e0, member⟩ := strip_member tame hV hs hm e1
    exact ⟨s0, e0, .last member skip⟩
  | more hm h2 _ ih =>
    have inner := h2.suffix ((hm.suffix hV.suffix).trans hs)
    obtain ⟨s2, e2, members⟩ := ih (suffix_of_cons inner) e
    obtain ⟨s1, e1, skip⟩ := strip_skips h2 (strip_token (by decide) e2)
    obtain ⟨s0, e0, member⟩ := strip_member tame hV hs hm e1
    exact ⟨s0, e0, .more member skip members⟩

lemma strip_members_inv (tame : Tame text) (hV : Strips text V V') {ms : List (List UInt8 × JsonNode)}
    (hs : s <:+ text) (e : strip .outside s = some s') (h : Members jsonView V' s' ms o) :
    ∃ rest, Members comments V s ms rest ∧ strip .outside rest = some o := by
  induction h generalizing s with
  | last hm h2 =>
    obtain ⟨s1, member, e1⟩ := strip_member_inv tame hV hs e hm
    obtain ⟨rest, skip, e2⟩ := strip_skips_inv (by decide) e1 h2
    exact ⟨rest, .last member skip, strip_token_inv (by decide) e2⟩
  | more hm h2 _ ih =>
    obtain ⟨s1, member, e1⟩ := strip_member_inv tame hV hs e hm
    obtain ⟨s2, skip, e2⟩ := strip_skips_inv (by decide) e1 h2
    have inner := skip.suffix ((member.suffix hV.suffix).trans hs)
    obtain ⟨rest, members, e3⟩ := ih (suffix_of_cons inner) (strip_token_inv (by decide) e2)
    exact ⟨rest, .more member skip members, e3⟩

/-- Bytes that are copied, in front of what the pass gives for the rest. -/
lemma strip_word {w : List UInt8} (h : Copies .outside w .outside) (e : strip .outside rest = some o) :
    strip .outside (w ++ rest) = some (w ++ o) := by
  rw [strip_copies h, e]
  rfl

lemma strip_layer (tame : Tame text) (hV : Strips text V V') {v : JsonNode} (hs : s <:+ text)
    (h : Layer comments V s v rest) (e : strip .outside rest = some o) :
    ∃ s', strip .outside s = some s' ∧ Layer jsonView V' s' v o := by
  cases h with
  | null => exact ⟨_, strip_word (copies_word (by decide)) e, .null o⟩
  | true => exact ⟨_, strip_word (copies_word (by decide)) e, .true o⟩
  | false => exact ⟨_, strip_word (copies_word (by decide)) e, .false o⟩
  | number _ h => exact ⟨_, strip_word (copies_number h) e, .number o h⟩
  | string _ h => exact ⟨_, strip_quoted (copies_spells h) e, .string o h⟩
  | emptyArray h =>
    obtain ⟨s', e', skip⟩ := strip_skips h (strip_token (by decide) e)
    exact ⟨_, strip_token (by decide) e', .emptyArray skip⟩
  | array h =>
    obtain ⟨s', e', items⟩ := strip_items hV (suffix_of_cons hs) h e
    exact ⟨_, strip_token (by decide) e', .array items⟩
  | emptyObject h =>
    obtain ⟨s', e', skip⟩ := strip_skips h (strip_token (by decide) e)
    exact ⟨_, strip_token (by decide) e', .emptyObject skip⟩
  | object h =>
    obtain ⟨s', e', members⟩ := strip_members tame hV (suffix_of_cons hs) h e
    exact ⟨_, strip_token (by decide) e', .object members⟩

lemma strip_layer_inv (tame : Tame text) (hV : Strips text V V') {v : JsonNode} (hs : s <:+ text)
    (e : strip .outside s = some s') (h : Layer jsonView V' s' v o) :
    ∃ rest, Layer comments V s v rest ∧ strip .outside rest = some o := by
  have word : ∀ {w : List UInt8}, Copies .outside w .outside → strip .outside s = some (w ++ o) →
      ∃ rest, s = w ++ rest ∧ strip .outside rest = some o := fun h e => strip_copies_inv h e
  have bracket : ∀ {c : UInt8} {t : List UInt8}, Solid c ∧ c ≠ '"'.toUInt8 → strip .outside s = some (c :: t) →
      ∃ s1, s = c :: s1 ∧ strip .outside s1 = some t := fun hc e =>
    strip_copies_inv (w := [_]) (.plain hc.1 hc.2 (.nil _)) e
  cases h with
  | null =>
    obtain ⟨rest, rfl, e1⟩ := word (copies_word (by decide)) e
    exact ⟨rest, .null rest, e1⟩
  | true =>
    obtain ⟨rest, rfl, e1⟩ := word (copies_word (by decide)) e
    exact ⟨rest, .true rest, e1⟩
  | false =>
    obtain ⟨rest, rfl, e1⟩ := word (copies_word (by decide)) e
    exact ⟨rest, .false rest, e1⟩
  | number _ h =>
    obtain ⟨rest, rfl, e1⟩ := word (copies_number h) e
    exact ⟨rest, .number rest h, e1⟩
  | string _ h =>
    obtain ⟨t, rfl, -⟩ := strip_outside_inv (by decide) e
    obtain ⟨rest, rfl, e1⟩ := strip_quoted_inv (copies_spells h) e
    exact ⟨rest, .string rest h, e1⟩
  | emptyArray h =>
    obtain ⟨s1, rfl, e1⟩ := bracket (by decide) e
    obtain ⟨rest, skip, e2⟩ := strip_skips_inv (by decide) e1 h
    exact ⟨rest, .emptyArray skip, strip_token_inv (by decide) e2⟩
  | array h =>
    obtain ⟨s1, rfl, e1⟩ := bracket (by decide) e
    obtain ⟨rest, items, e2⟩ := strip_items_inv hV (suffix_of_cons hs) e1 h
    exact ⟨rest, .array items, e2⟩
  | emptyObject h =>
    obtain ⟨s1, rfl, e1⟩ := bracket (by decide) e
    obtain ⟨rest, skip, e2⟩ := strip_skips_inv (by decide) e1 h
    exact ⟨rest, .emptyObject skip, strip_token_inv (by decide) e2⟩
  | object h =>
    obtain ⟨s1, rfl, e1⟩ := bracket (by decide) e
    obtain ⟨rest, members, e2⟩ := strip_members_inv tame hV (suffix_of_cons hs) e1 h
    exact ⟨rest, .object members, e2⟩

theorem strips_value (tame : Tame text) (n : Nat) : Strips text (Value comments n) (Value jsonView n) := by
  induction n with
  | zero => exact ⟨fun h => h.elim, fun h => h.elim, fun _ h => h.elim, fun _ _ h => h.elim⟩
  | succ n ih =>
    exact ⟨Value.suffix, value_head, fun hs h e => strip_layer tame ih hs h e,
      fun hs e h => strip_layer_inv tame ih hs e h⟩

/-- A text is read with comments if and only if it is read without them once they are taken out, as the same tree. -/
theorem parse_comments_iff (text : List UInt8) (tame : Tame text) (v : JsonNode) :
    parse_throw_on_error text .COMMENTS = some (.ok v) ↔
      ∃ stripped, strip .outside text = some stripped ∧ parse_throw_on_error stripped .STANDARD = some (.ok v) := by
  have strips := strips_value tame (max_depth + 1)
  rw [parse_comments_iff_value]
  constructor
  · rintro ⟨s1, s2, skip, value, finished⟩
    obtain ⟨t2, e2, skip2⟩ := finished_iff.1 finished
    obtain ⟨t1, e1, value'⟩ := strips.forth (skip.suffix List.suffix_rfl) value e2
    obtain ⟨t, e, skip'⟩ := strip_skips skip e1
    exact ⟨t, e, parse_of_document ⟨t1, t2, skip', value', skip2⟩ .STANDARD⟩
  · rintro ⟨t, e, parsed⟩
    obtain ⟨t1, t2, skip, value, skip2⟩ : Document jsonView (max_depth + 1) t v := document_of_parse parsed
    obtain ⟨c, cs, rfl, solid, -⟩ := strips.head value
    obtain ⟨s1, skip', e1⟩ := strip_skips_inv solid e skip
    obtain ⟨s2, value', e2⟩ := strips.back (skip'.suffix List.suffix_rfl) e1 value
    exact ⟨_, s2, skip', value', finished_iff.2 ⟨t2, e2, skip2⟩⟩

/-- Comments of both kinds between the tokens of an array, and one in a string. -/
theorem parse_comments_iff_array :
    parse_throw_on_error (bytes "[1,/**/\"//\"]//") .COMMENTS = some (.ok (.array [.int 1, .string (bytes "//")])) ↔
      ∃ stripped, strip .outside (bytes "[1,/**/\"//\"]//") = some stripped ∧
        parse_throw_on_error stripped .STANDARD = some (.ok (.array [.int 1, .string (bytes "//")])) := by
  refine parse_comments_iff _ ?_ _
  intro a b h
  have mem : '\\'.toUInt8 ∈ bytes "[1,/**/\"//\"]//" := by
    rw [h]
    simp
  exact absurd mem (by decide)

/-- A name whose last byte is a backslash that escapes nothing, and a comment behind it. -/
def hiddenQuote : List UInt8 := bytes "\x7b\"\\uabc\\\":1/**/\x7d"

/-- The pass takes the quote behind that backslash to be escaped, and the comment to be in the literal. -/
theorem parse_comments_backslash : ¬∀ text : List UInt8,
    (∀ a b, text = a ++ '\\'.toUInt8 :: 'u'.toUInt8 :: b → '"'.toUInt8 ∉ b.take 4) → ∀ v,
      (parse_throw_on_error text .COMMENTS = some (.ok v) ↔
        ∃ stripped, strip .outside text = some stripped ∧ parse_throw_on_error stripped .STANDARD = some (.ok v)) := by
  intro h
  have unquoted : ∀ a b, hiddenQuote = a ++ '\\'.toUInt8 :: 'u'.toUInt8 :: b → '"'.toUInt8 ∉ b.take 4 := by
    intro a b e
    have places : ∀ n < hiddenQuote.length, hiddenQuote[n]? = some '\\'.toUInt8 →
        hiddenQuote[n + 1]? = some 'u'.toUInt8 → '"'.toUInt8 ∉ (hiddenQuote.drop (n + 2)).take 4 := by decide
    have here := places a.length
    rw [e] at here
    simpa using here
  have read : (parse_throw_on_error hiddenQuote .COMMENTS).any Except.isOk = true := by decide +kernel
  have unread : (parse_throw_on_error hiddenQuote .STANDARD).any Except.isOk = false := by decide +kernel
  have same : strip .outside hiddenQuote = some hiddenQuote := by decide
  obtain ⟨r, e, ok⟩ := (Option.any_eq_true _ _).1 read
  cases r with
  | error what => cases ok
  | ok v =>
    obtain ⟨stripped, stays, parsed⟩ := (h hiddenQuote unquoted v).1 e
    rw [same, Option.some.injEq] at stays
    rw [stays, parsed] at unread
    cases unread

end

end ArrowheadCore.Json.JsonView
