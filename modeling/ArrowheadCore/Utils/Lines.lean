import ArrowheadCore.Utils.IniFile
import ArrowheadCore.Utils.OptionStrings

/-!
# Lines that are read together

The lines of a section are read as one text with a blank between them. What a line says does not depend on the others,
unless it ends in an option without a value, in a lone backslash, or before a NUL.
-/

namespace ArrowheadCore.Utils
open Lib

namespace INIFile

/-- The lines of a section as they stand in the values. -/
def joined : List Line → List UInt8
  | [] => []
  | [l] => l
  | l :: ls => l ++ ' '.toUInt8 :: joined ls

/-! ## How a text ends -/

/-- A value without quotes that ends in a lone backslash. -/
def dangling : List UInt8 → Bool
  | [] => false
  | c :: s =>
    if isspace c then false
    else if c = backslash then
      match s with
      | [] => true
      | _ :: s => dangling s
    else dangling s

inductive Ending where
  | closed
  | noValue
  | lone
deriving DecidableEq, Repr

/-- How the last item of a text ends. -/
def itemEnding (s : List UInt8) : Ending :=
  match ((nameOf s).2.tail).dropWhile isspace with
  | [] => .noValue
  | c :: v => if c ≠ singleQuote ∧ dangling (c :: v) then .lone else .closed

def ending (s : List UInt8) : Ending :=
  match s with
  | [] => .closed
  | c :: s =>
    if isspace c then ending s
    else
      match _h : itemOf (c :: s) with
      | none => .closed
      | some (_, rest) => if rest = [] then itemEnding (c :: s) else ending rest
termination_by s.length
decreasing_by
  · exact Nat.lt_succ_self _
  · exact Nat.lt_succ_of_le (itemOf_suffix _h).length_le

/-- There is nothing to read in the line. -/
def IsBlank (l : Line) : Prop := ∀ c ∈ cStr l, isspace c

/-- What a line needs of those behind it: behind a NUL, or an option without a value, there is nothing to read; behind a
    lone backslash there is no line. -/
def Fits (l : Line) (ls : List Line) : Prop :=
  if 0 ∈ l then ∀ l' ∈ ls, IsBlank l'
  else
    match ending l with
    | .closed => True
    | .noValue => ∀ l' ∈ ls, IsBlank l'
    | .lone => ls = []

def Apart : List Line → Prop
  | [] => True
  | l :: ls => Fits l ls ∧ Apart ls

/-! ## One text behind another -/

section
variable {s t v rest b : List UInt8} {c d : UInt8} {r : Record} {rs : List Record}

lemma nameOf_append (h : (nameOf s).2 = '='.toUInt8 :: t) (b : List UInt8) :
    nameOf (s ++ b) = ((nameOf s).1, '='.toUInt8 :: (t ++ b)) := by
  induction s with
  | nil => cases h
  | cons c s ih =>
    rw [List.cons_append]
    by_cases eq : c = '='.toUInt8
    · subst eq
      rw [nameOf_equals] at h ⊢
      rw [nameOf_equals, (List.cons.inj h).2]
    by_cases blank : isspace c
    · rw [nameOf_blank blank] at h ⊢
      have h : s.dropWhile isspace = '='.toUInt8 :: t := h
      rw [nameOf_blank blank, List.dropWhile_append, h]
      rfl
    · rw [nameOf_cons blank eq] at h ⊢
      rw [nameOf_cons blank eq, ih h]

lemma quoted_append (h : quoted s = some (v, rest)) (b : List UInt8) : quoted (s ++ b) = some (v, rest ++ b) := by
  induction s using quoted.induct generalizing v with
  | case1 => cases h
  | case2 => cases h
  | case3 d s ih =>
    rw [quoted_escape, Option.map_eq_some_iff] at h
    obtain ⟨⟨w, r⟩, e, eq⟩ := h
    cases eq
    rw [List.cons_append, List.cons_append, quoted_escape, ih e, Option.map_some]
  | case4 s _ =>
    rw [quoted_quote] at h
    cases h
    rw [List.cons_append, quoted_quote]
  | case5 c s slash quote ih =>
    rw [quoted_plain slash quote, Option.map_eq_some_iff] at h
    obtain ⟨⟨w, r⟩, e, eq⟩ := h
    cases eq
    rw [List.cons_append, quoted_plain slash quote, ih e, Option.map_some]

lemma isspace_space : isspace ' '.toUInt8 := by decide

/-- A blank ends a value without quotes, unless there is a lone backslash in front of it. -/
lemma unquoted_append (h : dangling s = false) (b : List UInt8) :
    ∃ z, unquoted (s ++ ' '.toUInt8 :: b) = ((unquoted s).1, z) ∧
      (z = (unquoted s).2 ++ ' '.toUInt8 :: b ∨ (unquoted s).2 = [] ∧ z = b) := by
  induction s using unquoted.induct with
  | case1 => exact ⟨b, unquoted_blank isspace_space b, .inr ⟨rfl, rfl⟩⟩
  | case2 c s blank =>
    rw [List.cons_append, unquoted_blank blank, unquoted_blank blank]
    exact ⟨_, rfl, .inl rfl⟩
  | case3 => exact absurd h (by decide)
  | case4 d s _ ih =>
    rw [dangling, if_neg (by decide), if_pos rfl] at h
    obtain ⟨z, e, hz⟩ := ih h
    rw [List.cons_append, List.cons_append, unquoted_escape, unquoted_escape, e]
    exact ⟨z, rfl, hz⟩
  | case5 c s blank slash ih =>
    rw [dangling.eq_def] at h
    simp only [blank, slash, if_false, Bool.false_eq_true] at h
    obtain ⟨z, e, hz⟩ := ih h
    rw [List.cons_append, unquoted_plain blank slash, unquoted_plain blank slash, e]
    exact ⟨z, rfl, hz⟩

/-- Behind a lone backslash a blank is a part of the value. -/
lemma unquoted_dangling (h : dangling s = true) :
    (unquoted s).2 = [] ∧ ∀ b, ∃ w, (unquoted (s ++ ' '.toUInt8 :: b)).1 = (unquoted s).1 ++ ' '.toUInt8 :: w := by
  induction s using unquoted.induct with
  | case1 => cases h
  | case2 c s blank =>
    rw [dangling.eq_def] at h
    simp [blank] at h
  | case3 =>
    refine ⟨by decide, fun b => ⟨(unquoted b).1, ?_⟩⟩
    rw [List.singleton_append, unquoted_escape]
    rfl
  | case4 d s _ ih =>
    rw [dangling, if_neg (by decide), if_pos rfl] at h
    obtain ⟨none, further⟩ := ih h
    rw [unquoted_escape]
    refine ⟨none, fun b => ?_⟩
    obtain ⟨w, e⟩ := further b
    exact ⟨w, by rw [List.cons_append, List.cons_append, unquoted_escape, e]; rfl⟩
  | case5 c s blank slash ih =>
    rw [dangling.eq_def] at h
    simp only [blank, slash, if_false, Bool.false_eq_true] at h
    obtain ⟨none, further⟩ := ih h
    rw [unquoted_plain blank slash]
    refine ⟨none, fun b => ?_⟩
    obtain ⟨w, e⟩ := further b
    exact ⟨w, by rw [List.cons_append, unquoted_plain blank slash, e]; rfl⟩

lemma itemEnding_eq (h : (nameOf s).2 = '='.toUInt8 :: t) :
    itemEnding s = match t.dropWhile isspace with
      | [] => .noValue
      | c :: v => if c ≠ singleQuote ∧ dangling (c :: v) then .lone else .closed := by
  rw [itemEnding, h, List.tail_cons]

lemma dropWhile_append_ne {t : List UInt8} (h : t.dropWhile isspace ≠ []) (b : List UInt8) :
    (t ++ b).dropWhile isspace = t.dropWhile isspace ++ b := by
  rw [List.dropWhile_append, if_neg (by simpa using h)]

/-- An item that is closed is the same in front of a blank. -/
lemma itemOf_closed (h : itemOf s = some (r, rest)) (closed : rest ≠ [] ∨ itemEnding s = .closed) (b : List UInt8) :
    ∃ z, itemOf (s ++ ' '.toUInt8 :: b) = some (r, z) ∧ records z = records (rest ++ ' '.toUInt8 :: b) := by
  obtain ⟨t, v, equals, value, rfl⟩ := itemOf_some h
  rw [itemEnding_eq equals] at closed
  have longer := nameOf_append equals (' '.toUInt8 :: b)
  rw [itemOf_equals (congrArg Prod.snd longer), longer]
  cases e : t.dropWhile isspace with
  | nil =>
    rw [e] at value closed
    cases value
    simp at closed
  | cons c u =>
    rw [dropWhile_append_ne (by simp [e]), e, List.cons_append]
    rw [e] at value closed
    rw [valueOf] at value ⊢
    by_cases quote : c = singleQuote
    · rw [if_pos quote] at value ⊢
      rw [quoted_append value]
      exact ⟨_, rfl, rfl⟩
    · rw [if_neg quote] at value ⊢
      have first : (unquoted (c :: u)).1 = v := congrArg Prod.fst (Option.some.inj value)
      have second : (unquoted (c :: u)).2 = rest := congrArg Prod.snd (Option.some.inj value)
      have ends : dangling (c :: u) = false := by
        rw [Bool.eq_false_iff]
        intro lone
        obtain filled | closed := closed
        · exact filled (second ▸ (unquoted_dangling lone).1)
        · simp [quote, lone] at closed
      obtain ⟨z, e', hz⟩ := unquoted_append ends b
      rw [List.cons_append] at e'
      refine ⟨z, by rw [e', first]; rfl, ?_⟩
      obtain rfl | ⟨none, rfl⟩ := hz
      · rw [second]
      · rw [← second, none, List.nil_append, records_blank isspace_space]

lemma ending_item (first : ¬isspace c) (h : itemOf (c :: s) = some (r, rest)) :
    ending (c :: s) = if rest = [] then itemEnding (c :: s) else ending rest := by
  rw [ending, if_neg first]
  split
  next e =>
    rw [h] at e
    cases e
  next e =>
    rw [h] at e
    cases e
    rfl

lemma ending_one (text : t = c :: s) (first : ¬isspace c) (h : itemOf (c :: s) = some (r, []))
    (closed : itemEnding (c :: s) = .closed) : ending t = .closed := by
  rw [text, ending_item first h, if_pos rfl, closed]

/-- A text that is read is closed, or it ends in an item that is not. -/
lemma records_ending {rs : List Record} (h : records s = some rs) :
    (ending s = .closed ∧ ∀ b, records (s ++ ' '.toUInt8 :: b) = (records b).map (rs ++ ·)) ∨
      ∃ front last item, ending s = itemEnding item ∧ itemEnding item ≠ .closed ∧ itemOf item = some (last, []) ∧
        rs = front ++ [last] ∧ ∀ b, records (s ++ ' '.toUInt8 :: b) =
          ((itemOf (item ++ ' '.toUInt8 :: b)).bind fun x => (records x.2).map (x.1 :: ·)).map (front ++ ·) := by
  induction hn : s.length using Nat.strong_induction_on generalizing s rs with
  | h n ih =>
  cases s with
  | nil =>
    rw [records_nil] at h
    cases h
    refine .inl ⟨by rw [ending], fun b => ?_⟩
    rw [List.nil_append, records_blank isspace_space]
    simp
  | cons c s =>
    rw [List.length_cons] at hn
    by_cases blank : isspace c
    · rw [records_blank blank] at h
      rw [ending, if_pos blank]
      simp only [List.cons_append, records_blank blank]
      exact ih s.length (by omega) h rfl
    rw [records_item blank, Option.bind_eq_some_iff] at h
    obtain ⟨⟨r, rest⟩, item, h⟩ := h
    obtain ⟨rs', tail, rfl⟩ := Option.map_eq_some_iff.1 h
    have shorter : rest <:+ s := itemOf_suffix item
    rw [ending_item blank item]
    simp only [List.cons_append, records_item blank]
    by_cases ended : rest = []
    · subst ended
      rw [records_nil] at tail
      cases tail
      rw [if_pos rfl]
      by_cases closed : itemEnding (c :: s) = .closed
      · refine .inl ⟨closed, fun b => ?_⟩
        obtain ⟨z, e, hz⟩ := itemOf_closed item (.inr closed) b
        rw [← List.cons_append, e, Option.bind_some, hz, List.nil_append, records_blank isspace_space]
        rfl
      · refine .inr ⟨[], r, c :: s, rfl, closed, item, rfl, fun b => ?_⟩
        simp
    · rw [if_neg ended]
      have step : ∀ b, ((itemOf (c :: (s ++ ' '.toUInt8 :: b))).bind fun x => (records x.2).map (x.1 :: ·)) =
          (records (rest ++ ' '.toUInt8 :: b)).map (r :: ·) := by
        intro b
        obtain ⟨z, e, hz⟩ := itemOf_closed item (.inl ended) b
        rw [← List.cons_append, e, Option.bind_some, hz]
      simp only [step]
      obtain ⟨closed, further⟩ | ⟨front, last, i, e, open_, last_, rfl, further⟩ :=
        ih rest.length (by have := shorter.length_le; omega) tail rfl
      · refine .inl ⟨closed, fun b => ?_⟩
        rw [further, Option.map_map]
        rfl
      · refine .inr ⟨r :: front, last, i, e, open_, last_, rfl, fun b => ?_⟩
        rw [further, Option.map_map]
        rfl

/-- An option without a value takes what is behind the blanks. -/
lemma itemOf_noValue (h : itemOf s = some (r, rest)) (e : itemEnding s = .noValue) :
    r.2 = [] ∧ ∀ b, itemOf (s ++ ' '.toUInt8 :: b) = (valueOf (b.dropWhile isspace)).map fun v => ((r.1, v.1), v.2) := by
  obtain ⟨t, v, equals, value, rfl⟩ := itemOf_some h
  rw [itemEnding_eq equals] at e
  split at e
  next none =>
    rw [none] at value
    cases value
    refine ⟨rfl, fun b => ?_⟩
    have longer := nameOf_append equals (' '.toUInt8 :: b)
    have skipped : (t ++ ' '.toUInt8 :: b).dropWhile isspace = b.dropWhile isspace := by
      rw [List.dropWhile_append, none]
      exact List.dropWhile_cons_of_pos isspace_space
    rw [itemOf_equals (congrArg Prod.snd longer), longer, skipped]
  · split at e <;> cases e

/-- A value that ends in a lone backslash gets longer. -/
lemma itemOf_lone (h : itemOf s = some (r, rest)) (e : itemEnding s = .lone) (b : List UInt8) :
    ∃ w z, itemOf (s ++ ' '.toUInt8 :: b) = some ((r.1, r.2 ++ ' '.toUInt8 :: w), z) := by
  obtain ⟨t, v, equals, value, rfl⟩ := itemOf_some h
  rw [itemEnding_eq equals] at e
  split at e
  · cases e
  next c u behind =>
    split at e
    next lone =>
      obtain ⟨quote, lone⟩ := lone
      obtain ⟨-, further⟩ := unquoted_dangling lone
      obtain ⟨w, e'⟩ := further b
      have longer := nameOf_append equals (' '.toUInt8 :: b)
      rw [behind, valueOf, if_neg quote] at value
      have first : (unquoted (c :: u)).1 = v := congrArg Prod.fst (Option.some.inj value)
      refine ⟨w, (unquoted (c :: u ++ ' '.toUInt8 :: b)).2, ?_⟩
      rw [itemOf_equals (congrArg Prod.snd longer), longer, dropWhile_append_ne (by simp [behind]), behind]
      rw [List.cons_append] at e' ⊢
      rw [valueOf, if_neg quote, Option.map_some, e', first]
    · cases e

lemma records_eq_nil : records s = some [] ↔ ∀ c ∈ s, isspace c := by
  induction s with
  | nil => simp [records_nil]
  | cons c s ih =>
    by_cases blank : isspace c
    · rw [records_blank blank, ih]
      simp [blank]
    · rw [records_item blank]
      refine iff_of_false (fun e => ?_) fun all => blank (all c List.mem_cons_self)
      obtain ⟨x, -, e⟩ := Option.bind_eq_some_iff.1 e
      obtain ⟨_, -, e⟩ := Option.map_eq_some_iff.1 e
      cases e

/-- The first record has the first name. -/
lemma records_first {rs : List Record} (h : records s = some (r :: rs)) :
    r.1 = (nameOf (s.dropWhile isspace)).1 ∧ ∃ t, (nameOf (s.dropWhile isspace)).2 = '='.toUInt8 :: t := by
  induction s with
  | nil =>
    rw [records_nil] at h
    cases h
  | cons c s ih =>
    by_cases blank : isspace c
    · rw [records_blank blank] at h
      rw [List.dropWhile_cons_of_pos blank]
      exact ih h
    · rw [records_item blank, Option.bind_eq_some_iff] at h
      obtain ⟨⟨r', rest⟩, item, h⟩ := h
      obtain ⟨rs', -, e⟩ := Option.map_eq_some_iff.1 h
      cases e
      obtain ⟨t, v, equals, -, rfl⟩ := itemOf_some item
      rw [List.dropWhile_cons_of_neg blank]
      exact ⟨rfl, t, equals⟩

lemma quoted_empty (h : quoted s = some ([], rest)) : s = singleQuote :: rest := by
  induction s using quoted.induct with
  | case1 => cases h
  | case2 => cases h
  | case3 d s _ =>
    rw [quoted_escape, Option.map_eq_some_iff] at h
    obtain ⟨_, _, e⟩ := h
    cases e
  | case4 s _ =>
    rw [quoted_quote] at h
    cases h
    rfl
  | case5 c s slash quote _ =>
    rw [quoted_plain slash quote, Option.map_eq_some_iff] at h
    obtain ⟨_, _, e⟩ := h
    cases e

lemma unquoted_empty (h : (unquoted (c :: s)).1 = []) (first : ¬isspace c) : c = backslash ∧ s = [] := by
  by_cases slash : c = backslash
  · subst slash
    cases s with
    | nil => exact ⟨rfl, rfl⟩
    | cons d s =>
      rw [unquoted_escape] at h
      cases h
  · rw [unquoted_plain first slash] at h
    cases h

/-- What an option without a value takes from the text behind it is missing there. -/
lemma taken_ne {rs : List Record} (first : r.1 = (nameOf s).1) (equals : (nameOf s).2 = '='.toUInt8 :: t)
    (visible : ∀ c ∈ s.head?, ¬isspace c) (h : valueOf s = some ([], rest)) : records rest ≠ some (r :: rs) := by
  intro e
  obtain ⟨name, t', equals'⟩ := records_first e
  rw [first] at name
  cases s with
  | nil => cases equals
  | cons c s =>
    have hc := visible c rfl
    rw [valueOf] at h
    by_cases quote : c = singleQuote
    · rw [if_pos quote] at h
      obtain rfl := quoted_empty h
      subst quote
      have two : nameOf (singleQuote :: singleQuote :: rest) =
          (singleQuote :: singleQuote :: (nameOf rest).1, (nameOf rest).2) := by
        rw [nameOf_cons (by decide) (by decide), nameOf_cons (by decide) (by decide)]
      rw [two] at name equals
      cases rest with
      | nil => cases equals
      | cons d rest =>
        by_cases blank : isspace d
        · rw [nameOf_blank blank] at name equals
          have equals : rest.dropWhile isspace = '='.toUInt8 :: t := equals
          rw [List.dropWhile_cons_of_pos blank, equals, nameOf_equals] at name
          cases name
        · rw [List.dropWhile_cons_of_neg blank] at name
          have := congrArg List.length name
          simp only [List.length_cons] at this
          omega
    · rw [if_neg quote] at h
      obtain ⟨rfl, rfl⟩ := unquoted_empty (congrArg Prod.fst (Option.some.inj h)) hc
      have none : (nameOf [backslash]).2 = [] := by decide
      rw [none] at equals
      cases equals

end

/-! ## Lines -/

/-- The line is well formed on its own. -/
def IsAccepted (l : Line) : Prop := ∃ rs, recordsOf l = some (some rs)

/-- The records of a line on its own. -/
def recordsIn (l : Line) : List Record := ((recordsOf l).bind id).getD []

section
variable {l l' : Line} {ls : List Line} {s b : List UInt8}

lemma IsAccepted.read (h : IsAccepted l) : records (cStr l) = some (recordsIn l) := by
  obtain ⟨rs, e⟩ := h
  have e' : records (cStr l) = some rs := by
    rw [recordsOf_eq] at e
    exact Option.some.inj e
  rw [recordsIn, e, e']
  rfl

lemma IsAccepted.blank_iff (h : IsAccepted l) : recordsIn l = [] ↔ IsBlank l := by
  rw [IsBlank, ← records_eq_nil, h.read, Option.some.injEq]

lemma flatMap_eq_nil (h : ∀ l ∈ ls, IsAccepted l) : ls.flatMap recordsIn = [] ↔ ∀ l ∈ ls, IsBlank l := by
  rw [List.flatMap_eq_nil_iff]
  exact ⟨fun e l mem => (h l mem).blank_iff.1 (e l mem), fun e l mem => (h l mem).blank_iff.2 (e l mem)⟩

lemma cStr_joined (l l' : Line) (ls : List Line) : cStr (joined (l :: l' :: ls)) =
    if 0 ∈ l then cStr l else l ++ ' '.toUInt8 :: cStr (joined (l' :: ls)) := by
  rw [joined]
  split
  next cut =>
    obtain ⟨s, t, rfl, hs⟩ := List.eq_append_cons_of_mem cut
    rw [List.append_assoc, cStr_append hs, cStr_append hs]
    rfl
  next whole =>
    rw [cStr_append whole]
    rfl
  all_goals simp

lemma ending_blank (h : ∀ c ∈ s, isspace c) : ending s = .closed := by
  induction s with
  | nil => rw [ending]
  | cons c s ih =>
    obtain ⟨blank, h⟩ := List.forall_mem_cons.1 h
    rw [ending, if_pos blank, ih h]

lemma fits_blank (h : IsBlank l) (hs : ∀ l' ∈ ls, IsBlank l') : Fits l ls := by
  rw [Fits]
  split
  · exact hs
  next whole =>
    rw [IsBlank, cStr_eq whole] at h
    rw [ending_blank h]
    trivial

lemma apart_blank (h : ∀ l ∈ ls, IsBlank l) : Apart ls := by
  induction ls with
  | nil => trivial
  | cons l ls ih =>
    obtain ⟨first, h⟩ := List.forall_mem_cons.1 h
    exact ⟨fits_blank first h, ih h⟩

lemma apart_closed (h : ∀ l ∈ ls, 0 ∉ l ∧ ending l = .closed) : Apart ls := by
  induction ls with
  | nil => trivial
  | cons l ls ih =>
    obtain ⟨⟨whole, closed⟩, h⟩ := List.forall_mem_cons.1 h
    refine ⟨?_, ih h⟩
    rw [Fits, if_neg whole, closed]
    trivial

/-- If there is anything to read in the lines, the first record has the first name. -/
lemma joined_first (h : ∀ l ∈ ls, IsAccepted l) (visible : ¬∀ c ∈ cStr (joined ls), isspace c) :
    ∃ r rs t, ls.flatMap recordsIn = r :: rs ∧ r.1 = (nameOf ((cStr (joined ls)).dropWhile isspace)).1 ∧
      (nameOf ((cStr (joined ls)).dropWhile isspace)).2 = '='.toUInt8 :: t := by
  have one : ∀ {l}, IsAccepted l → ¬IsBlank l → ∃ r rs t, recordsIn l = r :: rs ∧
      r.1 = (nameOf ((cStr l).dropWhile isspace)).1 ∧ (nameOf ((cStr l).dropWhile isspace)).2 = '='.toUInt8 :: t := by
    intro l hl visible
    obtain ⟨r, rs, e⟩ := List.exists_cons_of_ne_nil (mt hl.blank_iff.1 visible)
    have read := hl.read
    rw [e] at read
    obtain ⟨name, t, equals⟩ := records_first read
    exact ⟨r, rs, t, e, name, equals⟩
  induction ls with
  | nil => exact absurd (by simp [joined, cStr]) visible
  | cons l ls ih =>
    obtain ⟨hl, h⟩ := List.forall_mem_cons.1 h
    cases ls with
    | nil =>
      rw [joined] at visible ⊢
      obtain ⟨r, rs, t, e, first⟩ := one hl visible
      exact ⟨r, rs, t, by rw [List.flatMap_cons, e]; simp, first⟩
    | cons l' ls =>
      rw [cStr_joined] at visible ⊢
      by_cases cut : 0 ∈ l
      · rw [if_pos cut] at visible ⊢
        obtain ⟨r, rs, t, e, first⟩ := one hl visible
        exact ⟨r, rs ++ (l' :: ls).flatMap recordsIn, t, by rw [List.flatMap_cons, e]; rfl, first⟩
      rw [if_neg cut] at visible ⊢
      by_cases blank : IsBlank l
      · have none : l.dropWhile isspace = [] := by
          rw [IsBlank, cStr_eq cut] at blank
          exact List.dropWhile_eq_nil_iff.2 blank
        have skipped : (l ++ ' '.toUInt8 :: cStr (joined (l' :: ls))).dropWhile isspace =
            (cStr (joined (l' :: ls))).dropWhile isspace := by
          rw [List.dropWhile_append, none]
          exact List.dropWhile_cons_of_pos isspace_space
        have further : ¬∀ c ∈ cStr (joined (l' :: ls)), isspace c := fun all => visible fun c mem => by
          rw [IsBlank, cStr_eq cut] at blank
          obtain mem | mem := List.mem_append.1 mem
          · exact blank c mem
          · obtain rfl | mem := List.mem_cons.1 mem
            · exact isspace_space
            · exact all c mem
        rw [skipped, List.flatMap_cons, hl.blank_iff.2 blank, List.nil_append]
        exact ih h further
      · obtain ⟨r, rs, t, e, name, equals⟩ := one hl blank
        rw [cStr_eq cut] at name equals
        have seen : l.dropWhile isspace ≠ [] := fun none => by
          rw [none] at equals
          cases equals
        rw [dropWhile_append_ne seen, nameOf_append equals, List.flatMap_cons, e]
        exact ⟨r, _, _, rfl, name, rfl⟩

/-- The lines are read as they are one by one exactly if each fits with those behind it. -/
lemma records_joined (h : ∀ l ∈ ls, IsAccepted l) : records (cStr (joined ls)) = some (ls.flatMap recordsIn) ↔ Apart ls := by
  induction ls with
  | nil => simp [joined, cStr, records_nil, Apart]
  | cons l ls ih =>
    obtain ⟨hl, h⟩ := List.forall_mem_cons.1 h
    cases ls with
    | nil =>
      have fits : Fits l [] := by
        rw [Fits]
        split
        · simp
        · split <;> simp
      rw [joined, List.flatMap_cons, List.flatMap_nil, List.append_nil]
      exact iff_of_true hl.read ⟨fits, trivial⟩
    | cons l' ls =>
      rw [cStr_joined, List.flatMap_cons, Apart, ← ih h, Fits]
      by_cases cut : 0 ∈ l
      · rw [if_pos cut, if_pos cut, hl.read, Option.some.injEq, List.self_eq_append_right, flatMap_eq_nil h]
        exact ⟨fun blank => ⟨blank, (ih h).2 (apart_blank blank)⟩, And.left⟩
      rw [if_neg cut, if_neg cut]
      have read := hl.read
      rw [cStr_eq cut] at read
      obtain ⟨closed, further⟩ | ⟨front, last, item, e, open_, last_, whole, further⟩ := records_ending read
      · rw [closed, further]
        simp only [true_and]
        cases e : records (cStr (joined (l' :: ls))) <;> simp
      rw [e, further, whole]
      cases kind : itemEnding item with
      | closed => exact absurd kind open_
      | noValue =>
        obtain ⟨empty, takes⟩ := itemOf_noValue last_ kind
        simp only [takes, ih h]
        by_cases blank : ∀ c ∈ cStr (joined (l' :: ls)), isspace c
        · have none : valueOf ((cStr (joined (l' :: ls))).dropWhile isspace) = some ([], []) := by
            rw [List.dropWhile_eq_nil_iff.2 blank]
            rfl
          have same : (last.1, ([] : List UInt8)) = last := by rw [← empty]
          rw [none, Option.map_some, Option.bind_some, records_nil, Option.map_some, Option.map_some, same, Option.some.injEq,
            List.self_eq_append_right, flatMap_eq_nil h]
          exact ⟨fun blank => ⟨blank, apart_blank blank⟩, And.left⟩
        · obtain ⟨r, rs, t, records_, name, equals⟩ := joined_first h blank
          refine iff_of_false (fun same => ?_) fun fits => ?_
          · obtain ⟨all, read, same⟩ := Option.map_eq_some_iff.1 same
            obtain ⟨⟨x, rest⟩, value, found⟩ := Option.bind_eq_some_iff.1 read
            obtain ⟨tail, behind, rfl⟩ := Option.map_eq_some_iff.1 found
            obtain ⟨⟨v, rest'⟩, taken, e⟩ := Option.map_eq_some_iff.1 value
            cases e
            rw [List.append_assoc] at same
            obtain ⟨first, rfl⟩ := List.cons.inj (List.append_cancel_left same)
            have none : v = [] := by rw [← empty, ← first]
            subst none
            have behind : records rest' = some (r :: rs) := records_ ▸ behind
            refine taken_ne name equals (fun c hc => ?_) taken behind
            have := List.head?_dropWhile_not isspace (cStr (joined (l' :: ls)))
            rw [hc] at this
            simpa using this
          · rw [(flatMap_eq_nil h).2 fits.1] at records_
            cases records_
      | lone =>
        obtain ⟨w, z, longer⟩ := itemOf_lone last_ kind (cStr (joined (l' :: ls)))
        simp only [reduceCtorEq, false_and, iff_false]
        rw [longer, Option.bind_some]
        intro same
        obtain ⟨all, read, same⟩ := Option.map_eq_some_iff.1 same
        obtain ⟨tail, -, rfl⟩ := Option.map_eq_some_iff.1 read
        rw [List.append_assoc] at same
        have value := congrArg (fun r : Record => r.2.length) (List.cons.inj (List.append_cancel_left same)).1
        simp at value

end

/-! ## The lines of a section -/

/-- The lines that `parse` files, each with its section. -/
def filed (section_ : Option (List UInt8)) (collect : Bool) (gr : List UInt8) : List Line → List (List UInt8 × Line)
  | [] => []
  | line :: rest =>
    if isSkipped line then filed section_ collect gr rest
    else if line.getD 0 0 = '['.toUInt8 then
      match headerLoop [] false line.tail with
      | none => []
      | some gr => filed section_ (wanted section_ gr) gr rest
    else if collect then (gr, line) :: filed section_ collect gr rest
    else filed section_ collect gr rest

def linesOf (s : List UInt8) (lines : List (List UInt8 × Line)) : List Line :=
  lines.filterMap fun x => if x.1 = s then some x.2 else none

/-- A further line. -/
inductive Change where
  | append (conf : Line)
  | prepend (conf : Line)

def Change.conf : Change → Line
  | append conf | prepend conf => conf

def Change.apply (s : List UInt8) (ini : INIFile) : Change → INIFile
  | append conf => ini.append s conf
  | prepend conf => ini.prepend s conf

/-- It is added last, or first. -/
def Change.add (ls : List Line) : Change → List Line
  | append conf => ls ++ [conf]
  | prepend conf => conf :: ls

/-- The maps of the lines on their own, of which a later one counts. -/
def merged (ls : List Line) : Options := ls.foldl (fun m l => (parse_opt l).getD ∅ ∪ m) ∅

section
variable {section_ : Option (List UInt8)} {collect : Bool} {gr s s' : List UInt8} {values : Options} {l : Line}
  {ls lines : List Line} {ini : INIFile}

lemma merged_eq (h : ∀ l ∈ ls, IsAccepted l) : stored (ls.flatMap recordsIn) = merged ls := by
  induction ls using List.reverseRecOn with
  | nil => rfl
  | append_singleton ls l ih =>
    have last : (parse_opt l).getD ∅ = stored (recordsIn l) := by
      obtain ⟨rs, e⟩ := h l (by simp)
      rw [parse_opt, recordsIn, e]
      rfl
    rw [merged, List.foldl_append, ← merged, ← ih fun l mem => h l (List.mem_append_left _ mem), List.flatMap_append,
      stored_append, List.flatMap_cons, List.flatMap_nil, List.append_nil, List.foldl_cons, List.foldl_nil, last]

lemma joined_cons (l : Line) (h : ls ≠ []) : joined (l :: ls) = l ++ ' '.toUInt8 :: joined ls := by
  cases ls with
  | nil => exact absurd rfl h
  | cons l' ls => rfl

lemma joined_eq_nil (h : ∀ l ∈ ls, l ≠ []) : joined ls = [] ↔ ls = [] := by
  cases ls with
  | nil => simp [joined]
  | cons l ls =>
    have first := h l List.mem_cons_self
    cases ls with
    | nil => simp [joined, first]
    | cons l' ls => simp [joined_cons]

lemma joined_append (l : Line) (h : ls ≠ []) : joined (ls ++ [l]) = joined ls ++ ' '.toUInt8 :: l := by
  induction ls with
  | nil => exact absurd rfl h
  | cons l' ls ih =>
    by_cases one : ls = []
    · subst one
      rfl
    · rw [List.cons_append, joined_cons l' (by simp), joined_cons l' one, ih one]
      simp

lemma text_appendTo (values : Options) (s conf s' : List UInt8) : text (appendTo values s conf) s' =
    if s' = s then (if text values s = [] then text values s else text values s ++ bytes " ") ++ conf else text values s' := by
  by_cases e : s' = s
  · subst e
    rw [if_pos rfl, text, appendTo, Finmap.lookup_insert]
    rfl
  · rw [if_neg e, text, appendTo, Finmap.lookup_insert_of_ne _ e, ← text]

lemma text_prependTo (values : Options) (s conf : List UInt8) : text (prependTo values s conf) s =
    conf ++ if text values s = [] then text values s else bytes " " ++ text values s := by
  rw [text, prependTo, Finmap.lookup_insert]
  rfl

/-- What is appended is one line more. -/
lemma text_append_line (h : text values s = joined ls) (filled : ∀ l ∈ ls, l ≠ []) (l : Line) :
    text (appendTo values s l) s = joined (ls ++ [l]) := by
  rw [text_appendTo, if_pos rfl, h]
  by_cases none : ls = []
  · subst none
    rfl
  · rw [if_neg (mt (joined_eq_nil filled).1 none), joined_append l none, List.append_assoc]
    rfl

lemma text_prepend_line (h : text values s = joined ls) (filled : ∀ l ∈ ls, l ≠ []) (l : Line) :
    text (prependTo values s l) s = joined (l :: ls) := by
  rw [text_prependTo, h]
  by_cases none : ls = []
  · subst none
    rw [joined, if_pos rfl, joined, List.append_nil]
  · rw [if_neg (mt (joined_eq_nil filled).1 none), joined_cons l none]
    rfl

lemma linesOf_cons (gr : List UInt8) (line : Line) (xs : List (List UInt8 × Line)) :
    linesOf s ((gr, line) :: xs) = if gr = s then line :: linesOf s xs else linesOf s xs := by
  rw [linesOf, List.filterMap_cons]
  by_cases e : gr = s <;> simp [e, linesOf]

lemma filed_filled : ∀ l ∈ linesOf s (filed section_ collect gr lines), l ≠ [] := by
  induction lines generalizing collect gr with
  | nil => simp [filed, linesOf]
  | cons line rest ih =>
    rw [filed]
    split
    · exact ih
    next skip =>
      have visible : line ≠ [] := by
        rintro rfl
        simp [isSkipped] at skip
      split
      · split
        · simp [linesOf]
        · exact ih
      · split
        · rw [linesOf_cons]
          split
          · exact List.forall_mem_cons.2 ⟨visible, ih⟩
          · exact ih
        · exact ih

/-- `parse` puts the lines of a section behind those that are there. -/
lemma text_parseLoop (h : text values s = joined ls) (filled : ∀ l ∈ ls, l ≠ []) :
    text (parseLoop section_ collect gr values lines).2 s = joined (ls ++ linesOf s (filed section_ collect gr lines)) := by
  induction lines generalizing collect gr values ls with
  | nil => simpa [parseLoop, filed, linesOf] using h
  | cons line rest ih =>
    rw [parseLoop, filed]
    split
    · exact ih h filled
    next skip =>
      have visible : line ≠ [] := by
        rintro rfl
        simp [isSkipped] at skip
      split
      · cases headerLoop [] false line.tail with
        | none => simpa [linesOf] using h
        | some gr => exact ih h filled
      · split
        · rw [linesOf_cons]
          by_cases here : gr = s
          · subst here
            rw [if_pos rfl, List.append_cons]
            exact ih (text_append_line h filled line) (List.forall_mem_append.2 ⟨filled, by simpa using visible⟩)
          · rw [if_neg here]
            refine ih ?_ filled
            rw [text_appendTo, if_neg (Ne.symm here), h]
        · exact ih h filled

lemma text_change (h : text ini.values s = joined ls) (filled : ∀ l ∈ ls, l ≠ []) (c : Change) :
    text (c.apply s ini).values s = joined (c.add ls) := by
  cases c with
  | append conf => exact text_append_line h filled conf
  | prepend conf => exact text_prepend_line h filled conf

lemma text_changes {changes : List Change} (h : text ini.values s = joined ls) (filled : ∀ l ∈ ls, l ≠ [])
    (further : ∀ c ∈ changes, c.conf ≠ []) :
    text (changes.foldl (Change.apply s) ini).values s = joined (changes.foldl Change.add ls) := by
  induction changes generalizing ini ls with
  | nil => exact h
  | cons c changes ih =>
    obtain ⟨hc, further⟩ := List.forall_mem_cons.1 further
    refine ih (text_change h filled c) ?_ further
    cases c with
    | append conf => exact List.forall_mem_append.2 ⟨filled, List.forall_mem_singleton.2 hc⟩
    | prepend conf => exact List.forall_mem_cons.2 ⟨hc, filled⟩

/-- When a file has been parsed, and further lines have been added, the options of a section are those of its lines one by
    one if each line fits with those behind it; and exactly then are the same records read. -/
theorem options_lines {file : List UInt8} {strict b : Bool} {changes : List Change}
    (parsed : INIFile.parse ⟨some file, ∅⟩ section_ strict = some (b, ini))
    (of : ls = changes.foldl Change.add (linesOf s (filed section_ (section_.isNone || !strict) [] (getlines file))))
    (accepted : ∀ l ∈ ls, IsAccepted l) (filled : ∀ c ∈ changes, c.conf ≠ []) :
    (Apart ls → (changes.foldl (Change.apply s) ini).options s = some (merged ls)) ∧
      (recordsOf (text (changes.foldl (Change.apply s) ini).values s) = some (some (ls.flatMap recordsIn)) ↔ Apart ls) := by
  have begins : text ini.values s = joined (linesOf s (filed section_ (section_.isNone || !strict) [] (getlines file))) := by
    rw [INIFile.parse, Option.map_some] at parsed
    cases parsed
    exact text_parseLoop (show text ∅ s = joined [] from rfl) (by simp)
  have whole := text_changes begins filed_filled filled
  rw [← of] at whole
  have read : recordsOf (text (changes.foldl (Change.apply s) ini).values s) = some (some (ls.flatMap recordsIn)) ↔ Apart ls := by
    rw [whole, recordsOf_eq, Option.some.injEq, records_joined accepted]
  refine ⟨fun apart => ?_, read⟩
  rw [INIFile.options, parse_opt, read.2 apart, Option.map_some, Option.getD_some, merged_eq accepted]

/-- Two lines of a file and one that is appended. -/
theorem options_lines_three : ∃ b ini, INIFile.parse ⟨some (bytes "a=1\nb=2\n"), ∅⟩ none false = some (b, ini) ∧
    (ini.append [] (bytes "a=2")).options [] = some (merged [bytes "a=1", bytes "b=2", bytes "a=2"]) := by
  refine ⟨_, _, rfl, ?_⟩
  have accepted : ∀ l ∈ [bytes "a=1", bytes "b=2", bytes "a=2"], IsAccepted l := by
    simp only [List.forall_mem_cons]
    exact ⟨⟨[(bytes "a", bytes "1")], by decide⟩, ⟨[(bytes "b", bytes "2")], by decide⟩,
      ⟨[(bytes "a", bytes "2")], by decide⟩, by simp⟩
  have closed : ∀ l ∈ [bytes "a=1", bytes "b=2", bytes "a=2"], 0 ∉ l ∧ ending l = .closed := by
    simp only [List.forall_mem_cons]
    refine ⟨⟨by decide, ?_⟩, ⟨by decide, ?_⟩, ⟨by decide, ?_⟩, by simp⟩
    · exact ending_one (c := 97) (s := bytes "=1") (r := (bytes "a", bytes "1")) (by decide) (by decide) (by decide) (by decide)
    · exact ending_one (c := 98) (s := bytes "=2") (r := (bytes "b", bytes "2")) (by decide) (by decide) (by decide) (by decide)
    · exact ending_one (c := 97) (s := bytes "=2") (r := (bytes "a", bytes "2")) (by decide) (by decide) (by decide) (by decide)
  have of : [bytes "a=1", bytes "b=2", bytes "a=2"] = [Change.append (bytes "a=2")].foldl Change.add
      (linesOf [] (filed none true [] (getlines (bytes "a=1\nb=2\n")))) := by
    have lines : getlines (bytes "a=1\nb=2\n") = [bytes "a=1", bytes "b=2"] := by decide
    have kept : linesOf [] (filed none true [] [bytes "a=1", bytes "b=2"]) = [bytes "a=1", bytes "b=2"] := rfl
    rw [lines, kept]
    rfl
  exact (options_lines rfl of accepted (by decide)).1 (apart_closed closed)

/-- `a=` takes the next line. -/
theorem not_options_lines : ∃ b ini, INIFile.parse ⟨some (bytes "a=\nb=1\n"), ∅⟩ none false = some (b, ini) ∧
    linesOf [] (filed none true [] (getlines (bytes "a=\nb=1\n"))) = [bytes "a=", bytes "b=1"] ∧
    (∀ l ∈ [bytes "a=", bytes "b=1"], IsAccepted l) ∧ ini.options [] ≠ some (merged [bytes "a=", bytes "b=1"]) := by
  have accepted : ∀ l ∈ [bytes "a=", bytes "b=1"], IsAccepted l := by
    simp only [List.forall_mem_cons]
    exact ⟨⟨[(bytes "a", [])], by decide⟩, ⟨[(bytes "b", bytes "1")], by decide⟩, by simp⟩
  have lines : getlines (bytes "a=\nb=1\n") = [bytes "a=", bytes "b=1"] := by decide
  refine ⟨_, _, rfl, by rw [lines]; decide, accepted, fun same => ?_⟩
  have read : parse_opt (bytes "a= b=1") = some (stored [(bytes "a", bytes "b=1")]) := by
    rw [parse_opt, show recordsOf (bytes "a= b=1") = some (some [(bytes "a", bytes "b=1")]) by decide]
    rfl
  have whole : text (parseLoop none true [] ∅ (getlines (bytes "a=\nb=1\n"))).2 [] = bytes "a= b=1" := by
    rw [lines]
    decide
  have apart : [bytes "a=", bytes "b=1"].flatMap recordsIn = [(bytes "a", []), (bytes "b", bytes "1")] := by decide
  have same : parse_opt (text (parseLoop none true [] ∅ (getlines (bytes "a=\nb=1\n"))).2 []) =
    some (merged [bytes "a=", bytes "b=1"]) := same
  rw [whole, read, ← merged_eq accepted, apart, Option.some.injEq] at same
  have value := (lookup_stored (by decide) (bytes "b") (bytes "1")).2
    (show (bytes "b", bytes "1") ∈ [(bytes "a", []), (bytes "b", bytes "1")] by decide)
  rw [← same, lookup_stored (by decide)] at value
  revert value
  decide

end

end INIFile

end ArrowheadCore.Utils
