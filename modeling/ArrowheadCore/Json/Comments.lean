import ArrowheadCore.Json.Acceptance

/-!
# Comments

The method `COMMENTS` skips comments between tokens. `comments` is the dialect that it reads: what it accepts are the
values of the dialect (`parse_comments_iff_value`), with a comment at the end that need not have its newline.
-/

namespace ArrowheadCore.Json.JsonView
open Lib Grammar

/-! ## The dialect -/

/-- What follows the first `*/` of a text. -/
inductive Closes : List UInt8 → List UInt8 → Prop
  | here (rest : List UInt8) : Closes ('*'.toUInt8 :: '/'.toUInt8 :: rest) rest
  | later {a b : UInt8} {s rest : List UInt8} : ¬(a = '*'.toUInt8 ∧ b = '/'.toUInt8) → Closes (b :: s) rest →
    Closes (a :: b :: s) rest

/-- Blanks and comments; a comment to the end of its line leaves the newline. -/
inductive Commented : List UInt8 → Prop
  | nil : Commented []
  | blank {c : UInt8} {w : List UInt8} : isBlank c → Commented w → Commented (c :: w)
  | line {body w : List UInt8} : '\n'.toUInt8 ∉ body → Commented ('\n'.toUInt8 :: w) →
    Commented ('/'.toUInt8 :: '/'.toUInt8 :: (body ++ '\n'.toUInt8 :: w))
  | block {body w : List UInt8} : Closes body [] → Commented w → Commented ('/'.toUInt8 :: '*'.toUInt8 :: (body ++ w))

def comments : Dialect := ⟨Commented, IsName⟩

/-- A comment to the end of the text. -/
def OpenLine (s : List UInt8) : Prop := ∃ body, s = '/'.toUInt8 :: '/'.toUInt8 :: body ∧ '\n'.toUInt8 ∉ body

/-- A slash that begins no comment, or one that does not end. -/
def Malformed (s : List UInt8) : Prop :=
  ∃ cs, s = '/'.toUInt8 :: cs ∧ cs.head? ≠ some '/'.toUInt8 ∧
    ∀ body, cs = '*'.toUInt8 :: body → ∀ rest, ¬Closes body rest

section
variable {text s rest w : List UInt8}

lemma Closes.split (h : Closes s rest) : ∃ body, s = body ++ rest ∧ Closes body [] := by
  induction h with
  | here rest => exact ⟨['*'.toUInt8, '/'.toUInt8], rfl, .here []⟩
  | @later a b s rest hab _ ih =>
    obtain ⟨body, e, hb⟩ := ih
    cases body with
    | nil => cases hb
    | cons b' body =>
      obtain ⟨rfl, rfl⟩ := List.cons.inj e
      exact ⟨a :: b :: body, rfl, .later hab hb⟩

lemma Closes.append (h : Closes s rest) (t : List UInt8) : Closes (s ++ t) (rest ++ t) := by
  induction h with
  | here rest => exact .here (rest ++ t)
  | later hab _ ih => exact .later hab ih

lemma Commented.append {v : List UInt8} (hv : Commented v) (hw : Commented w) : Commented (v ++ w) := by
  induction hv with
  | nil => exact hw
  | blank hc _ ih => exact .blank hc ih
  | line hb _ ih =>
    simp only [List.cons_append, List.append_assoc]
    exact .line hb ih
  | block hb _ ih =>
    simp only [List.cons_append, List.append_assoc]
    exact .block hb ih

/-- Where blanks and comments end. -/
inductive Halts (rest : List UInt8) : Prop
  | solid : SolidHead rest → Halts rest
  | openLine : OpenLine rest → Halts rest
  | malformed : Malformed rest → Halts rest

lemma skips_halts (s : List UInt8) : ∃ rest, Skips comments s rest ∧ Halts rest := by
  have further : ∀ {v t : List UInt8}, Commented v → (∃ rest, Skips comments t rest ∧ Halts rest) →
      ∃ rest, Skips comments (v ++ t) rest ∧ Halts rest := by
    rintro v t hv ⟨rest, ⟨w, rfl, hw⟩, halts⟩
    exact ⟨rest, ⟨v ++ w, (List.append_assoc _ _ _).symm, hv.append hw⟩, halts⟩
  have here : Halts s → ∃ rest, Skips comments s rest ∧ Halts rest := fun h => ⟨s, ⟨[], rfl, .nil⟩, h⟩
  induction hn : s.length using Nat.strong_induction_on generalizing s with
  | h n ih =>
  have next : ∀ t, t.length < n → ∃ rest, Skips comments t rest ∧ Halts rest := fun t ht =>
    ih t.length ht t (fun h => ⟨t, ⟨[], rfl, .nil⟩, h⟩) rfl
  match s, hn with
  | [], _ => exact here (.solid (by intro c hc; cases hc))
  | c :: s, hn =>
  rw [List.length_cons] at hn
  by_cases hblank : isBlank c = true
  · exact further (v := [c]) (.blank hblank .nil) (next s (by omega))
  by_cases hslash : c = '/'.toUInt8
  swap
  · exact here (.solid (.cons ⟨by simpa using hblank, hslash⟩ s))
  subst hslash
  by_cases hline : s.head? = some '/'.toUInt8
  · obtain ⟨s, rfl⟩ : ∃ s', s = '/'.toUInt8 :: s' := by
      cases s with
      | nil => cases hline
      | cons d ds => exact ⟨ds, by rw [Option.some.inj hline]⟩
    by_cases hnew : '\n'.toUInt8 ∈ s
    · obtain ⟨body, t, rfl, hb⟩ := List.eq_append_cons_of_mem hnew
      have comment : Commented ('/'.toUInt8 :: '/'.toUInt8 :: (body ++ ['\n'.toUInt8])) :=
        .line hb (.blank (by decide) .nil)
      simp only [List.length_cons, List.length_append] at hn
      have := further comment (next t (by omega))
      simpa using this
    · exact here (.openLine ⟨s, rfl, hnew⟩)
  by_cases hclosed : ∃ body rest, s = '*'.toUInt8 :: body ∧ Closes body rest
  · obtain ⟨body, t, rfl, hb⟩ := hclosed
    obtain ⟨inside, rfl, hi⟩ := hb.split
    have comment : Commented ('/'.toUInt8 :: '*'.toUInt8 :: (inside ++ [])) := .block hi .nil
    simp only [List.length_cons, List.length_append] at hn
    have := further comment (next t (by omega))
    simpa using this
  · exact here (.malformed ⟨s, rfl, hline, fun body hs rest hb => hclosed ⟨body, rest, hs, hb⟩⟩)

/-! ## What the parser skips -/

lemma whitespace_blank {c : UInt8} (hc : isBlank c) (hs : c :: s <:+ text) :
    consume_whitespace text (cursor text (c :: s)) = consume_whitespace text (cursor text s) := by
  have forth := cursor_forth_one hs
  rw [consume_whitespace, consume_whitespace, skipWhile, skipWhile, drop_cursor hs, drop_cursor (suffix_of_cons hs),
    List.takeWhile_cons_of_pos hc, List.length_cons, ← forth, forth_forth, Nat.add_comm]

lemma whitespace_slash (hs : '/'.toUInt8 :: s <:+ text) :
    consume_whitespace text (cursor text ('/'.toUInt8 :: s)) = cursor text ('/'.toUInt8 :: s) :=
  skipWhile_cursor (w := []) hs (by simp) (by rintro d hd; cases hd; decide)

lemma consume_comment_line {body : List UInt8} (hb : '\n'.toUInt8 ∉ body) (hr : ∀ c ∈ rest.head?, c = '\n'.toUInt8)
    (hs : '/'.toUInt8 :: '/'.toUInt8 :: (body ++ rest) <:+ text) :
    consume_comment text (cursor text ('/'.toUInt8 :: '/'.toUInt8 :: (body ++ rest))) = (true, cursor text rest) := by
  have hs1 := suffix_of_cons hs
  have hs2 := suffix_of_cons hs1
  have inside : (cursor text ('/'.toUInt8 :: (body ++ rest))).i ≠ text.length := by
    have := hs1.length_le
    simp only [cursor, List.length_cons] at this ⊢
    omega
  have skip : skipWhile text (· ≠ '\n'.toUInt8) (cursor text (body ++ rest)) = cursor text rest := by
    refine skipWhile_cursor hs2 (fun c hc => ?_) (fun c hc => ?_)
    · rw [decide_eq_true_iff]
      rintro rfl
      exact hb hc
    · rw [hr c hc]
      decide
  rw [consume_comment, char_cursor hs, List.headD_cons, if_pos rfl, cursor_forth_one hs]
  simp only [if_neg inside, char_cursor hs1, List.headD_cons, if_true, cursor_forth_one hs1, skip]

lemma commentLoop_closes (h : Closes s rest) (hs : s <:+ text) : commentLoop s (cursor text s) = cursor text rest := by
  induction h with
  | here rest =>
    rw [commentLoop, if_pos ⟨rfl, rfl⟩]
    exact cursor_forth (w := ['*'.toUInt8, '/'.toUInt8]) hs
  | later hab _ ih => rw [commentLoop, if_neg hab, cursor_forth_one hs, ih (suffix_of_cons hs)]

lemma commentLoop_unclosed (s : List UInt8) (p : JsonParser) (h : ∀ rest, ¬Closes s rest) :
    (commentLoop s p).failed = true := by
  fun_induction commentLoop s p with
  | case1 a b s p hab =>
    obtain ⟨rfl, rfl⟩ := hab
    exact absurd (.here s) (h s)
  | case2 a b s p hab ih => exact ih fun rest hr => h rest (.later hab hr)
  | case3 => rfl

lemma consume_comment_block {body : List UInt8} (hs : '/'.toUInt8 :: '*'.toUInt8 :: body <:+ text) :
    consume_comment text (cursor text ('/'.toUInt8 :: '*'.toUInt8 :: body)) =
      (!(commentLoop body (cursor text body)).failed, commentLoop body (cursor text body)) := by
  have hs1 := suffix_of_cons hs
  have hs2 := suffix_of_cons hs1
  have inside : (cursor text ('*'.toUInt8 :: body)).i ≠ text.length := by
    have := hs1.length_le
    simp only [cursor, List.length_cons] at this ⊢
    omega
  have other : '*'.toUInt8 ≠ '/'.toUInt8 := by decide
  have behind : text.drop ((cursor text ('*'.toUInt8 :: body)).i + 1) = body := by
    rw [← forth_i, cursor_forth_one hs1, drop_cursor hs2]
  rw [consume_comment, char_cursor hs, List.headD_cons, if_pos rfl, cursor_forth_one hs]
  simp only [if_neg inside, char_cursor hs1, List.headD_cons, if_neg other, if_true, behind, cursor_forth_one hs1]

/-- Blanks and comments take one turn of the loop each at most. -/
lemma garbageLoop_commented (h : Commented w) (hs : w ++ rest <:+ text) {fuel : Nat} (hf : w.length < fuel) :
    ∃ n, fuel ≤ n + w.length ∧ garbageLoop text fuel (consume_whitespace text (cursor text (w ++ rest))) =
      garbageLoop text n (consume_whitespace text (cursor text rest)) := by
  induction h generalizing fuel with
  | nil => exact ⟨fuel, Nat.le_add_right _ _, rfl⟩
  | @blank c w hc _ ih =>
    rw [List.cons_append] at hs ⊢
    rw [List.length_cons] at hf ⊢
    obtain ⟨n, hn, e⟩ := ih (suffix_of_cons hs) (show w.length < fuel by omega)
    refine ⟨n, by omega, ?_⟩
    rw [whitespace_blank hc hs, e]
  | @line body w hb _ ih =>
    simp only [List.cons_append, List.append_assoc, List.length_cons, List.length_append] at hf hs ih ⊢
    obtain ⟨f, rfl⟩ : ∃ f, fuel = f + 1 := Nat.exists_eq_succ_of_ne_zero (by omega)
    obtain ⟨n, hn, e⟩ := ih (suffix_of_append (suffix_of_cons (suffix_of_cons hs))) (show w.length + 1 < f by omega)
    refine ⟨n, by omega, ?_⟩
    rw [whitespace_slash hs, garbageLoop, consume_comment_line hb (by simp) hs]
    simp only [cursor_failed, Bool.false_eq_true, if_false, if_true, e]
  | @block body w hb _ ih =>
    simp only [List.cons_append, List.append_assoc, List.length_cons, List.length_append] at hf hs ⊢
    obtain ⟨f, rfl⟩ : ∃ f, fuel = f + 1 := Nat.exists_eq_succ_of_ne_zero (by omega)
    have inner := suffix_of_cons (suffix_of_cons hs)
    obtain ⟨n, hn, e⟩ := ih (suffix_of_append inner) (show w.length < f by omega)
    have closes : Closes (body ++ (w ++ rest)) (w ++ rest) := hb.append (w ++ rest)
    refine ⟨n, by omega, ?_⟩
    rw [whitespace_slash hs, garbageLoop, consume_comment_block hs, commentLoop_closes closes inner]
    simp only [cursor_failed, Bool.false_eq_true, Bool.not_false, if_false, if_true, e]

/-- Blanks and comments are skipped, whatever stands behind them. -/
lemma consume_garbage_commented (hs : s <:+ text) (h : Skips comments s rest) :
    ∃ n, rest.length ≤ n ∧ consume_garbage text .COMMENTS (cursor text s) =
      garbageLoop text (n + 1) (consume_whitespace text (cursor text rest)) := by
  obtain ⟨w, rfl, hw⟩ := h
  have := hs.length_le
  rw [List.length_append] at this
  obtain ⟨n, hn, e⟩ := garbageLoop_commented hw hs (show w.length < text.length + 1 by omega)
  obtain ⟨m, rfl⟩ : ∃ m, n = m + 1 := Nat.exists_eq_succ_of_ne_zero (by omega)
  refine ⟨m, by omega, ?_⟩
  rw [consume_garbage, if_pos rfl, e]

lemma consume_garbage_solid (hs : s <:+ text) (h : Skips comments s rest) (hr : SolidHead rest) :
    consume_garbage text .COMMENTS (cursor text s) = some (cursor text rest) := by
  obtain ⟨n, -, e⟩ := consume_garbage_commented hs h
  rw [e, consume_whitespace_solid (h.suffix hs) hr, garbageLoop_solid (h.suffix hs) hr]

lemma consume_garbage_openLine (hs : s <:+ text) (h : Skips comments s rest) (hr : OpenLine rest) :
    consume_garbage text .COMMENTS (cursor text s) = some (cursor text []) := by
  have inner := h.suffix hs
  obtain ⟨n, hn, e⟩ := consume_garbage_commented hs h
  obtain ⟨body, rfl, hb⟩ := hr
  obtain ⟨m, rfl⟩ : ∃ m, n = m + 1 := Nat.exists_eq_succ_of_ne_zero (by rw [List.length_cons] at hn; omega)
  have none : SolidHead [] := by intro c hc; cases hc
  have noRest : ∀ c, ([] : List UInt8).head? = some c → c = '\n'.toUInt8 := nofun
  have outer : '/'.toUInt8 :: '/'.toUInt8 :: (body ++ []) <:+ text := by rwa [List.append_nil]
  have line := consume_comment_line hb noRest outer
  rw [List.append_nil] at line
  rw [e, whitespace_slash inner, garbageLoop, line]
  simp only [cursor_failed, Bool.false_eq_true, if_false, if_true, consume_whitespace_solid List.nil_suffix none,
    garbageLoop_solid List.nil_suffix none]

lemma consume_garbage_malformed (hs : s <:+ text) (h : Skips comments s rest) (hr : Malformed rest) :
    ∃ q, consume_garbage text .COMMENTS (cursor text s) = some q ∧ q.failed = true := by
  have inner := h.suffix hs
  obtain ⟨n, -, e⟩ := consume_garbage_commented hs h
  obtain ⟨cs, rfl, hline, hblock⟩ := hr
  have failed : (consume_comment text (cursor text ('/'.toUInt8 :: cs))).2.failed = true := by
    by_cases hstar : ∃ body, cs = '*'.toUInt8 :: body
    · obtain ⟨body, rfl⟩ := hstar
      rw [consume_comment_block inner]
      exact commentLoop_unclosed body _ (hblock body rfl)
    rw [consume_comment, char_cursor inner, List.headD_cons, if_pos rfl, cursor_forth_one inner]
    dsimp only
    split
    · rfl
    next inside =>
    cases cs with
    | nil => exact absurd rfl inside
    | cons d ds =>
      have line : d ≠ '/'.toUInt8 := fun h => hline (congrArg some h)
      have star : d ≠ '*'.toUInt8 := fun h => hstar ⟨ds, congrArg (· :: ds) h⟩
      rw [char_cursor (suffix_of_cons inner), List.headD_cons, if_neg line, if_neg star]
      rfl
  refine ⟨_, ?_, failed⟩
  rw [e, whitespace_slash inner, garbageLoop]
  simp only [failed, if_true]

/-- The parser skips nothing but blanks and comments. -/
lemma consume_garbage_comments {q : JsonParser} (hs : s <:+ text)
    (e : consume_garbage text .COMMENTS (cursor text s) = some q) (hq : q.failed = false) :
    ∃ rest, Skips comments s rest ∧
      ((SolidHead rest ∧ q = cursor text rest) ∨ (OpenLine rest ∧ q = cursor text [])) := by
  obtain ⟨rest, skip, solid | line | malformed⟩ := skips_halts s
  · rw [consume_garbage_solid hs skip solid] at e
    exact ⟨rest, skip, .inl ⟨solid, (Option.some.inj e).symm⟩⟩
  · rw [consume_garbage_openLine hs skip line] at e
    exact ⟨rest, skip, .inr ⟨line, (Option.some.inj e).symm⟩⟩
  · obtain ⟨q', e', failed⟩ := consume_garbage_malformed hs skip malformed
    rw [e', Option.some.injEq] at e
    rw [e, hq] at failed
    cases failed

lemma get_next_token_comments {c : UInt8} {q : JsonParser} (hs : s <:+ text)
    (e : get_next_token text .COMMENTS (cursor text s) = some (c, q)) :
    (c = 0 ∧ q.failed = true) ∨ ∃ rest, q = cursor text rest ∧ Skips comments s (c :: rest) := by
  refine get_next_token_inv hs (fun garbage hp inside => ?_) e
  obtain ⟨rest, skip, ⟨-, h⟩ | ⟨-, rfl⟩⟩ := consume_garbage_comments hs garbage hp
  · exact ⟨rest, h, skip⟩
  · exact absurd rfl inside

lemma ends_commented (h : Commented w) (hr : Ends rest) : Ends (w ++ rest) := by
  cases h with
  | nil => exact hr
  | @blank c w hc =>
    refine ends_of_head ?_ _
    simp only [isBlank, Bool.or_eq_true, beq_iff_eq] at hc
    obtain ((rfl | rfl) | rfl) | rfl := hc <;> decide
  | line => exact ends_of_head (by decide) _
  | block => exact ends_of_head (by decide) _

lemma readable_comments (text : List UInt8) : Readable text .COMMENTS comments := by
  refine ⟨.nil, fun h => h, fun hs h hc => ?_, ?_⟩
  · exact get_next_token_at .COMMENTS (h.suffix hs) (consume_garbage_solid hs h (.cons hc _))
  · rintro s c rest ⟨w, rfl, hw⟩ hc
    exact ends_commented hw (ends_of_head hc rest)

lemma covers_comments (text : List UInt8) : Covers text .COMMENTS comments :=
  ⟨Commented.append, fun h => h, get_next_token_comments⟩

/-- The end of a text: nothing, or a comment without its newline. -/
def Finished (s : List UInt8) : Prop := ∃ rest, Skips comments s rest ∧ (rest = [] ∨ OpenLine rest)

/-- What is read with comments are the values of the dialect. -/
lemma parse_comments_iff_value (text : List UInt8) (v : JsonNode) :
    parse_throw_on_error text .COMMENTS = some (.ok v) ↔
      ∃ s1 s2, Skips comments text s1 ∧ Value comments (max_depth + 1) s1 v s2 ∧ Finished s2 := by
  constructor
  · intro h
    obtain ⟨s1, s2, skip, value, hs2, garbage⟩ := (covers_comments text).value_of_parse h
    obtain ⟨rest, skip2, ⟨-, e⟩ | ⟨line, -⟩⟩ := consume_garbage_comments hs2 garbage rfl
    · have nothing : rest = [] := by
        have inside := (skip2.suffix hs2).length_le
        simp only [cursor, List.length_nil, Nat.sub_zero, JsonParser.mk.injEq, and_true] at e
        have := value.shorter
        have := (skip.suffix List.suffix_rfl).length_le
        rw [← List.length_eq_zero_iff]
        omega
      exact ⟨s1, s2, skip, value, rest, skip2, .inl nothing⟩
    · exact ⟨s1, s2, skip, value, rest, skip2, .inr line⟩
  · rintro ⟨s1, s2, skip, value, rest, skip2, last⟩
    have hs2 : s2 <:+ text := value.suffix.trans (skip.suffix List.suffix_rfl)
    have ends : Ends s2 := by
      obtain ⟨w, rfl, hw⟩ := skip2
      obtain rfl | ⟨body, rfl, -⟩ := last
      · exact ends_commented hw ⟨(by intro c hc; cases hc), by decide⟩
      · exact ends_commented hw (ends_of_head (by decide) _)
    refine (readable_comments text).parse_of_value skip value ends ?_
    obtain rfl | line := last
    · exact consume_garbage_solid hs2 skip2 (by intro c hc; cases hc)
    · exact consume_garbage_openLine hs2 skip2 line

end

end ArrowheadCore.Json.JsonView
