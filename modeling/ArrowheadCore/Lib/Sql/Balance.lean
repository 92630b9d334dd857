import Mathlib.Data.List.Chain
import ArrowheadCore.Lib.Sql.Lexer

/-!
# Parentheses and lists in a statement

A statement is well formed if its parentheses are balanced and none is closed directly behind `IN` or behind the one that
opens it, so that no list is empty and no condition. A piece that is closed in itself can be put behind any statement
(`wellFormedTokens_append`).
-/

namespace ArrowheadCore.Lib.Sql

/-- The number of open parentheses behind a token; `none` when it closes one that is not open. -/
def depthStep (d : Nat) : Token → Option Nat
  | .sym .lparen => some (d + 1)
  | .sym .rparen => if d = 0 then none else some (d - 1)
  | _ => some d

def depth (d : Nat) (ts : List Token) : Option Nat := ts.foldlM depthStep d

/-- `b` may stand behind `a`. -/
def MayFollow (a b : Token) : Prop := b = .sym .rparen → a ≠ .sym .lparen ∧ a ≠ .kw .in

instance (a b : Token) : Decidable (MayFollow a b) := inferInstanceAs (Decidable (_ → _))

structure WellFormedTokens (ts : List Token) : Prop where
  balanced : depth 0 ts = some 0
  filled : ts.IsChain MayFollow

def WellFormed (statement : List UInt8) : Prop := ∃ ts, lex statement = some ts ∧ WellFormedTokens ts

instance (ts : List Token) : Decidable (WellFormedTokens ts) :=
  decidable_of_iff (depth 0 ts = some 0 ∧ ts.IsChain MayFollow) ⟨fun h => ⟨h.1, h.2⟩, fun h => ⟨h.1, h.2⟩⟩

instance (statement : List UInt8) : Decidable (WellFormed statement) :=
  decidable_of_iff ((lex statement).any fun ts => decide (WellFormedTokens ts)) (by simp [WellFormed, Option.any_eq_true])

/-- A part of a statement that closes what it opens, and neither begins nor ends in the middle of a list. -/
structure Piece (ts : List Token) : Prop where
  level : ∀ d, depth d ts = some d
  filled : ts.IsChain MayFollow
  first : ∀ t ∈ ts.head?, t ≠ .sym .rparen
  last : ∀ t ∈ ts.getLast?, t ≠ .sym .lparen ∧ t ≠ .kw .in

section
variable {ts us : List Token} {t : Token}

lemma depth_append (d : Nat) (ts us : List Token) : depth d (ts ++ us) = (depth d ts).bind fun e => depth e us :=
  List.foldlM_append

lemma depth_cons (d : Nat) (t : Token) (ts : List Token) : depth d (t :: ts) = (depthStep d t).bind fun e => depth e ts :=
  List.foldlM_cons

lemma mayFollow_of_ne {a b : Token} (h : b ≠ .sym .rparen) : MayFollow a b := fun e => absurd e h

/-! ## Pieces -/

lemma Piece.nil : Piece [] := ⟨fun _ => rfl, .nil, by simp, by simp⟩

lemma Piece.append (h : Piece ts) (h' : Piece us) : Piece (ts ++ us) := by
  refine ⟨fun d => ?_, ?_, ?_, ?_⟩
  · rw [depth_append, h.level, Option.bind_some, h'.level]
  · exact List.isChain_append.2 ⟨h.filled, h'.filled, fun _ _ b hb => mayFollow_of_ne (h'.first b hb)⟩
  · intro t ht
    rw [List.head?_append, Option.mem_def, Option.or_eq_some_iff] at ht
    obtain ht | ⟨-, ht⟩ := ht
    · exact h.first t ht
    · exact h'.first t ht
  · intro t ht
    rw [List.getLast?_append, Option.mem_def, Option.or_eq_some_iff] at ht
    obtain ht | ⟨-, ht⟩ := ht
    · exact h'.last t ht
    · exact h.last t ht

/-- Tokens that neither open nor close anything. -/
lemma Piece.plain (h : ∀ t ∈ ts, t ≠ .sym .lparen ∧ t ≠ .sym .rparen ∧ t ≠ .kw .in) : Piece ts := by
  induction ts with
  | nil => exact .nil
  | cons t ts ih =>
    obtain ⟨⟨open_, close, in_⟩, rest⟩ := List.forall_mem_cons.1 h
    have one : Piece [t] := by
      refine ⟨fun d => ?_, .singleton t, by simpa using close, by simpa using ⟨open_, in_⟩⟩
      rw [depth_cons]
      unfold depthStep
      split
      · contradiction
      · contradiction
      · rfl
    exact one.append (ih rest)

lemma closed_last (t : Token) (ts : List Token) :
    ∀ u ∈ (t :: (ts ++ [Token.sym .rparen])).getLast?, u ≠ .sym .lparen ∧ u ≠ .kw .in := by
  rw [← List.cons_append, List.getLast?_concat]
  simp

/-- A piece in parentheses. -/
lemma Piece.parens (h : Piece ts) (filled : ts ≠ []) : Piece (.sym .lparen :: (ts ++ [Token.sym .rparen])) := by
  refine ⟨fun d => ?_, ?_, by simp, closed_last _ ts⟩
  · rw [depth_cons, depthStep, Option.bind_some, depth_append, h.level]
    rfl
  · have inside : (ts ++ [Token.sym .rparen]).IsChain MayFollow :=
      List.isChain_append.2 ⟨h.filled, .singleton _, fun a ha b _ _ => h.last a ha⟩
    obtain ⟨t, ts, rfl⟩ := List.exists_cons_of_ne_nil filled
    exact List.isChain_cons_cons.2 ⟨mayFollow_of_ne (h.first t rfl), inside⟩

/-- A keyword `IN` and its list. -/
lemma Piece.list (h : Piece ts) (filled : ts ≠ []) : Piece (.kw .in :: .sym .lparen :: (ts ++ [Token.sym .rparen])) := by
  have list := h.parens filled
  refine ⟨fun d => ?_, ?_, by simp, ?_⟩
  · rw [depth_cons]
    exact list.level d
  · exact List.isChain_cons_cons.2 ⟨mayFollow_of_ne (by simp), list.filled⟩
  · rw [List.getLast?_cons_cons]
    exact list.last

lemma depth_add {d e : Nat} (h : depth d ts = some e) (k : Nat) : depth (d + k) ts = some (e + k) := by
  induction ts generalizing d with
  | nil =>
    cases h
    rfl
  | cons t ts ih =>
    rw [depth_cons, Option.bind_eq_some_iff] at h
    obtain ⟨d', step, rest⟩ := h
    have shifted : depthStep (d + k) t = some (d' + k) := by
      unfold depthStep at step ⊢
      split at step
      · cases step
        simp [Nat.add_right_comm]
      · split at step
        · cases step
        · cases step
          rw [if_neg (by omega)]
          congr 1
          omega
      · cases step
        rfl
    rw [depth_cons, shifted, Option.bind_some, ih rest]

lemma WellFormedTokens.piece (h : WellFormedTokens ts) (first : ∀ t ∈ ts.head?, t ≠ .sym .rparen)
    (last : ∀ t ∈ ts.getLast?, t ≠ .sym .lparen ∧ t ≠ .kw .in) : Piece ts := by
  refine ⟨fun d => ?_, h.filled, first, last⟩
  have shifted := depth_add h.balanced d
  rwa [Nat.zero_add] at shifted

/-- In front of a statement a piece changes nothing. -/
lemma wellFormedTokens_prepend (h : Piece ts) : WellFormedTokens (ts ++ us) ↔ WellFormedTokens us := by
  have level : depth 0 (ts ++ us) = depth 0 us := by rw [depth_append, h.level, Option.bind_some]
  constructor
  · rintro ⟨balanced, filled⟩
    exact ⟨level ▸ balanced, filled.right_of_append⟩
  · rintro ⟨balanced, filled⟩
    exact ⟨level.trans balanced, List.isChain_append.2 ⟨h.filled, filled, fun a ha _ _ _ => h.last a ha⟩⟩

/-- Behind a statement a piece changes nothing. -/
lemma wellFormedTokens_append (h : Piece us) : WellFormedTokens (ts ++ us) ↔ WellFormedTokens ts := by
  have level : depth 0 (ts ++ us) = depth 0 ts := by
    rw [depth_append]
    cases depth 0 ts with
    | none => rfl
    | some d => exact h.level d
  constructor
  · rintro ⟨balanced, filled⟩
    exact ⟨level ▸ balanced, filled.left_of_append⟩
  · rintro ⟨balanced, filled⟩
    refine ⟨level.trans balanced, List.isChain_append.2 ⟨filled, h.filled, fun _ _ b hb => ?_⟩⟩
    exact mayFollow_of_ne (h.first b hb)

/-! ## Texts -/

lemma lexRun_split (m : Mode) (s s' : List UInt8) :
    lexRun m (s ++ s') = ((lexRun (lexRun m s).1 s').1, (lexRun m s).2 ++ (lexRun (lexRun m s).1 s').2) :=
  lexRun_append rfl rfl

/-- A text that is a piece can be left out at the beginning. -/
lemma wellFormed_prepend {head tail : List UInt8} {T : List Token} (lexes : Lexes .idle head T .idle) (piece : Piece T) :
    WellFormed (head ++ tail) ↔ WellFormed tail := by
  have read : lex (head ++ tail) = (lex tail).map (T ++ ·) := by
    rw [lex, lex, cStr_append lexes.1, lexRun_split, lexes.2]
    simp [Option.map_map, Function.comp_def]
  simp only [WellFormed, read, Option.map_eq_some_iff]
  constructor
  · rintro ⟨_, ⟨ts, hts, rfl⟩, h⟩
    exact ⟨ts, hts, (wellFormedTokens_prepend piece).1 h⟩
  · rintro ⟨ts, hts, h⟩
    exact ⟨_, ⟨ts, hts, rfl⟩, (wellFormedTokens_prepend piece).2 h⟩

/-- Behind a blank the lexer is between two tokens, in a text literal, or has failed. -/
lemma lexStep_blank (m : Mode) : (lexStep m 32).1 = .idle ∨ (∃ s, (lexStep m 32).1 = .text s) ∨ (lexStep m 32).1 = .bad := by
  have begin : (start 32).1 = .idle := by decide
  have word : isWord 32 = false := by decide
  have digit : isDigitOf 10 32 = false := by decide
  have quote : (32 : UInt8) ≠ QUOTE := by decide
  have back : (32 : UInt8) ≠ BACKSLASH := by decide
  cases m with
  | idle => exact .inl begin
  | word w => simp [lexStep, word, emit, begin]
  | number n => simp [lexStep, word, digit, emit, begin]
  | text s => simp [lexStep, quote, back]
  | escape s => simp [lexStep]
  | quote s => simp [lexStep, quote, emit, begin]
  | bad => simp [lexStep]

/-- A statement in two parts, of which the first ends with a blank and the second has no quote: the second is read by
    itself, or nothing is. -/
lemma wellFormed_append {pre tail : List UInt8} {T E : List Token} {m : Mode} (h0 : 0 ∉ pre) (ht : Lexes .idle tail T m)
    (hE : lexEnd m = some E) (plain : Plain tail) :
    WellFormed (pre ++ [32] ++ tail) ↔ ∃ ts, lex (pre ++ [32]) = some ts ∧ WellFormedTokens (ts ++ (T ++ E)) := by
  have head0 : 0 ∉ pre ++ [32] := by simp [h0]
  have whole0 : 0 ∉ pre ++ [32] ++ tail := List.not_mem_append head0 ht.1
  have hm : (lexRun .idle (pre ++ [32])).1 = (lexStep (lexRun .idle pre).1 32).1 := by
    rw [lexRun_split]
    rfl
  rw [WellFormed, lex, lex, cStr_eq head0, cStr_eq whole0, lexRun_split]
  obtain idle | ⟨s, text⟩ | bad := hm ▸ lexStep_blank (lexRun .idle pre).1
  · have none_ : lexEnd .idle = some [] := rfl
    simp [idle, ht.2, hE, none_]
  · have fails (s : List UInt8) : lexEnd (.text s) = none := rfl
    simp [text, lexRun_plain plain, fails]
  · have fails : lexEnd .bad = none := rfl
    simp [bad, lexRun_bad, fails]

/-- So it is well formed exactly if both parts are, where the second is said to be `filled` if it has no empty list. -/
lemma wellFormed_append_iff {head tail : List UInt8} {T E : List Token} {m : Mode} {filled : Prop}
    (blank : ∃ pre, head = pre ++ [32] ∧ 0 ∉ pre) (ht : Lexes .idle tail T m) (hE : lexEnd m = some E) (plain : Plain tail)
    (piece : filled → Piece (T ++ E)) (chain : (T ++ E).IsChain MayFollow → filled) :
    WellFormed (head ++ tail) ↔ WellFormed head ∧ filled := by
  obtain ⟨pre, rfl, h0⟩ := blank
  rw [wellFormed_append h0 ht hE plain]
  constructor
  · rintro ⟨ts, hts, h⟩
    have isFilled := chain h.filled.right_of_append
    exact ⟨⟨ts, hts, (wellFormedTokens_append (piece isFilled)).1 h⟩, isFilled⟩
  · rintro ⟨⟨ts, hts, h⟩, isFilled⟩
    exact ⟨ts, hts, (wellFormedTokens_append (piece isFilled)).2 h⟩

end

end ArrowheadCore.Lib.Sql
