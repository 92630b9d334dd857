import ArrowheadCore.Json.Written

/-!
# Braces outside of strings

In a JSON document the braces that do not stand in a string open and close each other. So a text with one closing brace
more than opening ones is none.
-/

namespace ArrowheadCore.Json
open Lib JsonView Grammar

/-- Where a byte of the text stands: outside of strings, in one, or behind a backslash in one. -/
inductive Place where
  | outside
  | inside
  | escaped
deriving DecidableEq, Repr

def Place.step : Place → UInt8 → Place
  | .outside, c => if c = '"'.toUInt8 then .inside else .outside
  | .inside, c => if c = '"'.toUInt8 then .outside else if c = '\\'.toUInt8 then .escaped else .inside
  | .escaped, _ => .inside

/-- What a byte adds to the number of open braces. -/
def Place.brace : Place → UInt8 → Int
  | .outside, c => if c = '{'.toUInt8 then 1 else if c = '}'.toUInt8 then -1 else 0
  | _, _ => 0

/-- The place behind the text, and how many braces more it opens than it closes. -/
def braces : Place → List UInt8 → Place × Int
  | m, [] => (m, 0)
  | m, c :: s => ((braces (m.step c) s).1, m.brace c + (braces (m.step c) s).2)

/-- Outside of strings the text opens `k` braces more than it closes, and it ends there. -/
def Opens (k : Int) (s : List UInt8) : Prop := braces .outside s = (.outside, k)

instance (k : Int) (s : List UInt8) : Decidable (Opens k s) := inferInstanceAs (Decidable (_ = _))

section
variable {s t rest : List UInt8} {v : JsonNode} {k l : Int}

lemma braces_append (m : Place) (s t : List UInt8) :
    braces m (s ++ t) = ((braces (braces m s).1 t).1, (braces m s).2 + (braces (braces m s).1 t).2) := by
  induction s generalizing m with
  | nil => simp [braces]
  | cons c s ih => simp [braces, ih, Int.add_assoc]

lemma Opens.append (h : Opens k s) (h' : Opens l t) : Opens (k + l) (s ++ t) := by
  rw [Opens, braces_append, h, h']

/-- Without quotes and braces nothing is opened. -/
lemma Opens.plain (h : ∀ c ∈ s, c ≠ '"'.toUInt8 ∧ c ≠ '{'.toUInt8 ∧ c ≠ '}'.toUInt8) : Opens 0 s := by
  induction s with
  | nil => rfl
  | cons c s ih =>
    obtain ⟨⟨quote, open_, close⟩, rest⟩ := List.forall_mem_cons.1 h
    have ih : braces .outside s = (.outside, 0) := ih rest
    simp [Opens, braces, Place.step, Place.brace, quote, open_, close, ih]

lemma opens_blanks (h : Blanks s) : Opens 0 s := by
  refine .plain fun c hc => ?_
  have blank := h c hc
  refine ⟨?_, ?_, ?_⟩ <;>
  · rintro rfl
    exact absurd blank (by decide)

/-! ## Strings and numbers -/

lemma braces_plain {c : UInt8} (hq : c ≠ '"'.toUInt8) (hb : c ≠ '\\'.toUInt8) (s : List UInt8) :
    braces .inside (c :: s) = braces .inside s := by
  simp [braces, Place.step, Place.brace, hq, hb]

lemma braces_escape (c : UInt8) (s : List UInt8) : braces .inside ('\\'.toUInt8 :: c :: s) = braces .inside s := by
  have step : Place.inside.step '\\'.toUInt8 = .escaped := by decide
  rw [braces, braces, step]
  simp [Place.step, Place.brace]

lemma ne_of_hex {a : UInt8} (h : isDigitOf 16 a) : a ≠ '"'.toUInt8 ∧ a ≠ '\\'.toUInt8 := by
  constructor
  · rintro rfl
    exact absurd h (by decide)
  · rintro rfl
    exact absurd h (by decide)

/-- No content of a string ends the string. -/
lemma braces_spells {last : Int} {out : List UInt8} (h : Spells last s out) : braces .inside s = (.inside, 0) := by
  induction h with
  | nil => rfl
  | plain _ hq hb _ ih => rw [braces_plain hq hb, ih]
  | short _ _ ih => rw [braces_escape, ih]
  | @hex _ a b c d s _ hd _ ih =>
    simp only [List.all_cons, List.all_nil, Bool.and_true, Bool.and_eq_true] at hd
    obtain ⟨ha, hb, hc, hd⟩ := hd
    rw [braces_escape, braces_plain (ne_of_hex ha).1 (ne_of_hex ha).2, braces_plain (ne_of_hex hb).1 (ne_of_hex hb).2,
      braces_plain (ne_of_hex hc).1 (ne_of_hex hc).2, braces_plain (ne_of_hex hd).1 (ne_of_hex hd).2, ih]

lemma opens_string {last : Int} {out : List UInt8} (h : Spells last s out) : Opens 0 ('"'.toUInt8 :: (s ++ ['"'.toUInt8])) := by
  have enter : braces .outside ['"'.toUInt8] = (.inside, 0) := by decide
  have leave : braces .inside ['"'.toUInt8] = (.outside, 0) := by decide
  rw [Opens, ← List.singleton_append, braces_append, enter, braces_append, braces_spells h, leave]
  rfl

lemma opens_digits (h : ∀ d ∈ s, isDigit d) : Opens 0 s := by
  refine .plain fun c hc => ?_
  have digit := h c hc
  refine ⟨?_, ?_, ?_⟩ <;>
  · rintro rfl
    exact absurd digit (by decide)

lemma opens_int (h : IsInt s) : Opens 0 s := by
  obtain ⟨sign, ds, rfl, hs, hd, -⟩ := h
  have first : Opens 0 sign := by
    obtain rfl | rfl := hs
    · rfl
    · rfl
  exact first.append (opens_digits hd.2)

lemma opens_number (h : IsNumber s v) : Opens 0 s := by
  cases h with
  | int h => exact opens_int h
  | @double t f e h hf he =>
    have frac : Opens 0 f := by
      obtain rfl | ⟨ds, rfl, hd⟩ := hf
      · rfl
      · exact Opens.append (s := ['.'.toUInt8]) rfl (opens_digits hd.2)
    have exp : Opens 0 e := by
      obtain rfl | ⟨mark, sign, ds, rfl, hm, hs, hd⟩ := he
      · rfl
      · have first : Opens 0 (mark :: sign) := by
          obtain rfl | rfl := hm <;> obtain rfl | rfl | rfl := hs <;> rfl
        exact first.append (opens_digits hd.2)
    exact (opens_int h).append (frac.append exp)

/-! ## Values -/

/-- What is taken from the text opens and closes as many. -/
def Level (s rest : List UInt8) : Prop := ∃ q, s = q ++ rest ∧ Opens 0 q

lemma Level.trans (h : Level s t) (h' : Level t rest) : Level s rest := by
  obtain ⟨q, rfl, hq⟩ := h
  obtain ⟨q', rfl, hq'⟩ := h'
  exact ⟨q ++ q', by simp, hq.append hq'⟩

lemma Level.byte (c : UInt8) (hc : c ≠ '"'.toUInt8 ∧ c ≠ '{'.toUInt8 ∧ c ≠ '}'.toUInt8) (rest : List UInt8) :
    Level (c :: rest) rest :=
  ⟨[c], rfl, .plain (by simpa using hc)⟩

lemma level_skips (h : Skips rfc s rest) : Level s rest := by
  obtain ⟨w, rfl, hw⟩ := h
  exact ⟨w, rfl, opens_blanks hw⟩

lemma level_string {last : Int} {out : List UInt8} (h : Spells last s out) (rest : List UInt8) :
    Level ('"'.toUInt8 :: (s ++ '"'.toUInt8 :: rest)) rest :=
  ⟨_, by simp, opens_string h⟩

/-- A brace, what is level, and the closing brace. -/
lemma Level.braced (h : Level s ('}'.toUInt8 :: rest)) : Level ('{'.toUInt8 :: s) rest := by
  obtain ⟨q, rfl, hq⟩ := h
  have open_ : Opens 1 ['{'.toUInt8] := rfl
  have close : Opens (-1) ['}'.toUInt8] := rfl
  exact ⟨['{'.toUInt8] ++ (q ++ ['}'.toUInt8]), by simp, open_.append (hq.append close)⟩

section
variable {V : List UInt8 → JsonNode → List UInt8 → Prop}

lemma level_items (hV : ∀ {s v rest}, V s v rest → Level s rest) {vs : List JsonNode} (h : Items rfc V s vs rest) :
    Level s rest := by
  induction h with
  | last h1 hv h2 => exact (level_skips h1).trans ((hV hv).trans ((level_skips h2).trans (.byte _ (by decide) _)))
  | more h1 hv h2 _ ih =>
    exact (level_skips h1).trans ((hV hv).trans ((level_skips h2).trans (.trans (.byte _ (by decide) _) ih)))

lemma level_member (hV : ∀ {s v rest}, V s v rest → Level s rest) {m : List UInt8 × JsonNode}
    (h : Member rfc V s m rest) : Level s rest := by
  cases h with
  | mk h1 hk h2 h3 hv =>
    obtain ⟨_, name⟩ := hk
    have value := (level_skips h3).trans (hV hv)
    exact (level_skips h1).trans ((level_string name _).trans ((level_skips h2).trans (.trans (.byte _ (by decide) _) value)))

/-- The members leave the closing brace. -/
lemma level_members (hV : ∀ {s v rest}, V s v rest → Level s rest) {ms : List (List UInt8 × JsonNode)}
    (h : Members rfc V s ms rest) : Level s ('}'.toUInt8 :: rest) := by
  induction h with
  | last h1 h2 => exact (level_member hV h1).trans (level_skips h2)
  | more h1 h2 _ ih => exact (level_member hV h1).trans ((level_skips h2).trans (.trans (.byte _ (by decide) _) ih))

lemma level_layer (hV : ∀ {s v rest}, V s v rest → Level s rest) (h : Layer rfc V s v rest) : Level s rest := by
  cases h with
  | null => exact ⟨bytes "null", rfl, by decide⟩
  | true => exact ⟨bytes "true", rfl, by decide⟩
  | false => exact ⟨bytes "false", rfl, by decide⟩
  | number _ h => exact ⟨_, rfl, opens_number h⟩
  | string _ h => exact level_string h _
  | emptyArray h => exact .trans (.byte _ (by decide) _) ((level_skips h).trans (.byte _ (by decide) _))
  | array h => exact .trans (.byte _ (by decide) _) (level_items hV h)
  | emptyObject h => exact (level_skips h).braced
  | object h => exact (level_members hV h).braced

end

lemma level_value {n : Nat} (h : Value rfc n s v rest) : Level s rest := by
  induction n generalizing s v rest with
  | zero => exact h.elim
  | succ n ih => exact level_layer ih h

theorem opens_of_document {n : Nat} (h : Document rfc n s v) : Opens 0 s := by
  obtain ⟨s1, s2, h1, value, h2⟩ := h
  obtain ⟨q, e, hq⟩ := (level_skips h1).trans ((level_value value).trans (level_skips h2))
  rw [e, List.append_nil]
  exact hq

lemma opens_of_denotes (h : Denotes s v) : Opens 0 s := by
  obtain ⟨n, h⟩ := h.document
  exact opens_of_document h

/-! ## What a builder writes -/

lemma opens_commaList {ks : List Int} {xs : List (List UInt8)} (h : List.Forall₂ Opens ks xs) :
    Opens ks.sum (commaList xs) := by
  induction h with
  | nil => rfl
  | @cons k x ks xs hx hxs ih =>
    cases hxs with
    | nil => simpa using hx
    | cons =>
      have comma : Opens 0 (bytes ",") := by decide
      have list := hx.append (comma.append ih)
      rwa [Int.zero_add] at list

lemma Opens.array {ks : List Int} {xs : List (List UInt8)} (h : List.Forall₂ Opens ks xs) :
    Opens ks.sum (arrayText xs) := by
  have open_ : Opens 0 (bytes "[") := by decide
  have close : Opens 0 (bytes "]") := by decide
  have list := open_.append ((opens_commaList h).append close)
  rwa [Int.add_zero, Int.zero_add] at list

lemma opens_memberText {key : List UInt8} (hk : Clean key) (h : Opens k s) : Opens k (memberText (key, s)) := by
  have name : Opens 0 ('"'.toUInt8 :: (key ++ ['"'.toUInt8])) := opens_string (spells_clean hk)
  have colon : Opens 0 [':'.toUInt8, ' '.toUInt8] := by decide
  have member := name.append (colon.append h)
  have text : memberText (key, s) = '"'.toUInt8 :: (key ++ ['"'.toUInt8]) ++ ([':'.toUInt8, ' '.toUInt8] ++ s) := by
    show nameText key ++ s = _
    simpa using nameText_append key s
  rwa [text, ← Int.zero_add k, ← Int.zero_add (0 + k)]

/-- An object opens what its values open. -/
lemma Opens.object {ks : List Int} {ms : List (List UInt8 × List UInt8)}
    (h : List.Forall₂ (fun k m => Clean m.1 ∧ Opens k m.2) ks ms) : Opens ks.sum (objectText ms) := by
  have open_ : Opens 1 (bytes "\x7b") := by decide
  have close : Opens (-1) (bytes "\x7d") := by decide
  have members : List.Forall₂ Opens ks (ms.map memberText) :=
    List.forall₂_map_right_iff.2 (h.imp fun _ _ h => opens_memberText h.1 h.2)
  have object := open_.append ((opens_commaList members).append close)
  rwa [Int.add_left_comm, Int.add_right_neg, Int.add_zero] at object

end

end ArrowheadCore.Json
