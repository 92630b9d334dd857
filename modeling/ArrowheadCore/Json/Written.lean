import ArrowheadCore.Json.Dump
import ArrowheadCore.Json.Converted

/-!
# Texts that denote a tree

`Denotes s v` says that `s` is the text of `v` in the grammar of RFC 8259, whatever stands behind it. It is closed under
the brackets and commas of `JsonBuilder`.
-/

namespace ArrowheadCore.Json
open Lib JsonView Grammar

def Denotes (s : List UInt8) (v : JsonNode) : Prop := ∃ n, ∀ rest, Value rfc n (s ++ rest) v rest

section
variable {s rest : List UInt8} {v : JsonNode}

lemma skips_rfc (s : List UInt8) : Skips rfc s s := ⟨[], rfl, by simp [rfc, Blanks]⟩

lemma skips_rfc_blank (s : List UInt8) : Skips rfc (' '.toUInt8 :: s) s :=
  ⟨[' '.toUInt8], rfl, by simp [rfc, Blanks, isBlank]⟩

lemma contains_of_shortEscape {e c : UInt8} (h : shortEscape e = some c) : (bytes "bfnrt\"\\/").contains e := by
  by_contra hn
  have list : bytes "bfnrt\"\\/" = ['b'.toUInt8, 'f'.toUInt8, 'n'.toUInt8, 'r'.toUInt8, 't'.toUInt8, '"'.toUInt8,
    '\\'.toUInt8, '/'.toUInt8] := rfl
  rw [list, List.contains_iff_mem] at hn
  simp only [List.mem_cons, List.not_mem_nil, or_false, not_or] at hn
  simp only [shortEscape, hn, or_self, if_false, reduceCtorEq] at h

/-- Every name of RFC 8259 is one for `JsonView`. -/
lemma isName_of_spells {last : Int} {k out : List UInt8} (h : Spells last k out) : IsName k := by
  induction h with
  | nil => exact .nil
  | plain _ hq hb _ ih => exact .plain hq hb ih
  | short he _ ih => exact .short (contains_of_shortEscape he) ih
  | hex _ _ ih => exact .hex ih

lemma rfc_sub : rfc.Sub jsonView := ⟨fun _ h => h, fun _ ⟨_, h⟩ => isName_of_spells h⟩

/-! ## Strings and numbers -/

lemma spells_clean (h : Clean s) : Spells (-1) s s := by
  have none : encode_utf8 (-1) = [] := rfl
  induction s with
  | nil => exact .nil (-1)
  | cons c cs ih =>
    obtain ⟨h1, h2, h3⟩ := h c (by simp)
    have : Spells (-1) (c :: cs) (encode_utf8 (-1) ++ c :: cs) := .plain h1 h2 h3 (ih fun d hd => h d (by simp [hd]))
    rwa [none, List.nil_append] at this

/-- The bytes may stand between the quotes of a string. -/
def IsContent (s : List UInt8) : Prop := ∃ out, Spells (-1) s out

lemma isContent_of_clean (h : Clean s) : IsContent s := ⟨s, spells_clean h⟩

lemma value_string {t : List UInt8} (h : Spells (-1) t s) (rest : List UInt8) :
    Value rfc 1 (bytes "\"" ++ (t ++ bytes "\"") ++ rest) (.string s) rest := by
  have quote : bytes "\"" = ['"'.toUInt8] := by decide
  have text : bytes "\"" ++ (t ++ bytes "\"") ++ rest = '"'.toUInt8 :: (t ++ '"'.toUInt8 :: rest) := by simp [quote]
  rw [text]
  exact .string rest h

lemma Denotes.of_spells {t : List UInt8} (h : Spells (-1) t s) : Denotes (bytes "\"" ++ (t ++ bytes "\"")) (.string s) :=
  ⟨1, value_string h⟩

lemma Denotes.string (h : Clean s) : Denotes (bytes "\"" ++ (s ++ bytes "\"")) (.string s) := .of_spells (spells_clean h)

lemma Denotes.quoted (s : List UInt8) : Denotes (quoted s) (.string s) := .of_spells (spells_quoted s)

lemma isNumber_to_string (z : Int) : IsNumber (to_string z) (numberNode z) := by
  have int := isInt_to_string z
  rw [numberNode]
  split
  next short =>
    have ends : EndsNumber [] := by
      intro c hc
      cases hc
    have value := strtol_to_string (natAbs_le_of_length short) ends
    rw [List.append_nil] at value
    have := IsNumber.int int short
    rwa [value] at this
  next long =>
    have := IsNumber.double int (.inl rfl) (.inl rfl) fun _ _ => Nat.lt_of_not_le long
    simpa using this

lemma Denotes.number (z : Int) : Denotes (to_string z) (numberNode z) :=
  ⟨1, fun rest => .number rest (isNumber_to_string z)⟩

lemma Denotes.null : Denotes (bytes "null") .null := ⟨1, fun rest => .null rest⟩

lemma Denotes.bool (b : Bool) : Denotes (if b then bytes "true" else bytes "false") (.bool b) := by
  cases b with
  | true => exact ⟨1, fun rest => .true rest⟩
  | false => exact ⟨1, fun rest => .false rest⟩

/-! ## Brackets -/

/-- Finitely many texts have a number of levels in common. -/
lemma denotes_levels {xs : List (List UInt8)} {vs : List JsonNode} (h : List.Forall₂ Denotes xs vs) :
    ∃ n, List.Forall₂ (fun x v => ∀ rest, Value rfc n (x ++ rest) v rest) xs vs := by
  induction h with
  | nil => exact ⟨0, .nil⟩
  | cons hx _ ih =>
    obtain ⟨m, hm⟩ := hx
    obtain ⟨n, hn⟩ := ih
    refine ⟨max m n, .cons (fun rest => (hm rest).le (Nat.le_max_left m n)) ?_⟩
    exact hn.imp fun _ _ h rest => (h rest).le (Nat.le_max_right m n)

lemma items_commaList {n : Nat} {xs : List (List UInt8)} {vs : List JsonNode}
    (h : List.Forall₂ (fun x v => ∀ rest, Value rfc n (x ++ rest) v rest) xs vs) (hne : xs ≠ []) (rest : List UInt8) :
    Items rfc (Value rfc n) (commaList xs ++ ']'.toUInt8 :: rest) vs rest := by
  induction h with
  | nil => exact absurd rfl hne
  | @cons x v xs vs hx hxs ih =>
    cases hxs with
    | nil => exact .last (skips_rfc _) (hx _) (skips_rfc _)
    | cons =>
      rw [commaList_cons, List.append_assoc]
      exact .more (skips_rfc _) (hx _) (skips_rfc _) (ih (by simp))

lemma Denotes.array {xs : List (List UInt8)} {vs : List JsonNode} (h : List.Forall₂ Denotes xs vs) :
    Denotes (arrayText xs) (.array vs) := by
  obtain ⟨n, hn⟩ := denotes_levels h
  refine ⟨n + 1, fun rest => ?_⟩
  have text : arrayText xs ++ rest = '['.toUInt8 :: (commaList xs ++ ']'.toUInt8 :: rest) := arrayText_append xs [] rest
  rw [text]
  cases xs with
  | nil =>
    cases h
    exact .emptyArray (skips_rfc _)
  | cons x xs => exact .array (items_commaList hn (by simp) rest)

/-! ## Members -/

/-- The text is that of a member, whatever stands behind it. -/
def DenotesMember (s : List UInt8) (m : List UInt8 × JsonNode) : Prop :=
  ∃ n, ∀ rest, Member rfc (Value rfc n) (s ++ rest) m rest

lemma members_commaList {n : Nat} {xs : List (List UInt8)} {ms : List (List UInt8 × JsonNode)}
    (h : List.Forall₂ (fun x m => ∀ rest, Member rfc (Value rfc n) (x ++ rest) m rest) xs ms) (hne : xs ≠ [])
    (rest : List UInt8) : Members rfc (Value rfc n) (commaList xs ++ '}'.toUInt8 :: rest) ms rest := by
  induction h with
  | nil => exact absurd rfl hne
  | @cons x m xs ms hx hxs ih =>
    cases hxs with
    | nil => exact .last (hx _) (skips_rfc _)
    | cons =>
      rw [commaList_cons, List.append_assoc]
      exact .more (hx _) (skips_rfc _) (ih (by simp))

lemma Denotes.members {xs : List (List UInt8)} {ms : List (List UInt8 × JsonNode)} (h : List.Forall₂ DenotesMember xs ms)
    (hne : xs ≠ []) : Denotes (bytes "\x7b" ++ (commaList xs ++ bytes "\x7d")) (.object ms) := by
  have levels : ∃ n, List.Forall₂ (fun x m => ∀ rest, Member rfc (Value rfc n) (x ++ rest) m rest) xs ms := by
    clear hne
    induction h with
    | nil => exact ⟨0, .nil⟩
    | cons hx _ ih =>
      obtain ⟨m, hm⟩ := hx
      obtain ⟨n, hn⟩ := ih
      refine ⟨max m n, .cons (fun rest => ?_) (hn.imp fun _ _ h rest => ?_)⟩
      · exact (hm rest).mono (.refl rfc) fun _ _ _ h => h.le (Nat.le_max_left m n)
      · exact (h rest).mono (.refl rfc) fun _ _ _ h => h.le (Nat.le_max_right m n)
  obtain ⟨n, hn⟩ := levels
  have brackets : bytes "\x7b" = ['{'.toUInt8] ∧ bytes "\x7d" = ['}'.toUInt8] := by decide
  refine ⟨n + 1, fun rest => ?_⟩
  have text : bytes "\x7b" ++ (commaList xs ++ bytes "\x7d") ++ rest =
      '{'.toUInt8 :: (commaList xs ++ '}'.toUInt8 :: rest) := by simp [brackets]
  rw [text]
  exact .object (members_commaList hn hne rest)

/-- A name, a value, and the blanks around them. -/
lemma DenotesMember.named {w1 w2 w3 key : List UInt8} (h1 : Blanks w1) (h2 : Blanks w2) (h3 : Blanks w3)
    (hk : IsContent key) (hv : Denotes s v) :
    DenotesMember (w1 ++ (bytes "\"" ++ (key ++ (bytes "\"" ++ (w2 ++ (bytes ":" ++ (w3 ++ s))))))) (key, v) := by
  obtain ⟨n, hn⟩ := hv
  have marks : bytes "\"" = ['"'.toUInt8] ∧ bytes ":" = [':'.toUInt8] := by decide
  refine ⟨n, fun rest => .mk ⟨w1, ?_, h1⟩ hk ⟨w2, rfl, h2⟩ ⟨w3, rfl, h3⟩ (hn rest)⟩
  simp [marks]

/-- The members of a builder. -/
lemma member_written {n : Nat} {key : List UInt8} (hk : Clean key) (hv : ∀ rest, Value rfc n (s ++ rest) v rest)
    (rest : List UInt8) : Member rfc (Value rfc n) (memberText (key, s) ++ rest) (key, v) rest := by
  rw [memberText, List.append_assoc, nameText_append]
  exact .mk (skips_rfc _) (isContent_of_clean hk) (skips_rfc _) (skips_rfc_blank _) (hv rest)

/-- The texts of members, and the members. -/
def DenoteMembers (texts : List (List UInt8 × List UInt8)) (ms : List (List UInt8 × JsonNode)) : Prop :=
  List.Forall₂ (fun t m => t.1 = m.1 ∧ Clean t.1 ∧ Denotes t.2 m.2) texts ms

lemma Denotes.object {texts : List (List UInt8 × List UInt8)} {ms : List (List UInt8 × JsonNode)}
    (h : DenoteMembers texts ms) (hne : texts ≠ []) : Denotes (objectText texts) (.object ms) := by
  refine .members ?_ (by simpa using hne)
  rw [List.forall₂_map_left_iff]
  refine h.imp ?_
  rintro ⟨k, t⟩ ⟨_, w⟩ ⟨rfl, hk, n, hn⟩
  exact ⟨n, member_written hk hn⟩

/-- A text that denotes a tree is a document. -/
lemma Denotes.document (h : Denotes s v) : ∃ n, Document rfc n s v := by
  obtain ⟨n, hn⟩ := h
  have := hn []
  rw [List.append_nil] at this
  exact ⟨n, s, [], skips_rfc _, this, skips_rfc _⟩

/-! ## How a text ends -/

/-- The text ends with a name that has no value: behind it stands nothing, or brackets that close an array and an
    object. -/
def OpenEnd (s : List UInt8) : Prop :=
  [':'.toUInt8] <:+ s ∨ [':'.toUInt8, ']'.toUInt8] <:+ s ∨ [':'.toUInt8, ']'.toUInt8, '}'.toUInt8] <:+ s

lemma openEnd_concat {c : UInt8} (h : OpenEnd (s ++ [c])) :
    c = ':'.toUInt8 ∨ c = ']'.toUInt8 ∧ [':'.toUInt8] <:+ s ∨
      c = '}'.toUInt8 ∧ [':'.toUInt8, ']'.toUInt8] <:+ s := by
  have last : ∀ {t : List UInt8} {d : UInt8}, t ++ [d] <:+ s ++ [c] → c = d ∧ t <:+ s := by
    intro t d ht
    obtain h0 | ⟨u, e, hu⟩ := List.suffix_concat_iff.1 ht
    · simp at h0
    · obtain ⟨rfl, last⟩ := List.append_inj' e rfl
      exact ⟨(List.singleton_inj.1 last).symm, hu⟩
  obtain h | h | h := h
  · exact .inl (last (t := []) h).1
  · exact .inr (.inl (last (t := [':'.toUInt8]) h))
  · exact .inr (.inr (last (t := [':'.toUInt8, ']'.toUInt8]) h))

lemma openEnd_blanks {w : List UInt8} (hw : Blanks w) (h : OpenEnd (s ++ w)) : OpenEnd s := by
  induction w using List.reverseRecOn with
  | nil => rwa [List.append_nil] at h
  | append_singleton w c ih =>
    have blank : isBlank c := hw c (by simp)
    rw [← List.append_assoc] at h
    obtain rfl | ⟨rfl, -⟩ | ⟨rfl, -⟩ := openEnd_concat h
    · exact absurd blank (by decide)
    · exact absurd blank (by decide)
    · exact absurd blank (by decide)

/-- What is taken from the text does not end so, whatever stands before it. -/
def Closed (s rest : List UInt8) : Prop := ∃ q, s = q ++ rest ∧ ∀ x, ¬OpenEnd (x ++ q)

lemma Closed.of_last {t : List UInt8} {c : UInt8} (e : s = (t ++ [c]) ++ rest)
    (hc : c ≠ ':'.toUInt8 ∧ c ≠ ']'.toUInt8 ∧ c ≠ '}'.toUInt8) : Closed s rest := by
  refine ⟨_, e, fun x h => ?_⟩
  rw [← List.append_assoc] at h
  obtain h | ⟨h, -⟩ | ⟨h, -⟩ := openEnd_concat h
  · exact hc.1 h
  · exact hc.2.1 h
  · exact hc.2.2 h

lemma Closed.before {u w : List UInt8} (h : Closed s (w ++ rest)) (hw : Blanks w) : Closed (u ++ s) rest := by
  obtain ⟨q, rfl, hq⟩ := h
  refine ⟨u ++ (q ++ w), by simp, fun x h => ?_⟩
  rw [← List.append_assoc, ← List.append_assoc] at h
  exact hq _ (openEnd_blanks hw h)

/-- A bracket behind what is closed closes it. -/
lemma Closed.bracket {c : UInt8} (h : Closed s (c :: rest)) (hc : c = ']'.toUInt8 ∨ c = '}'.toUInt8) : Closed s rest := by
  obtain ⟨q, rfl, hq⟩ := h
  refine ⟨q ++ [c], by simp, fun x h => ?_⟩
  rw [← List.append_assoc] at h
  obtain rfl | ⟨-, h⟩ | ⟨-, h⟩ := openEnd_concat h
  · exact absurd hc (by decide)
  · exact hq x (.inl h)
  · exact hq x (.inr (.inl h))

section
variable {V : List UInt8 → JsonNode → List UInt8 → Prop}

lemma closed_items (hV : ∀ {s v rest}, V s v rest → Closed s rest) {vs : List JsonNode} (h : Items rfc V s vs rest) :
    Closed s rest := by
  induction h with
  | last h1 hv h2 =>
    obtain ⟨w, rfl, -⟩ := h1
    obtain ⟨w', rfl, hw'⟩ := h2
    exact ((hV hv).before hw').bracket (.inl rfl)
  | @more s s1 s2 s3 rest v vs h1 hv h2 _ ih =>
    obtain ⟨w, rfl, -⟩ := h1
    obtain ⟨q, rfl, -⟩ := hV hv
    obtain ⟨w', rfl, -⟩ := h2
    have := ih.before (u := w ++ (q ++ (w' ++ [','.toUInt8]))) (w := []) (by simp [Blanks])
    simpa using this

lemma closed_member (hV : ∀ {s v rest}, V s v rest → Closed s rest) {m : List UInt8 × JsonNode}
    (h : Member rfc V s m rest) : Closed s rest := by
  cases h with
  | @mk k s1 s2 s3 _ v h1 hk h2 h3 hv =>
    obtain ⟨w1, rfl, -⟩ := h1
    obtain ⟨w2, rfl, -⟩ := h2
    obtain ⟨w3, rfl, -⟩ := h3
    have := (hV hv).before (u := w1 ++ '"'.toUInt8 :: (k ++ '"'.toUInt8 :: (w2 ++ ':'.toUInt8 :: w3))) (w := [])
      (by simp [Blanks])
    simpa using this

lemma closed_members (hV : ∀ {s v rest}, V s v rest → Closed s rest) {ms : List (List UInt8 × JsonNode)}
    (h : Members rfc V s ms rest) : Closed s rest := by
  induction h with
  | last h1 h2 =>
    have member := closed_member hV h1
    obtain ⟨w, rfl, hw⟩ := h2
    exact (member.before (u := []) hw).bracket (.inr rfl)
  | @more s s1 s2 rest m ms h1 h2 _ ih =>
    obtain ⟨q, rfl, -⟩ := closed_member hV h1
    obtain ⟨w, rfl, -⟩ := h2
    have := ih.before (u := q ++ (w ++ [','.toUInt8])) (w := []) (by simp [Blanks])
    simpa using this

lemma closed_digits {ds t : List UInt8} (h : IsDigits ds) (e : s = (t ++ ds) ++ rest) : Closed s rest := by
  obtain ⟨us, d, rfl⟩ := (List.eq_nil_or_concat' ds).resolve_left h.1
  have digit := h.2 d (by simp)
  refine .of_last (t := t ++ us) (c := d) (by simp [e]) ⟨?_, ?_, ?_⟩ <;>
  · rintro rfl
    exact absurd digit (by decide)

lemma closed_number (h : IsNumber s v) : Closed (s ++ rest) rest := by
  have int : ∀ {t : List UInt8}, IsInt t → Closed (t ++ rest) rest := by
    rintro t ⟨sign, ds, rfl, -, hd, -⟩
    exact closed_digits hd rfl
  cases h with
  | int h => exact int h
  | @double t f e h hf he =>
    obtain rfl | ⟨mark, sign, ds, rfl, -, -, hd⟩ := he
    · obtain rfl | ⟨ds, rfl, hd⟩ := hf
      · simpa using int h
      · exact closed_digits (t := t ++ ['.'.toUInt8]) hd (by simp)
    · exact closed_digits (t := t ++ (f ++ mark :: sign)) hd (by simp)

lemma closed_layer (hV : ∀ {s v rest}, V s v rest → Closed s rest) (h : Layer rfc V s v rest) : Closed s rest := by
  have opening : ∀ {c : UInt8} {w : List UInt8}, c = '['.toUInt8 ∨ c = '{'.toUInt8 → Blanks w →
      ∀ {s : List UInt8}, Closed (c :: (w ++ s)) s := by
    intro c w hc hw s
    have first : Closed (c :: (w ++ s)) (w ++ s) := .of_last (t := []) rfl (by
      obtain rfl | rfl := hc
      · decide
      · decide)
    simpa using first.before (u := []) hw
  cases h with
  | null => exact .of_last (t := bytes "nul") (c := 'l'.toUInt8) rfl (by decide)
  | true => exact .of_last (t := bytes "tru") (c := 'e'.toUInt8) rfl (by decide)
  | false => exact .of_last (t := bytes "fals") (c := 'e'.toUInt8) rfl (by decide)
  | number _ h => exact closed_number h
  | @string t _ _ _ => exact .of_last (t := '"'.toUInt8 :: t) (c := '"'.toUInt8) (by simp) (by decide)
  | emptyArray h =>
    obtain ⟨w, rfl, hw⟩ := h
    exact (opening (.inl rfl) hw).bracket (.inl rfl)
  | array h => exact (closed_items hV h).before (u := ['['.toUInt8]) (w := []) (by simp [Blanks])
  | emptyObject h =>
    obtain ⟨w, rfl, hw⟩ := h
    exact (opening (.inr rfl) hw).bracket (.inr rfl)
  | object h => exact (closed_members hV h).before (u := ['{'.toUInt8]) (w := []) (by simp [Blanks])

end

lemma closed_value {n : Nat} (h : Value rfc n s v rest) : Closed s rest := by
  induction n generalizing s v rest with
  | zero => exact h.elim
  | succ n ih => exact closed_layer ih h

/-- No document ends with a name without a value. -/
lemma not_openEnd_of_document {n : Nat} (h : Document rfc n s v) : ¬OpenEnd s := by
  obtain ⟨s1, s2, ⟨w, rfl, -⟩, value, ⟨w', rfl, hw'⟩⟩ := h
  obtain ⟨q, e, hq⟩ := (closed_value value).before (u := w) hw'
  rw [List.append_nil] at e
  rw [e]
  exact hq []

end

end ArrowheadCore.Json
