import ArrowheadCore.Json.JsonView

/-!
# The grammar of JSON texts

What a text may look like, independent of any parser. A relation of the grammar takes the text, what it stands for
and the rest behind it. `Value D n` are the values with `n` levels at most: `Layer` is one level over the values of
the next. Dialects differ in what stands between tokens and in member names; `jsonView` is the one that `JsonView`
documents, `rfc` has the names of RFC 8259, and in `anyBlank` anything may stand between tokens.

The tree has names as they are in the text, strings as what they spell, and numbers as `JsonView` keeps them.
-/

namespace ArrowheadCore.Json.Grammar
open Lib JsonView

structure Dialect where
  blank : List UInt8 → Prop
  name : List UInt8 → Prop

/-! ## Strings and names -/

/-- The content of a string, and the bytes it spells behind the escaped code point `last`. -/
inductive Spells : Int → List UInt8 → List UInt8 → Prop
  | nil (last : Int) : Spells last [] (encode_utf8 last)
  | plain {last : Int} {c : UInt8} {s out : List UInt8} : 0x1f < c.toNat → c ≠ '"'.toUInt8 → c ≠ '\\'.toUInt8 →
    Spells (-1) s out → Spells last (c :: s) (encode_utf8 last ++ c :: out)
  | short {last : Int} {e c : UInt8} {s out : List UInt8} : shortEscape e = some c →
    Spells (-1) s out → Spells last ('\\'.toUInt8 :: e :: s) (encode_utf8 last ++ c :: out)
  | hex {last : Int} {a b c d : UInt8} {s out : List UInt8} : [a, b, c, d].all (isDigitOf 16) →
    Spells (joinEscapes last (number 16 [a, b, c, d])).2 s out →
    Spells last ('\\'.toUInt8 :: 'u'.toUInt8 :: a :: b :: c :: d :: s)
      ((joinEscapes last (number 16 [a, b, c, d])).1 ++ out)

/-- A member name: any bytes up to the quote, and escapes with any four bytes behind a `u`. -/
inductive IsName : List UInt8 → Prop
  | nil : IsName []
  | plain {c : UInt8} {k : List UInt8} : c ≠ '"'.toUInt8 → c ≠ '\\'.toUInt8 → IsName k → IsName (c :: k)
  | short {e : UInt8} {k : List UInt8} : (bytes "bfnrt\"\\/").contains e → IsName k → IsName ('\\'.toUInt8 :: e :: k)
  | hex {a b c d : UInt8} {k : List UInt8} : IsName k → IsName ('\\'.toUInt8 :: 'u'.toUInt8 :: a :: b :: c :: d :: k)

def Blanks (w : List UInt8) : Prop := ∀ c ∈ w, isBlank c

def jsonView : Dialect := ⟨Blanks, IsName⟩

def rfc : Dialect := ⟨Blanks, fun k => ∃ out, Spells (-1) k out⟩

def anyBlank : Dialect := ⟨fun _ => True, IsName⟩

/-! ## Numbers -/

def IsDigits (ds : List UInt8) : Prop := ds ≠ [] ∧ ∀ d ∈ ds, isDigit d

/-- An integer: no zero in front of other digits. -/
def IsInt (s : List UInt8) : Prop :=
  ∃ sign ds, s = sign ++ ds ∧ (sign = [] ∨ sign = ['-'.toUInt8]) ∧ IsDigits ds ∧
    (ds.head? = some '0'.toUInt8 → ds = ['0'.toUInt8])

def IsFrac (f : List UInt8) : Prop := f = [] ∨ ∃ ds, f = '.'.toUInt8 :: ds ∧ IsDigits ds

def IsExp (e : List UInt8) : Prop :=
  e = [] ∨ ∃ mark sign ds, e = mark :: (sign ++ ds) ∧ (mark = 'e'.toUInt8 ∨ mark = 'E'.toUInt8) ∧
    (sign = [] ∨ sign = ['+'.toUInt8] ∨ sign = ['-'.toUInt8]) ∧ IsDigits ds

/-- A number; a short integer is kept as such. -/
inductive IsNumber : List UInt8 → JsonNode → Prop
  | int {s : List UInt8} : IsInt s → s.length ≤ digits10 → IsNumber s (.int (strtol 10 s))
  | double {s f e : List UInt8} : IsInt s → IsFrac f → IsExp e → (f = [] → e = [] → digits10 < s.length) →
    IsNumber (s ++ (f ++ e)) (.double (s ++ (f ++ e)))

/-! ## Values -/

section
variable (D : Dialect) (V : List UInt8 → JsonNode → List UInt8 → Prop)

/-- From one token to the next. -/
def Skips (s rest : List UInt8) : Prop := ∃ w, s = w ++ rest ∧ D.blank w

/-- The items of an array and its closing bracket. -/
inductive Items : List UInt8 → List JsonNode → List UInt8 → Prop
  | last {s s1 s2 rest : List UInt8} {v : JsonNode} : Skips D s s1 → V s1 v s2 → Skips D s2 (']'.toUInt8 :: rest) →
    Items s [v] rest
  | more {s s1 s2 s3 rest : List UInt8} {v : JsonNode} {vs : List JsonNode} : Skips D s s1 → V s1 v s2 →
    Skips D s2 (','.toUInt8 :: s3) → Items s3 vs rest → Items s (v :: vs) rest

/-- A member of an object. -/
inductive Member : List UInt8 → List UInt8 × JsonNode → List UInt8 → Prop
  | mk {s k s1 s2 s3 rest : List UInt8} {v : JsonNode} : Skips D s ('"'.toUInt8 :: (k ++ '"'.toUInt8 :: s1)) → D.name k →
    Skips D s1 (':'.toUInt8 :: s2) → Skips D s2 s3 → V s3 v rest → Member s (k, v) rest

/-- The members of an object and its closing bracket. -/
inductive Members : List UInt8 → List (List UInt8 × JsonNode) → List UInt8 → Prop
  | last {s s1 rest : List UInt8} {m : List UInt8 × JsonNode} : Member D V s m s1 → Skips D s1 ('}'.toUInt8 :: rest) →
    Members s [m] rest
  | more {s s1 s2 rest : List UInt8} {m : List UInt8 × JsonNode} {ms : List (List UInt8 × JsonNode)} :
    Member D V s m s1 → Skips D s1 (','.toUInt8 :: s2) → Members s2 ms rest → Members s (m :: ms) rest

/-- The values whose parts are `V`. -/
inductive Layer : List UInt8 → JsonNode → List UInt8 → Prop
  | null (rest : List UInt8) : Layer (bytes "null" ++ rest) .null rest
  | true (rest : List UInt8) : Layer (bytes "true" ++ rest) (.bool true) rest
  | false (rest : List UInt8) : Layer (bytes "false" ++ rest) (.bool false) rest
  | number {s : List UInt8} {v : JsonNode} (rest : List UInt8) : IsNumber s v → Layer (s ++ rest) v rest
  | string {s out : List UInt8} (rest : List UInt8) : Spells (-1) s out →
    Layer ('"'.toUInt8 :: (s ++ '"'.toUInt8 :: rest)) (.string out) rest
  | emptyArray {s rest : List UInt8} : Skips D s (']'.toUInt8 :: rest) → Layer ('['.toUInt8 :: s) (.array []) rest
  | array {s rest : List UInt8} {vs : List JsonNode} : Items D V s vs rest → Layer ('['.toUInt8 :: s) (.array vs) rest
  | emptyObject {s rest : List UInt8} : Skips D s ('}'.toUInt8 :: rest) → Layer ('{'.toUInt8 :: s) (.object []) rest
  | object {s rest : List UInt8} {ms : List (List UInt8 × JsonNode)} : Members D V s ms rest →
    Layer ('{'.toUInt8 :: s) (.object ms) rest

end

/-- The values with `n` levels at most. -/
def Value (D : Dialect) : Nat → List UInt8 → JsonNode → List UInt8 → Prop
  | 0 => fun _ _ _ => False
  | n + 1 => Layer D (Value D n)

/-- A text that is a value with blanks around it. -/
def Document (D : Dialect) (n : Nat) (s : List UInt8) (v : JsonNode) : Prop :=
  ∃ s1 s2, Skips D s s1 ∧ Value D n s1 v s2 ∧ Skips D s2 []

section
variable {D D' : Dialect} {V V' : List UInt8 → JsonNode → List UInt8 → Prop} {s rest : List UInt8}

/-- The first dialect allows no more than the second. -/
structure Dialect.Sub (D D' : Dialect) : Prop where
  blank : ∀ w, D.blank w → D'.blank w
  name : ∀ k, D.name k → D'.name k

lemma Dialect.Sub.refl (D : Dialect) : D.Sub D := ⟨fun _ h => h, fun _ h => h⟩

lemma Skips.mono (hD : D.Sub D') (h : Skips D s rest) : Skips D' s rest := by
  obtain ⟨w, rfl, hw⟩ := h
  exact ⟨w, rfl, hD.blank w hw⟩

lemma Skips.refl (s : List UInt8) : Skips jsonView s s := ⟨[], rfl, by simp [jsonView, Blanks]⟩

lemma Skips.suffix {text : List UInt8} (h : Skips D s rest) (hs : s <:+ text) : rest <:+ text := by
  obtain ⟨w, rfl, -⟩ := h
  exact (List.suffix_append w rest).trans hs

lemma Skips.length (h : Skips D s rest) : rest.length ≤ s.length := by
  obtain ⟨w, rfl, -⟩ := h
  simp

lemma Items.mono (hD : D.Sub D') (hV : ∀ s v rest, V s v rest → V' s v rest) {vs : List JsonNode}
    (h : Items D V s vs rest) : Items D' V' s vs rest := by
  induction h with
  | last h1 hv h2 => exact .last (h1.mono hD) (hV _ _ _ hv) (h2.mono hD)
  | more h1 hv h2 _ ih => exact .more (h1.mono hD) (hV _ _ _ hv) (h2.mono hD) ih

lemma Member.mono (hD : D.Sub D') (hV : ∀ s v rest, V s v rest → V' s v rest) {m : List UInt8 × JsonNode}
    (h : Member D V s m rest) : Member D' V' s m rest := by
  cases h with
  | mk h1 hk h2 h3 hv => exact .mk (h1.mono hD) (hD.name _ hk) (h2.mono hD) (h3.mono hD) (hV _ _ _ hv)

lemma Members.mono (hD : D.Sub D') (hV : ∀ s v rest, V s v rest → V' s v rest) {ms : List (List UInt8 × JsonNode)}
    (h : Members D V s ms rest) : Members D' V' s ms rest := by
  induction h with
  | last h1 h2 => exact .last (h1.mono hD hV) (h2.mono hD)
  | more h1 h2 _ ih => exact .more (h1.mono hD hV) (h2.mono hD) ih

lemma Layer.mono (hD : D.Sub D') (hV : ∀ s v rest, V s v rest → V' s v rest) {v : JsonNode} (h : Layer D V s v rest) :
    Layer D' V' s v rest := by
  cases h with
  | null => exact .null _
  | true => exact .true _
  | false => exact .false _
  | number _ h => exact .number _ h
  | string _ h => exact .string _ h
  | emptyArray h => exact .emptyArray (h.mono hD)
  | array h => exact .array (h.mono hD hV)
  | emptyObject h => exact .emptyObject (h.mono hD)
  | object h => exact .object (h.mono hD hV)

/-! ## What is taken from a text -/

lemma Items.shorter (hV : ∀ {s v rest}, V s v rest → rest.length < s.length) {vs : List JsonNode}
    (h : Items D V s vs rest) : rest.length < s.length := by
  induction h with
  | last h1 hv h2 =>
    have l1 := h1.length
    have l2 := hV hv
    have l3 := h2.length
    rw [List.length_cons] at l3
    omega
  | more h1 hv h2 _ ih =>
    have l1 := h1.length
    have l2 := hV hv
    have l3 := h2.length
    rw [List.length_cons] at l3
    omega

lemma Member.shorter (hV : ∀ {s v rest}, V s v rest → rest.length < s.length) {m : List UInt8 × JsonNode}
    (h : Member D V s m rest) : rest.length < s.length := by
  cases h with
  | mk h1 hk h2 h3 hv =>
    have l1 := h1.length
    have l2 := h2.length
    have l3 := h3.length
    have l4 := hV hv
    simp only [List.length_cons, List.length_append] at l1 l2
    omega

lemma Members.shorter (hV : ∀ {s v rest}, V s v rest → rest.length < s.length) {ms : List (List UInt8 × JsonNode)}
    (h : Members D V s ms rest) : rest.length < s.length := by
  induction h with
  | last h1 h2 =>
    have l1 := h1.shorter hV
    have l2 := h2.length
    rw [List.length_cons] at l2
    omega
  | more h1 h2 _ ih =>
    have l1 := h1.shorter hV
    have l2 := h2.length
    rw [List.length_cons] at l2
    omega

lemma IsInt.ne_nil (h : IsInt s) : s ≠ [] := by
  obtain ⟨sign, ds, rfl, -, hd, -⟩ := h
  simp [hd.1]

lemma IsNumber.ne_nil {v : JsonNode} (h : IsNumber s v) : s ≠ [] := by
  cases h with
  | int h => exact h.ne_nil
  | double h => simp [h.ne_nil]

lemma Layer.shorter (hV : ∀ {s v rest}, V s v rest → rest.length < s.length) {v : JsonNode} (h : Layer D V s v rest) :
    rest.length < s.length := by
  have word : ∀ {w : List UInt8}, w ≠ [] → rest.length < (w ++ rest).length := by
    intro w hw
    have := List.length_pos_iff.2 hw
    rw [List.length_append]
    omega
  cases h with
  | null => exact word (by decide)
  | true => exact word (by decide)
  | false => exact word (by decide)
  | number _ h => exact word h.ne_nil
  | string _ h =>
    simp only [List.length_cons, List.length_append]
    omega
  | emptyArray h =>
    have := h.length
    simp only [List.length_cons] at this ⊢
    omega
  | array h => exact Nat.lt_succ_of_lt (h.shorter hV)
  | emptyObject h =>
    have := h.length
    simp only [List.length_cons] at this ⊢
    omega
  | object h => exact Nat.lt_succ_of_lt (h.shorter hV)

lemma Value.shorter {n : Nat} {v : JsonNode} (h : Value D n s v rest) : rest.length < s.length := by
  induction n generalizing s v rest with
  | zero => exact h.elim
  | succ n ih => exact Layer.shorter ih h

/-- The rest is the end of the text. -/
lemma Items.suffix (hV : ∀ {s v rest}, V s v rest → rest <:+ s) {vs : List JsonNode} (h : Items D V s vs rest) :
    rest <:+ s := by
  induction h with
  | last h1 hv h2 =>
    have bracket := h2.suffix ((hV hv).trans (h1.suffix List.suffix_rfl))
    exact (List.suffix_cons _ _).trans bracket
  | more h1 hv h2 _ ih =>
    have comma := h2.suffix ((hV hv).trans (h1.suffix List.suffix_rfl))
    exact (ih.trans (List.suffix_cons _ _)).trans comma

lemma Member.suffix (hV : ∀ {s v rest}, V s v rest → rest <:+ s) {m : List UInt8 × JsonNode} (h : Member D V s m rest) :
    rest <:+ s := by
  cases h with
  | mk h1 hk h2 h3 hv =>
    have name := h1.suffix List.suffix_rfl
    have quote := ((List.suffix_cons _ _).trans (List.suffix_append _ _)).trans ((List.suffix_cons _ _).trans name)
    have colon := (List.suffix_cons _ _).trans (h2.suffix quote)
    exact (hV hv).trans (h3.suffix colon)

lemma Members.suffix (hV : ∀ {s v rest}, V s v rest → rest <:+ s) {ms : List (List UInt8 × JsonNode)}
    (h : Members D V s ms rest) : rest <:+ s := by
  induction h with
  | last h1 h2 => exact (List.suffix_cons _ _).trans (h2.suffix (h1.suffix hV))
  | more h1 h2 _ ih => exact (ih.trans (List.suffix_cons _ _)).trans (h2.suffix (h1.suffix hV))

lemma Layer.suffix (hV : ∀ {s v rest}, V s v rest → rest <:+ s) {v : JsonNode} (h : Layer D V s v rest) : rest <:+ s := by
  cases h with
  | null => exact List.suffix_append _ _
  | true => exact List.suffix_append _ _
  | false => exact List.suffix_append _ _
  | number => exact List.suffix_append _ _
  | string => exact ((List.suffix_cons _ _).trans (List.suffix_append _ _)).trans (List.suffix_cons _ _)
  | emptyArray h => exact ((List.suffix_cons _ _).trans (h.suffix List.suffix_rfl)).trans (List.suffix_cons _ _)
  | array h => exact (h.suffix hV).trans (List.suffix_cons _ _)
  | emptyObject h => exact ((List.suffix_cons _ _).trans (h.suffix List.suffix_rfl)).trans (List.suffix_cons _ _)
  | object h => exact (h.suffix hV).trans (List.suffix_cons _ _)

lemma Value.suffix {n : Nat} {v : JsonNode} (h : Value D n s v rest) : rest <:+ s := by
  induction n generalizing s v rest with
  | zero => exact h.elim
  | succ n ih => exact Layer.suffix ih h

/-! ## Texts that go on -/

section
variable (t : List UInt8)

lemma Skips.append (h : Skips D s rest) : Skips D (s ++ t) (rest ++ t) := by
  obtain ⟨w, rfl, hw⟩ := h
  exact ⟨w, List.append_assoc _ _ _, hw⟩

lemma Items.append (hV : ∀ {s v rest}, V s v rest → V (s ++ t) v (rest ++ t)) {vs : List JsonNode}
    (h : Items D V s vs rest) : Items D V (s ++ t) vs (rest ++ t) := by
  induction h with
  | last h1 hv h2 => exact .last (h1.append t) (hV hv) (h2.append t)
  | more h1 hv h2 _ ih => exact .more (h1.append t) (hV hv) (h2.append t) ih

lemma Member.append (hV : ∀ {s v rest}, V s v rest → V (s ++ t) v (rest ++ t)) {m : List UInt8 × JsonNode}
    (h : Member D V s m rest) : Member D V (s ++ t) m (rest ++ t) := by
  cases h with
  | mk h1 hk h2 h3 hv =>
    have h1 := h1.append t
    rw [List.cons_append, List.append_assoc, List.cons_append] at h1
    exact .mk h1 hk (h2.append t) (h3.append t) (hV hv)

lemma Members.append (hV : ∀ {s v rest}, V s v rest → V (s ++ t) v (rest ++ t)) {ms : List (List UInt8 × JsonNode)}
    (h : Members D V s ms rest) : Members D V (s ++ t) ms (rest ++ t) := by
  induction h with
  | last h1 h2 => exact .last (h1.append t hV) (h2.append t)
  | more h1 h2 _ ih => exact .more (h1.append t hV) (h2.append t) ih

lemma Layer.append (hV : ∀ {s v rest}, V s v rest → V (s ++ t) v (rest ++ t)) {v : JsonNode} (h : Layer D V s v rest) :
    Layer D V (s ++ t) v (rest ++ t) := by
  cases h with
  | null => rw [List.append_assoc]; exact .null _
  | true => rw [List.append_assoc]; exact .true _
  | false => rw [List.append_assoc]; exact .false _
  | number _ h => rw [List.append_assoc]; exact .number _ h
  | string _ h =>
    rw [List.cons_append, List.append_assoc, List.cons_append]
    exact .string _ h
  | emptyArray h => exact .emptyArray (h.append t)
  | array h => exact .array (h.append t hV)
  | emptyObject h => exact .emptyObject (h.append t)
  | object h => exact .object (h.append t hV)

lemma Value.append {n : Nat} {v : JsonNode} (h : Value D n s v rest) : Value D n (s ++ t) v (rest ++ t) := by
  induction n generalizing s v rest with
  | zero => exact h.elim
  | succ n ih => exact Layer.append t ih h

end

/-! ## More levels and more dialects -/

lemma Value.mono (hD : D.Sub D') {n : Nat} {v : JsonNode} (h : Value D n s v rest) : Value D' n s v rest := by
  induction n generalizing s v rest with
  | zero => exact h
  | succ n ih => exact Layer.mono hD (fun _ _ _ => ih) h

lemma Value.succ {n : Nat} {v : JsonNode} (h : Value D n s v rest) : Value D (n + 1) s v rest := by
  induction n generalizing s v rest with
  | zero => exact h.elim
  | succ n ih => exact Layer.mono (.refl D) (fun _ _ _ => ih) h

lemma Value.le {m n : Nat} (hmn : m ≤ n) {v : JsonNode} (h : Value D m s v rest) : Value D n s v rest := by
  induction hmn with
  | refl => exact h
  | step _ ih => exact ih.succ

end

end ArrowheadCore.Json.Grammar
