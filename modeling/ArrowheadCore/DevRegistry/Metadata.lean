import ArrowheadCore.DevRegistry.Register

/-!
# Metadata of the device registry

Both encoders write the pairs of the metadata with a separator at one end and take two bytes off at the other: the parser
(`Parsers::DeviceRegistry`) takes off its last separator, and `Register::process`, whose separators stand in front, the last
two bytes of the last pair.
-/

namespace ArrowheadCore.DevRegistry
open Lib Json

/-- A pair of strings; a C++ program sees of a name or value what is in front of its first NUL. -/
abbrev Pair := List UInt8 × List UInt8

def Pair.seen (kv : Pair) : Pair := (cStr kv.1, cStr kv.2)

/-- An object of strings. -/
def metadataObject (pairs : List Pair) : JsonValue := .object (pairs.map fun kv => (kv.1, .string kv.2))

/-! ## Reading the text -/

/-- A text cut at every `", "`. -/
def splitItems : List UInt8 → List (List UInt8)
  | [] => [[]]
  | [c] => [[c]]
  | c :: d :: t =>
    if c = ','.toUInt8 ∧ d = 32 then [] :: splitItems t
    else
      match splitItems (d :: t) with
      | [] => [[c]]
      | item :: items => (c :: item) :: items

/-- An item cut at its first `=`. -/
def splitPair (item : List UInt8) : Pair :=
  (item.takeWhile (· ≠ '='.toUInt8), (item.dropWhile (· ≠ '='.toUInt8)).tail)

/-- The pairs of a text; none for the empty text. -/
def decode (text : List UInt8) : List Pair := if text = [] then [] else (splitItems text).map splitPair

/-- Neither a comma nor `=` in it, and no blank at an end. -/
structure CleanText (s : List UInt8) : Prop where
  comma : ','.toUInt8 ∉ s
  eq : '='.toUInt8 ∉ s
  first : ∀ c ∈ s.head?, isspace c = false
  last : ∀ c ∈ s.getLast?, isspace c = false

def CleanPairs (pairs : List Pair) : Prop := ∀ kv ∈ pairs, CleanText (cStr kv.1) ∧ CleanText (cStr kv.2)

example : decode (bytes "a=1, b=x=y") = [(bytes "a", bytes "1"), (bytes "b", bytes "x=y")] ∧ decode [] = [] := by decide

/-! ## The two texts -/

def item (kv : Pair) : List UInt8 := cStr kv.1 ++ (bytes "=" ++ cStr kv.2)

/-- The pairs with separators between them. -/
def itemsText : List Pair → List UInt8
  | [] => []
  | kv :: pairs => item kv ++ pairs.flatMap fun kv => bytes ", " ++ item kv

section
variable {pairs : List Pair}

lemma nodes_metadataObject (pairs : List Pair) :
    (metadataObject pairs).nodes = pairs.map fun kv => (some kv.1, .string kv.2) := by
  rw [metadataObject, JsonValue.nodes, List.map_map]
  rfl

lemma parsersLoop_eq (metadata : List UInt8) (pairs : List Pair) :
    Parsers.metadataLoop metadata (pairs.map fun kv => (some kv.1, .string kv.2)) =
      .ok (metadata ++ pairs.flatMap fun kv => item kv ++ bytes ", ") := by
  induction pairs generalizing metadata with
  | nil => simp [Parsers.metadataLoop]
  | cons kv pairs ih =>
    show Parsers.metadataLoop (metadata ++ (cStr kv.1 ++ (bytes "=" ++ (cStr kv.2 ++ bytes ", ")))) _ = _
    rw [ih, List.flatMap_cons, item]
    simp only [List.append_assoc]

lemma registerLoop_eq (metadata : List UInt8) (pairs : List Pair) :
    Register.metadataLoop metadata (pairs.map fun kv => (some kv.1, .string kv.2)) =
      .ok (metadata ++ pairs.flatMap fun kv => bytes ", " ++ item kv) := by
  induction pairs generalizing metadata with
  | nil => simp [Register.metadataLoop]
  | cons kv pairs ih =>
    show Register.metadataLoop (metadata ++ (bytes ", " ++ (cStr kv.1 ++ (bytes "=" ++ cStr kv.2)))) _ = _
    rw [ih, List.flatMap_cons, item]
    simp only [List.append_assoc]

lemma popTwice_nil : popTwice [] = [] := rfl

lemma popTwice_append (s : List UInt8) (c d : UInt8) : popTwice (s ++ [c, d]) = s := by
  have shape : s ++ [c, d] = s ++ [c] ++ [d] := by simp
  rw [popTwice, if_pos (by simp), shape, List.dropLast_concat, List.dropLast_concat]

/-- Separators behind the pairs are one more than between them. -/
lemma flatMap_item (kv : Pair) (pairs : List Pair) :
    ((kv :: pairs).flatMap fun kv => item kv ++ bytes ", ") = itemsText (kv :: pairs) ++ bytes ", " := by
  induction pairs generalizing kv with
  | nil => simp [itemsText]
  | cons kv' pairs ih =>
    rw [List.flatMap_cons, ih, itemsText, itemsText]
    simp

/-- The parser stores the pairs with separators between them. -/
lemma parsers_metadata (pairs : List Pair) : Parsers.metadata (metadataObject pairs) = .ok (itemsText pairs) := by
  have text : Parsers.metadata (metadataObject pairs) = .ok (popTwice (pairs.flatMap fun kv => item kv ++ bytes ", ")) := by
    show (do return popTwice (← Parsers.metadataLoop [] (metadataObject pairs).nodes)) = _
    rw [nodes_metadataObject, parsersLoop_eq]
    rfl
  rw [text]
  cases pairs with
  | nil => rfl
  | cons kv pairs =>
    have separator : bytes ", " = [44, 32] := by decide
    rw [flatMap_item, separator, popTwice_append]

/-- `Register::process` stores them with one more in front and without the last two bytes. -/
lemma register_metadata (pairs : List Pair) : Register.metadata (metadataObject pairs) =
    .ok (popTwice (pairs.flatMap fun kv => bytes ", " ++ item kv)) := by
  rw [Register.metadata, nodes_metadataObject, registerLoop_eq]
  rfl

/-! ## Decoding -/

lemma splitItems_last {s : List UInt8} (h : ','.toUInt8 ∉ s) : splitItems s = [s] := by
  induction s with
  | nil => rfl
  | cons c t ih =>
    cases t with
    | nil => rfl
    | cons d t =>
      have hc : c ≠ ','.toUInt8 := fun e => h (by simp [e])
      rw [splitItems, if_neg fun e => hc e.1, ih fun mem => h (List.mem_cons_of_mem _ mem)]

lemma splitItems_append {s : List UInt8} (h : ','.toUInt8 ∉ s) (t : List UInt8) :
    splitItems (s ++ (bytes ", " ++ t)) = s :: splitItems t := by
  have separator : bytes ", " = [44, 32] := by decide
  rw [separator]
  induction s with
  | nil =>
    show splitItems (44 :: 32 :: t) = _
    rw [splitItems, if_pos ⟨by decide, rfl⟩]
  | cons c s ih =>
    have hc : c ≠ ','.toUInt8 := fun e => h (by simp [e])
    have rest := ih fun mem => h (List.mem_cons_of_mem _ mem)
    cases s with
    | nil =>
      rw [List.nil_append] at rest
      show splitItems (c :: 44 :: 32 :: t) = _
      rw [splitItems, if_neg fun e => hc e.1]
      show (match splitItems ([44, 32] ++ t) with | [] => [[c]] | item :: items => (c :: item) :: items) = _
      rw [rest]
    | cons d s =>
      show splitItems (c :: d :: (s ++ ([44, 32] ++ t))) = _
      rw [splitItems, if_neg fun e => hc e.1]
      show (match splitItems (d :: s ++ ([44, 32] ++ t)) with | [] => [[c]] | item :: items => (c :: item) :: items) = _
      rw [rest]

lemma splitPair_item {kv : Pair} (h : '='.toUInt8 ∉ cStr kv.1) : splitPair (item kv) = kv.seen := by
  have before : ∀ c ∈ cStr kv.1, (decide (c ≠ '='.toUInt8)) = true := by
    intro c hc
    have : c ≠ '='.toUInt8 := fun e => h (e ▸ hc)
    simpa using this
  have mark : bytes "=" = ['='.toUInt8] := by decide
  rw [splitPair, item, mark, List.takeWhile_append_of_pos before, List.dropWhile_append_of_pos before]
  simp [Pair.seen]

lemma comma_item {kv : Pair} (h : CleanText (cStr kv.1) ∧ CleanText (cStr kv.2)) : ','.toUInt8 ∉ item kv := by
  have mark : ','.toUInt8 ∉ bytes "=" := by decide
  simp only [item, List.mem_append, not_or]
  exact ⟨h.1.comma, mark, h.2.comma⟩

lemma splitItems_itemsText {kv : Pair} (h : CleanPairs (kv :: pairs)) :
    splitItems (itemsText (kv :: pairs)) = (kv :: pairs).map item := by
  induction pairs generalizing kv with
  | nil =>
    rw [itemsText, List.flatMap_nil, List.append_nil, splitItems_last (comma_item (h kv (by simp)))]
    rfl
  | cons kv' pairs ih =>
    have tail : itemsText (kv :: kv' :: pairs) = item kv ++ (bytes ", " ++ itemsText (kv' :: pairs)) := by
      simp [itemsText]
    rw [tail, splitItems_append (comma_item (h kv (by simp))), ih fun kv hkv => h kv (List.mem_cons_of_mem _ hkv)]
    rfl

/-- What the parser stores of clean pairs gives them back. -/
theorem decode_itemsText (h : CleanPairs pairs) : decode (itemsText pairs) = pairs.map Pair.seen := by
  cases pairs with
  | nil => rfl
  | cons kv pairs =>
    have filled : itemsText (kv :: pairs) ≠ [] := by
      rw [itemsText, item]
      simp [bytes]
    rw [decode, if_neg filled, splitItems_itemsText h, List.map_map]
    exact List.map_congr_left fun kv hkv => splitPair_item (h kv hkv).1.eq

/-! ## The encoders disagree -/

/-- A byte that is not in the period of a periodic text is not in the text. -/
lemma not_mem_of_prefix {c : UInt8} {p s : List UInt8} (h : s <+: p ++ s) (hp : p ≠ []) (hc : c ∉ p) : c ∉ s := by
  intro mem
  obtain ⟨a, b, rfl, first⟩ := List.eq_append_cons_of_mem mem
  obtain ⟨r, e⟩ := h
  have both : c ∉ p ++ a := by
    rw [List.mem_append, not_or]
    exact ⟨hc, first⟩
  have cut : a ++ c :: (b ++ r) = p ++ a ++ c :: b := by simpa using e
  exact hp (List.append_left_eq_self.1 (cut_inj first both cut).1.symm)

/-- The two texts for an object of strings: they agree, and if its pairs are clean they are read back. -/
def Agree (pairs : List Pair) : Prop :=
  ∃ text, Register.metadata (metadataObject pairs) = .ok text ∧ Parsers.metadata (metadataObject pairs) = .ok text ∧
    (CleanPairs pairs → decode text = pairs.map Pair.seen)

/-- Without the last two bytes the text with a separator in front is another one, unless both are empty. -/
lemma popTwice_ne (kv : Pair) (pairs : List Pair) :
    popTwice ((kv :: pairs).flatMap fun kv => bytes ", " ++ item kv) ≠ itemsText (kv :: pairs) := by
  intro e
  have front : ((kv :: pairs).flatMap fun kv => bytes ", " ++ item kv) = bytes ", " ++ itemsText (kv :: pairs) := by
    rw [List.flatMap_cons, itemsText, List.append_assoc]
  have part : popTwice (bytes ", " ++ itemsText (kv :: pairs)) <+: bytes ", " ++ itemsText (kv :: pairs) := by
    rw [popTwice]
    split
    · exact (List.dropLast_prefix _).trans (List.dropLast_prefix _)
    · exact List.prefix_refl _
  rw [front] at e
  rw [e] at part
  have mark : '='.toUInt8 ∈ itemsText (kv :: pairs) := by
    have : bytes "=" = ['='.toUInt8] := by decide
    simp [itemsText, item, this]
  exact not_mem_of_prefix part (by decide) (by decide) mark

/-- The encoders agree on the empty object only. -/
theorem agree_iff (pairs : List Pair) : Agree pairs ↔ pairs = [] := by
  constructor
  · rintro ⟨text, stored, parsed, -⟩
    rw [register_metadata] at stored
    rw [parsers_metadata] at parsed
    cases pairs with
    | nil => rfl
    | cons kv pairs => exact absurd ((Except.ok.inj stored).trans (Except.ok.inj parsed).symm) (popTwice_ne kv pairs)
  · rintro rfl
    exact ⟨[], rfl, rfl, fun _ => rfl⟩

/-- For `{"a": "bc"}` the parser has `a=bc`, and what is stored is `, a=`. -/
theorem not_agree : ¬ ∀ pairs, Agree pairs := by
  intro all
  obtain ⟨text, stored, parsed, -⟩ := all [(bytes "a", bytes "bc")]
  have cut : Register.metadata (metadataObject [(bytes "a", bytes "bc")]) = .ok (bytes ", a=") := rfl
  have whole : Parsers.metadata (metadataObject [(bytes "a", bytes "bc")]) = .ok (bytes "a=bc") := rfl
  rw [cut] at stored
  rw [whole] at parsed
  exact absurd ((Except.ok.inj stored).trans (Except.ok.inj parsed).symm) (by decide)

end

end ArrowheadCore.DevRegistry
