import ArrowheadCore.Json.InPlace
import ArrowheadCore.Json.Written

/-!
# Integers in a text

A context is a text around a value, and the tree around its node. An integer is read as the same node in every
context, which is an integer only if the literal is short: the sign counts, and the limit is that of `int`.
-/

namespace ArrowheadCore.Json
open Lib JsonView Grammar

namespace JsonView.JsonNode

def is_int : JsonNode → Bool
  | .int _ => true
  | _ => false

/-- `none` is the exception of `std::get`. -/
def as_int : JsonNode → Option Int
  | .int z => some z
  | _ => none

end JsonView.JsonNode

/-! ## Contexts -/

section
variable (V : List UInt8 → JsonNode → List UInt8 → Prop)

/-- The items in front of one, each with its comma. -/
inductive ItemsBefore : List UInt8 → List JsonNode → Prop
  | nil {w : List UInt8} : Blanks w → ItemsBefore w []
  | cons {w s w' t : List UInt8} {v : JsonNode} {vs : List JsonNode} : Blanks w → V s v [] → Blanks w' →
    ItemsBefore t vs → ItemsBefore (w ++ (s ++ (w' ++ ','.toUInt8 :: t))) (v :: vs)

/-- The items behind one, and the bracket. -/
inductive ItemsBehind : List UInt8 → List JsonNode → Prop
  | nil {w : List UInt8} : Blanks w → ItemsBehind (w ++ [']'.toUInt8]) []
  | cons {w t : List UInt8} {vs : List JsonNode} : Blanks w → Items jsonView V t vs [] →
    ItemsBehind (w ++ ','.toUInt8 :: t) vs

/-- The members in front of one, each with its comma. -/
inductive MembersBefore : List UInt8 → List (List UInt8 × JsonNode) → Prop
  | nil : MembersBefore [] []
  | cons {s w t : List UInt8} {m : List UInt8 × JsonNode} {ms : List (List UInt8 × JsonNode)} :
    Member jsonView V s m [] → Blanks w → MembersBefore t ms → MembersBefore (s ++ (w ++ ','.toUInt8 :: t)) (m :: ms)

/-- The members behind one, and the bracket. -/
inductive MembersBehind : List UInt8 → List (List UInt8 × JsonNode) → Prop
  | nil {w : List UInt8} : Blanks w → MembersBehind (w ++ ['}'.toUInt8]) []
  | cons {w t : List UInt8} {ms : List (List UInt8 × JsonNode)} : Blanks w → Members jsonView V t ms [] →
    MembersBehind (w ++ ','.toUInt8 :: t) ms

end

/-- What stands around a value with `n` levels at most: the text in front of it and behind it, and the tree. -/
inductive Context : Nat → List UInt8 → List UInt8 → (JsonNode → JsonNode) → Prop
  | document {w w' : List UInt8} : Blanks w → Blanks w' → Context (max_depth + 1) w w' id
  | item {n : Nat} {pre post before behind : List UInt8} {tree : JsonNode → JsonNode} {vs ws : List JsonNode} :
    Context (n + 1) pre post tree → ItemsBefore (Value jsonView n) before vs → ItemsBehind (Value jsonView n) behind ws →
    Context n (pre ++ '['.toUInt8 :: before) (behind ++ post) fun v => tree (.array (vs ++ v :: ws))
  | member {n : Nat} {pre post before w k w' w'' behind : List UInt8} {tree : JsonNode → JsonNode}
    {ms ns : List (List UInt8 × JsonNode)} :
    Context (n + 1) pre post tree → MembersBefore (Value jsonView n) before ms →
    Blanks w → IsName k → Blanks w' → Blanks w'' → MembersBehind (Value jsonView n) behind ns →
    Context n
      (pre ++ '{'.toUInt8 :: (before ++ (w ++ '"'.toUInt8 :: (k ++ '"'.toUInt8 :: (w' ++ ':'.toUInt8 :: w'')))))
      (behind ++ post) fun v => tree (.object (ms ++ (k, v) :: ns))

/-! ## What fills a context -/

section
variable {V : List UInt8 → JsonNode → List UInt8 → Prop} {s t rest w : List UInt8} {v : JsonNode}

lemma skips_blanks (hw : Blanks w) (s : List UInt8) : Skips jsonView (w ++ s) s := ⟨w, rfl, hw⟩

lemma Grammar.Skips.blanks (h : Skips jsonView s t) (hw : Blanks w) : Skips jsonView (w ++ s) t := by
  obtain ⟨w', rfl, hw'⟩ := h
  refine ⟨w ++ w', (List.append_assoc _ _ _).symm, fun c hc => ?_⟩
  obtain hc | hc := List.mem_append.1 hc
  · exact hw c hc
  · exact hw' c hc

lemma Grammar.Items.blanks {vs : List JsonNode} (h : Items jsonView V s vs rest) (hw : Blanks w) :
    Items jsonView V (w ++ s) vs rest := by
  cases h with
  | last h1 hv h2 => exact .last (h1.blanks hw) hv h2
  | more h1 hv h2 h3 => exact .more (h1.blanks hw) hv h2 h3

variable (hV : ∀ {s v rest} (t : List UInt8), V s v rest → V (s ++ t) v (rest ++ t))
include hV

lemma ItemsBefore.items {before : List UInt8} {vs ws : List JsonNode} (h : ItemsBefore V before vs)
    (ht : Items jsonView V t ws rest) : Items jsonView V (before ++ t) (vs ++ ws) rest := by
  induction h with
  | nil hw => exact ht.blanks hw
  | @cons w s w' t' v vs hw hv hw' _ ih =>
    have value := hV (w' ++ ','.toUInt8 :: (t' ++ t)) hv
    have more := Items.more (skips_blanks hw _) value (skips_blanks hw' _) ih
    simpa using more

lemma ItemsBehind.items {behind : List UInt8} {ws : List JsonNode} (h : ItemsBehind V behind ws)
    (hv : ∀ rest, V (s ++ rest) v rest) (rest : List UInt8) :
    Items jsonView V (s ++ (behind ++ rest)) (v :: ws) rest := by
  cases h with
  | @nil w hw =>
    rw [List.append_assoc]
    exact .last (Skips.refl _) (hv _) (skips_blanks hw _)
  | @cons w t _ hw items =>
    rw [List.append_assoc]
    exact .more (Skips.refl _) (hv _) (skips_blanks hw _) (items.append rest (hV rest))

lemma MembersBefore.members {before : List UInt8} {ms ns : List (List UInt8 × JsonNode)} (h : MembersBefore V before ms)
    (ht : Members jsonView V t ns rest) : Members jsonView V (before ++ t) (ms ++ ns) rest := by
  induction h with
  | nil => exact ht
  | @cons s w t' m ms hm hw _ ih =>
    have member := hm.append (w ++ ','.toUInt8 :: (t' ++ t)) (hV _)
    have more := Members.more member (skips_blanks hw _) ih
    simpa using more

lemma MembersBehind.members {behind : List UInt8} {m : List UInt8 × JsonNode} {ns : List (List UInt8 × JsonNode)}
    (h : MembersBehind V behind ns) (hm : ∀ rest, Member jsonView V (s ++ rest) m rest) (rest : List UInt8) :
    Members jsonView V (s ++ (behind ++ rest)) (m :: ns) rest := by
  cases h with
  | @nil w hw =>
    rw [List.append_assoc]
    exact .last (hm _) (skips_blanks hw _)
  | @cons w t _ hw members =>
    rw [List.append_assoc]
    exact .more (hm _) (skips_blanks hw _) (members.append rest (hV rest))

end

/-- A context with a value in it is a document. -/
lemma Context.fill {n : Nat} {pre post s : List UInt8} {tree : JsonNode → JsonNode} {v : JsonNode}
    (h : Context n pre post tree) (hv : ∀ rest, Value jsonView n (s ++ rest) v rest) :
    Document jsonView (max_depth + 1) (pre ++ (s ++ post)) (tree v) := by
  induction h generalizing s v with
  | @document w w' hw hw' => exact ⟨_, w', skips_blanks hw _, hv w', ⟨w', by simp, hw'⟩⟩
  | @item n pre post before behind tree vs ws _ front back ih =>
    have array : ∀ rest, Value jsonView (n + 1) ('['.toUInt8 :: (before ++ (s ++ behind)) ++ rest)
        (.array (vs ++ v :: ws)) rest := by
      intro rest
      have items := front.items (fun t => Value.append t) (back.items (fun t => Value.append t) hv rest)
      have text : '['.toUInt8 :: (before ++ (s ++ behind)) ++ rest = '['.toUInt8 :: (before ++ (s ++ (behind ++ rest))) := by
        simp
      rw [text]
      exact .array items
    have := ih array
    simpa using this
  | @member n pre post before w k w' w'' behind tree ms ns _ front hw hk hw' hw'' back ih =>
    have member : ∀ rest, Member jsonView (Value jsonView n)
        (w ++ '"'.toUInt8 :: (k ++ '"'.toUInt8 :: (w' ++ ':'.toUInt8 :: (w'' ++ s))) ++ rest) (k, v) rest := by
      intro rest
      have mk := Member.mk (skips_blanks hw _) hk (skips_blanks hw' _) (skips_blanks hw'' _) (hv rest)
      simpa using mk
    have object : ∀ rest, Value jsonView (n + 1)
        ('{'.toUInt8 :: (before ++ (w ++ '"'.toUInt8 :: (k ++ '"'.toUInt8 :: (w' ++ ':'.toUInt8 :: (w'' ++ s))) ++ behind)) ++
          rest) (.object (ms ++ (k, v) :: ns)) rest := by
      intro rest
      have members := front.members (fun t => Value.append t) (back.members (fun t => Value.append t) member rest)
      have : Value jsonView (n + 1) _ _ _ := Layer.object members
      simpa using this
    have := ih object
    simpa using this

/-! ## Integers -/

/-- Both parsers make an integer of the decimal literal, in every context, and the integer is `z`. -/
def ReadAsInt (z : Int) : Prop :=
  ∀ n pre post tree, Context (n + 1) pre post tree → 0 ∉ pre ++ post → ∀ strategy,
    ∃ node, node.is_int ∧ node.as_int = some z ∧
      parse_throw_on_error (pre ++ (to_string z ++ post)) strategy = some (.ok (tree node)) ∧
      ∃ c buffer, JsonCView.parse_throw_on_error true strategy (pre ++ (to_string z ++ post)) = some (.ok (c, buffer)) ∧
        c.read true buffer = tree node

lemma length_to_string_le (z : Int) : (to_string z).length ≤ digits10 ↔ -99999999 ≤ z ∧ z ≤ 999999999 := by
  have size : ∀ n k, 0 < k → ((decimal n).length ≤ k ↔ n < 10 ^ k) := by
    intro n k hk
    constructor
    · intro h
      have less := number_lt_pow (decimal_digits n)
      rw [number_decimal] at less
      exact less.trans_le (Nat.pow_le_pow_right (by decide) h)
    · intro h
      rw [decimal, List.length_map]
      exact Nat.toDigits_length 10 n k hk h
  cases z with
  | ofNat n =>
    have := size n 9 (by decide)
    rw [to_string, digits10, this]
    simp only [Int.ofNat_eq_natCast]
    omega
  | negSucc n =>
    have := size (n + 1) 8 (by decide)
    have split : (to_string (Int.negSucc n)).length = (decimal (n + 1)).length + 1 := by rw [to_string, List.length_cons]
    rw [split, digits10, Nat.succ_le_succ_iff, this]
    omega

/-- In every context an integer is the node of its literal. -/
lemma parse_integer_context (z : Int) {n : Nat} {pre post : List UInt8} {tree : JsonNode → JsonNode}
    (h : Context (n + 1) pre post tree) (strategy : ParseMethod) :
    parse_throw_on_error (pre ++ (to_string z ++ post)) strategy = some (.ok (tree (numberNode z))) := by
  have value : ∀ rest, Value jsonView (n + 1) (to_string z ++ rest) (numberNode z) rest :=
    fun rest => .number rest (isNumber_to_string z)
  exact parse_of_document (h.fill value) strategy

lemma readAsInt_iff (z : Int) : ReadAsInt z ↔ -99999999 ≤ z ∧ z ≤ 999999999 := by
  rw [← length_to_string_le]
  constructor
  · intro h
    have alone : Context (max_depth + 1) [] [] id := .document (by simp [Blanks]) (by simp [Blanks])
    obtain ⟨node, int, -, parsed, -⟩ := h max_depth [] [] id alone (by simp) .STANDARD
    rw [parse_integer_context z alone .STANDARD] at parsed
    obtain rfl : numberNode z = node := by simpa using parsed
    by_contra long
    rw [numberNode, if_neg long] at int
    cases int
  · intro short n pre post tree context zero strategy
    have node : numberNode z = .int z := if_pos short
    have parsed := parse_integer_context z context strategy
    rw [node] at parsed
    have zero : 0 ∉ pre ++ (to_string z ++ post) := by
      simp only [List.mem_append, not_or] at zero ⊢
      exact ⟨zero.1, zero_to_string z, zero.2⟩
    exact ⟨.int z, rfl, rfl, parsed, JsonCView.parse_throw_on_error_ok true zero parsed⟩

end ArrowheadCore.Json
