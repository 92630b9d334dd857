import Mathlib.Tactic.Common
import Mathlib.Tactic.IntervalCases
import Mathlib.Data.List.TakeWhile
import Mathlib.Data.List.Induction

/-!
# Characters, strings and number conversions of the C library

A C++ `char` is a `UInt8`; `promote` is its integral promotion on a platform where `char` is signed. A
`std::string` is a `List UInt8`, and `cStr` is the part of it that a C function sees through `c_str()`.

The character classes are those of the `"C"` locale: no byte above 127 belongs to any of them. `strtol`
skips blanks, takes a sign and, in base 16, a `0x` mark, reads digits as far as they go and saturates at
the range of a 64-bit `long`; `atoi` is `strtol` in base 10 cut to a 32-bit `int`. The value of a digit
string, unbounded, is `number`.
-/

namespace ArrowheadCore.Lib

/-- The bytes of an ASCII text. -/
def bytes (s : String) : List UInt8 := s.toList.map Char.toUInt8

/-- What is said of the bytes of a text is decided on them, and not on all bytes. -/
instance decidableBytes {P : UInt8 → Prop} [DecidablePred P] (s : List UInt8) : Decidable (∀ c ∈ s, P c) :=
  List.decidableBAll P s

/-- The comparison of strings is lawful, by a name of its own. -/
instance lawfulBytes : LawfulBEq (List UInt8) := inferInstance

/-- Integral promotion of a `char`: bytes above 127 become negative. -/
def promote (c : UInt8) : Int :=
  if c.toNat < 128 then c.toNat else (c.toNat : Int) - 256

/-- The blanks of the `"C"` locale (C `isspace`). -/
def isspace (c : UInt8) : Bool := c.toNat = 32 ∨ 9 ≤ c.toNat ∧ c.toNat ≤ 13

/-- Letters (C `isalpha`). -/
def isalpha (c : UInt8) : Bool :=
  65 ≤ c.toNat ∧ c.toNat ≤ 90 ∨ 97 ≤ c.toNat ∧ c.toNat ≤ 122

/-- Letters and decimal digits (C `isalnum`). -/
def isalnum (c : UInt8) : Bool := isalpha c ∨ 48 ≤ c.toNat ∧ c.toNat ≤ 57

/-- Lower case of a letter, anything else unchanged (C `tolower`). -/
def tolower (c : UInt8) : UInt8 :=
  if 65 ≤ c.toNat ∧ c.toNat ≤ 90 then c + 32 else c

/-- What a C function sees of a string: everything before the first NUL. -/
def cStr (s : List UInt8) : List UInt8 := s.takeWhile (· ≠ 0)

/-- First difference of two C strings with letter case ignored, `0` when there is none. -/
def strcasecmp : List UInt8 → List UInt8 → Int
  | [], [] => 0
  | a :: _, [] => (tolower a).toNat
  | [], b :: _ => -(tolower b).toNat
  | a :: as, b :: bs =>
    if tolower a = tolower b then strcasecmp as bs else (tolower a).toNat - (tolower b).toNat

/-- The value of a digit in the bases up to 36, out of range for every other byte. -/
def digitVal (c : UInt8) : Nat :=
  if 48 ≤ c.toNat ∧ c.toNat ≤ 57 then c.toNat - 48
  else if 97 ≤ c.toNat ∧ c.toNat ≤ 122 then c.toNat - 87
  else if 65 ≤ c.toNat ∧ c.toNat ≤ 90 then c.toNat - 55
  else 255

def isDigitOf (base : Nat) (c : UInt8) : Bool := digitVal c < base

def number (base : Nat) (ds : List UInt8) : Nat := ds.foldl (fun n d => n * base + digitVal d) 0

/-- Skip the `0x` of a hexadecimal number when a digit follows it. -/
def dropHexMark : List UInt8 → List UInt8
  | z :: x :: d :: t =>
    if z = '0'.toUInt8 ∧ (x = 'x'.toUInt8 ∨ x = 'X'.toUInt8) ∧ isDigitOf 16 d then d :: t
    else z :: x :: d :: t
  | s => s

def LONG_MAX : Nat := 2 ^ 63 - 1

/-- Split off an optional sign; `true` is a minus. -/
def takeSign : List UInt8 → Bool × List UInt8
  | [] => (false, [])
  | c :: t =>
    if c = '-'.toUInt8 then (true, t) else if c = '+'.toUInt8 then (false, t) else (false, c :: t)

/-- C `strtol` with no end pointer, base 10 or 16. -/
def strtol (base : Nat) (s : List UInt8) : Int :=
  let (neg, t) := takeSign ((cStr s).dropWhile isspace)
  let n := number base ((if base = 16 then dropHexMark t else t).takeWhile (isDigitOf base))
  if neg then max (-(n : Int)) (-(LONG_MAX + 1)) else min (n : Int) LONG_MAX

/-- C `atoi`: the low 32 bits of the `long`. -/
def atoi (s : List UInt8) : Int := (strtol 10 s).bmod (2 ^ 32)

/-- C++ `std::stoi`; `none` is an exception, as there is no number or none of the type `int`. -/
def stoi (s : List UInt8) : Option Int :=
  let (_, t) := takeSign ((cStr s).dropWhile isspace)
  if t.takeWhile (isDigitOf 10) = [] then none
  else if -2 ^ 31 ≤ strtol 10 s ∧ strtol 10 s < 2 ^ 31 then some (strtol 10 s)
  else none

def decimal (n : Nat) : List UInt8 := (Nat.toDigits 10 n).map Char.toUInt8

/-- Text of an integer (C++ `std::to_string`). -/
def to_string : Int → List UInt8
  | .ofNat n => decimal n
  | .negSucc n => '-'.toUInt8 :: decimal (n + 1)

example : atoi (bytes " -12ab") = -12 ∧ strtol 16 (bytes "0x1G") = 1 := by decide

/-! ## Character classes -/

lemma promote_eq_toNat {c : UInt8} (h : c.toNat < 128) : promote c = c.toNat := by
  simp [promote, h]

/-- Promotion is injective, so characters may be compared before or after it. -/
lemma promote_inj {a b : UInt8} : promote a = promote b ↔ a = b := by
  refine ⟨fun h => UInt8.toNat_inj.1 ?_, fun h => by rw [h]⟩
  have := a.toNat_lt
  have := b.toNat_lt
  unfold promote at h
  split at h <;> split at h <;> omega

lemma isDigitOf_iff {base : Nat} {c : UInt8} : isDigitOf base c ↔ digitVal c < base := by
  simp [isDigitOf]

lemma isDigitOf_ten {c : UInt8} : isDigitOf 10 c ↔ 48 ≤ c.toNat ∧ c.toNat ≤ 57 := by
  rw [isDigitOf_iff]
  unfold digitVal
  grind

lemma digitVal_ten {c : UInt8} (h : isDigitOf 10 c) : digitVal c = c.toNat - 48 :=
  if_pos (isDigitOf_ten.1 h)

lemma isalnum_of_isDigitOf {base : Nat} {c : UInt8} (hb : base ≤ 36) (h : isDigitOf base c) :
    isalnum c := by
  rw [isDigitOf_iff] at h
  simp only [isalnum, isalpha, decide_eq_true_eq]
  unfold digitVal at h
  split at h
  · omega
  · split at h
    · omega
    · split at h <;> omega

/-- Alphanumeric characters are ASCII codes between `0` and `z`. -/
lemma toNat_of_isalnum {c : UInt8} (h : isalnum c) : 48 ≤ c.toNat ∧ c.toNat ≤ 122 := by
  simp only [isalnum, isalpha, decide_eq_true_eq] at h
  omega

lemma isspace_of_isalnum {c : UInt8} (h : isalnum c) : isspace c = false := by
  have := toNat_of_isalnum h
  simp only [isspace, decide_eq_false_iff_not]
  omega

/-- An alphanumeric character differs from every character outside their range. -/
lemma ne_of_isalnum {c d : UInt8} (h : isalnum c) (hd : d.toNat < 48 ∨ 122 < d.toNat) : c ≠ d := by
  rintro rfl
  have := toNat_of_isalnum h
  omega

/-! ## Case-insensitive comparison -/

lemma strcasecmp_eq_zero_iff {as bs : List UInt8} (ha : 0 ∉ as) (hb : 0 ∉ bs) :
    strcasecmp as bs = 0 ↔ as.map tolower = bs.map tolower := by
  have pos : ∀ c : UInt8, c ≠ 0 → (tolower c).toNat ≠ 0 := by
    intro c hc e
    have hc' : c.toNat ≠ 0 := fun h => hc (UInt8.toNat_inj.1 h)
    unfold tolower at e
    split at e
    · simp only [UInt8.toNat_add, UInt8.reduceToNat] at e
      omega
    · exact hc' e
  induction as generalizing bs with
  | nil =>
    cases bs with
    | nil => simp [strcasecmp]
    | cons b bs =>
      have := pos b (fun e => hb (by simp [e]))
      simp only [strcasecmp, List.map_nil, List.map_cons, List.nil_eq, reduceCtorEq, iff_false]
      omega
  | cons a as ih =>
    cases bs with
    | nil =>
      have := pos a (fun e => ha (by simp [e]))
      simp only [strcasecmp, List.map_nil, List.map_cons, reduceCtorEq, iff_false]
      omega
    | cons b bs =>
      have ih' := @ih bs (fun h => ha (by simp [h])) (fun h => hb (by simp [h]))
      by_cases e : tolower a = tolower b
      · simp [strcasecmp, e, ih']
      · have : (tolower a).toNat ≠ (tolower b).toNat := fun h => e (UInt8.toNat_inj.1 h)
        simp only [strcasecmp, e, if_false, List.map_cons, List.cons.injEq, false_and, iff_false]
        omega

lemma cStr_eq {s : List UInt8} (h : 0 ∉ s) : cStr s = s := by
  rw [cStr, List.takeWhile_eq_self_iff]
  intro c hc
  have : c ≠ 0 := fun e => h (e ▸ hc)
  simpa using this

/-! ## Digit strings -/

@[simp] lemma number_nil (base : Nat) : number base [] = 0 := rfl

@[simp] lemma number_append_one (base : Nat) (ds : List UInt8) (d : UInt8) :
    number base (ds ++ [d]) = number base ds * base + digitVal d := by
  simp [number, List.foldl_append]

lemma number_append_le (base : Nat) (xs ys : List UInt8) (hb : 0 < base) :
    number base xs ≤ number base (xs ++ ys) := by
  induction ys using List.reverseRecOn with
  | nil => simp
  | append_singleton ys y ih =>
    rw [← List.append_assoc, number_append_one]
    calc number base xs ≤ number base (xs ++ ys) := ih
      _ ≤ number base (xs ++ ys) * base := Nat.le_mul_of_pos_right _ hb
      _ ≤ _ := Nat.le_add_right _ _

/-- An alphanumeric string has no blank and no sign in front and no NUL: `strtol` reads digits from its
    first character on. -/
lemma strtol_alnum {base : Nat} {s : List UInt8} (h : ∀ c ∈ s, isalnum c) :
    strtol base s =
      min (number base ((if base = 16 then dropHexMark s else s).takeWhile (isDigitOf base)) : Int)
        LONG_MAX := by
  have hc : cStr s = s := cStr_eq (fun h0 => by simpa using toNat_of_isalnum (h 0 h0))
  cases s with
  | nil => simp [strtol, hc, takeSign]
  | cons c t =>
    have hs := isspace_of_isalnum (h c (by simp))
    have h1 := ne_of_isalnum (h c (by simp)) (d := '-'.toUInt8) (by decide)
    have h2 := ne_of_isalnum (h c (by simp)) (d := '+'.toUInt8) (by decide)
    simp [strtol, hc, takeSign, hs, h1, h2]

lemma dropHexMark_digits {ds : List UInt8} (h : ∀ d ∈ ds, isDigitOf 16 d) : dropHexMark ds = ds := by
  match ds, h with
  | [], _ | [_], _ | [_, _], _ => rfl
  | z :: x :: d :: t, h =>
    have hx := h x (by simp)
    have h1 : x ≠ 'x'.toUInt8 := by rintro rfl; revert hx; decide
    have h2 : x ≠ 'X'.toUInt8 := by rintro rfl; revert hx; decide
    simp [dropHexMark, h1, h2]

/-- `strtol` reads a digit string of its base whole and saturates. -/
lemma strtol_digits {base : Nat} {ds : List UInt8} (hb : base = 10 ∨ base = 16)
    (h : ∀ d ∈ ds, isDigitOf base d) : strtol base ds = min (number base ds : Int) LONG_MAX := by
  have hm : (if base = 16 then dropHexMark ds else ds) = ds := by
    split
    · subst base; exact dropHexMark_digits h
    · rfl
  rw [strtol_alnum fun d hd => isalnum_of_isDigitOf (by omega) (h d hd), hm,
    List.takeWhile_eq_self_iff.2 h]

lemma atoi_range (s : List UInt8) : -2 ^ 31 ≤ atoi s ∧ atoi s < 2 ^ 31 := by
  have h1 := Int.le_bmod (x := strtol 10 s) (m := 2 ^ 32) (by decide)
  have h2 := Int.bmod_lt (x := strtol 10 s) (m := 2 ^ 32) (by decide)
  unfold atoi
  omega

/-- `atoi` is exact on decimal digit strings whose value is an `int`. -/
lemma atoi_digits {ds : List UInt8} (h : ∀ d ∈ ds, isDigitOf 10 d) (hn : number 10 ds < 2 ^ 31) :
    atoi ds = number 10 ds := by
  rw [atoi, strtol_digits (.inl rfl) h]
  have : (number 10 ds : Int) ≤ LONG_MAX := by unfold LONG_MAX; omega
  rw [min_eq_left this]
  exact Int.bmod_eq_of_le (by omega) (by omega)

/-! ## Decimal texts -/

lemma digitVal_digitChar {d : Nat} (h : d < 10) : digitVal d.digitChar.toUInt8 = d := by
  interval_cases d <;> decide

lemma decimal_digits (n : Nat) : ∀ d ∈ decimal n, isDigitOf 10 d := by
  induction n using Nat.strong_induction_on with
  | _ n ih =>
    rw [decimal, Nat.toDigits_eq_if (by decide)]
    split
    · simp [isDigitOf_iff, digitVal_digitChar, *]
    · intro d hd
      simp only [List.map_append, List.mem_append, List.map_cons, List.map_nil,
        List.mem_singleton] at hd
      rcases hd with hd | rfl
      · exact ih (n / 10) (by omega) d hd
      · rw [isDigitOf_iff, digitVal_digitChar (by omega)]
        omega

lemma number_decimal (n : Nat) : number 10 (decimal n) = n := by
  induction n using Nat.strong_induction_on with
  | _ n ih =>
    rw [decimal, Nat.toDigits_eq_if (by decide)]
    split
    · simp [number, digitVal_digitChar, *]
    · rw [List.map_append, List.map_singleton, number_append_one, digitVal_digitChar (by omega)]
      have := ih (n / 10) (by omega)
      rw [decimal] at this
      omega

lemma decimal_inj {m n : Nat} (h : decimal m = decimal n) : m = n := by
  have := congrArg (number 10) h
  rwa [number_decimal, number_decimal] at this

lemma decimal_ne_nil (n : Nat) : decimal n ≠ [] := by
  rw [decimal, Nat.toDigits_eq_if (by decide)]
  split <;> simp

/-- Only the text of zero begins with a zero. -/
lemma decimal_head {n : Nat} (h : n ≠ 0) : ∃ d ds, decimal n = d :: ds ∧ isDigitOf 10 d ∧ d ≠ '0'.toUInt8 := by
  induction n using Nat.strong_induction_on with
  | _ n ih =>
    rw [decimal, Nat.toDigits_eq_if (by decide)]
    split
    · next hn =>
      refine ⟨_, [], rfl, ?_, ?_⟩
      · rw [isDigitOf_iff, digitVal_digitChar hn]
        exact hn
      · intro e
        have := digitVal_digitChar hn
        rw [e] at this
        exact h this.symm
    · obtain ⟨d, ds, e, h1, h2⟩ := ih (n / 10) (by omega) (by omega)
      rw [decimal] at e
      rw [List.map_append, e]
      exact ⟨d, _, rfl, h1, h2⟩

lemma number_lt_pow {base : Nat} {ds : List UInt8} (h : ∀ d ∈ ds, isDigitOf base d) :
    number base ds < base ^ ds.length := by
  induction ds using List.reverseRecOn with
  | nil => simp
  | append_singleton ds d ih =>
    have hd := isDigitOf_iff.1 (h d (by simp))
    have less : number base ds + 1 ≤ base ^ ds.length := ih fun d hd => h d (by simp [hd])
    rw [number_append_one, List.length_append, List.length_singleton, Nat.pow_succ]
    calc number base ds * base + digitVal d < number base ds * base + base := by omega
      _ = (number base ds + 1) * base := (Nat.succ_mul _ _).symm
      _ ≤ base ^ ds.length * base := Nat.mul_le_mul_right _ less

/-- The text behind a number does not continue it. -/
def EndsNumber (rest : List UInt8) : Prop := ∀ c ∈ rest.head?, isDigitOf 10 c = false

lemma takeWhile_digits {ds rest : List UInt8} (hd : ∀ d ∈ ds, isDigitOf 10 d) (hr : EndsNumber rest) :
    (ds ++ rest).takeWhile (isDigitOf 10) = ds := by
  rw [List.takeWhile_append_of_pos hd]
  cases rest with
  | nil => simp
  | cons c cs =>
    have := hr c rfl
    simp [this]

/-- A text is cut in one way at the first place where a character stands. -/
lemma cut_inj {c : UInt8} {s s' t t' : List UInt8} (hs : c ∉ s) (hs' : c ∉ s') (h : s ++ c :: t = s' ++ c :: t') :
    s = s' ∧ t = t' := by
  induction s generalizing s' with
  | nil =>
    cases s' with
    | nil => exact ⟨rfl, (List.cons.inj h).2⟩
    | cons d s' => exact absurd ((List.cons.inj h).1 ▸ List.mem_cons_self) hs'
  | cons d s ih =>
    cases s' with
    | nil => exact absurd ((List.cons.inj h).1 ▸ List.mem_cons_self) hs
    | cons d' s' =>
      obtain ⟨rfl, rest⟩ := List.cons.inj h
      obtain ⟨rfl, e⟩ := ih (mt (List.mem_cons_of_mem _) hs) (mt (List.mem_cons_of_mem _) hs') rest
      exact ⟨rfl, e⟩

lemma zero_cStr (s : List UInt8) : 0 ∉ cStr s := by
  intro h
  have := List.mem_takeWhile_imp h
  simp at this

lemma cStr_append {s : List UInt8} (h : 0 ∉ s) (rest : List UInt8) : cStr (s ++ rest) = s ++ cStr rest := by
  have all : ∀ c ∈ s, (decide (c ≠ 0)) = true := by
    intro c hc
    have : c ≠ 0 := fun e => h (e ▸ hc)
    simpa using this
  exact List.takeWhile_append_of_pos all

lemma EndsNumber.cStr {rest : List UInt8} (h : EndsNumber rest) : EndsNumber (cStr rest) := by
  cases rest with
  | nil => exact h
  | cons c cs =>
    by_cases hc : c = 0
    · subst hc
      intro d hd
      simp [Lib.cStr] at hd
    · intro d hd
      have e : Lib.cStr (c :: cs) = c :: Lib.cStr cs := by simp [Lib.cStr, hc]
      rw [e] at hd
      exact h d hd

lemma decimal_ne_zero (n : Nat) : 0 ∉ decimal n := fun h => by simpa using isDigitOf_ten.1 (decimal_digits n 0 h)

lemma zero_to_string (z : Int) : 0 ∉ to_string z := by
  cases z with
  | ofNat n => exact decimal_ne_zero n
  | negSucc n =>
    rw [to_string, List.mem_cons, not_or]
    exact ⟨by decide, decimal_ne_zero _⟩

/-- `strtol` reads the integer at the front of a text. -/
lemma strtol_to_string {z : Int} {rest : List UInt8} (hz : z.natAbs ≤ LONG_MAX) (hr : EndsNumber rest) :
    strtol 10 (to_string z ++ rest) = z := by
  have hd := decimal_digits
  cases z with
  | ofNat n =>
    obtain ⟨d, ds, e⟩ : ∃ d ds, decimal n = d :: ds := List.exists_cons_of_ne_nil (decimal_ne_nil n)
    have hd0 := hd n d (by simp [e])
    have hs := isspace_of_isalnum (isalnum_of_isDigitOf (by decide) hd0)
    have h1 := ne_of_isalnum (isalnum_of_isDigitOf (by decide) hd0) (d := '-'.toUInt8) (by decide)
    have h2 := ne_of_isalnum (isalnum_of_isDigitOf (by decide) hd0) (d := '+'.toUInt8) (by decide)
    have digits := takeWhile_digits (hd n) hr.cStr
    have value := number_decimal n
    rw [e] at digits value
    rw [to_string, strtol, cStr_append (decimal_ne_zero n), e, List.cons_append, List.dropWhile_cons_of_neg (by simp [hs])]
    simp only [takeSign, h1, h2, if_false, Nat.reduceEqDiff]
    rw [← List.cons_append, digits, value]
    simp only [Bool.false_eq_true, if_false]
    have : (n : Int) ≤ LONG_MAX := by exact_mod_cast hz
    exact min_eq_left this
  | negSucc n =>
    have digits := takeWhile_digits (hd (n + 1)) hr.cStr
    have minus : 0 ∉ '-'.toUInt8 :: decimal (n + 1) := by
      rw [List.mem_cons, not_or]
      exact ⟨by decide, decimal_ne_zero _⟩
    rw [to_string, strtol, cStr_append minus, List.cons_append, List.dropWhile_cons_of_neg (by decide)]
    simp only [takeSign, if_true, Nat.reduceEqDiff, if_false]
    rw [digits, number_decimal]
    have : ((n + 1 : Nat) : Int) ≤ LONG_MAX := by exact_mod_cast hz
    simp only [Int.negSucc_eq]
    omega

/-- The sign and the digits of a number. -/
lemma takeSign_decimal (n : Nat) : takeSign ((cStr (decimal n)).dropWhile isspace) = (false, decimal n) := by
  obtain ⟨d, ds, e⟩ : ∃ d ds, decimal n = d :: ds := List.exists_cons_of_ne_nil (decimal_ne_nil n)
  have alnum : isalnum d := isalnum_of_isDigitOf (by decide) (decimal_digits n d (by simp [e]))
  have h1 := ne_of_isalnum alnum (d := '-'.toUInt8) (by decide)
  have h2 := ne_of_isalnum alnum (d := '+'.toUInt8) (by decide)
  rw [cStr_eq (decimal_ne_zero n), e, List.dropWhile_cons_of_neg (by simp [isspace_of_isalnum alnum])]
  simp only [takeSign, h1, h2, if_false]

/-- `std::stoi` reads the numbers of the type `int`. -/
lemma stoi_to_string (n : Nat) : stoi (to_string n) = if n < 2 ^ 31 then some (n : Int) else none := by
  have digits : (decimal n).takeWhile (isDigitOf 10) = decimal n :=
    List.takeWhile_eq_self_iff.2 fun d hd => decimal_digits n d hd
  have value : strtol 10 (to_string n) = min (n : Int) LONG_MAX := by
    simp only [strtol, to_string, takeSign_decimal, Nat.reduceEqDiff, if_false, digits, number_decimal]
    rfl
  have text : takeSign ((cStr (to_string n)).dropWhile isspace) = (false, decimal n) := takeSign_decimal n
  simp only [stoi, text, digits, decimal_ne_nil, if_false, value]
  have bound : (2 : Int) ^ 31 ≤ LONG_MAX := by decide
  by_cases h : n < 2 ^ 31
  · rw [if_pos h, min_eq_left (by omega), if_pos (by omega)]
  · rw [if_neg h, if_neg (by omega)]

lemma to_string_ne_nil (z : Int) : to_string z ≠ [] := by
  cases z with
  | ofNat n => exact decimal_ne_nil n
  | negSucc n => simp [to_string]

end ArrowheadCore.Lib
