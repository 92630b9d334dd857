import ArrowheadCore.Lib.CString

/-!
# Unsigned numbers

`strtoul` skips blanks and takes a sign, as `strtol` does; a negative number is taken modulo `2 ^ 64`, and a number
that is too large becomes the largest one. `stoul` is `strtoul` with an exception when there is no number or one that is
too large. What is behind the digits does not matter to it.
-/

namespace ArrowheadCore.Lib

/-- The largest value of the type `unsigned long`. -/
def ULONG_MAX : Nat := 2 ^ 64 - 1

/-- The sign, the digits and what is behind them. -/
def scan (s : List UInt8) : Bool × List UInt8 × List UInt8 :=
  let (neg, t) := takeSign (s.dropWhile isspace)
  (neg, t.takeWhile (isDigitOf 10), t.dropWhile (isDigitOf 10))

def unsignedValue (neg : Bool) (n : Nat) : Nat := if neg then (2 ^ 64 - n) % 2 ^ 64 else n

/-- C `strtoul` in base 10: the value, and what is at the end pointer. -/
def strtoul (s : List UInt8) : Nat × List UInt8 :=
  let (neg, ds, rest) := scan (cStr s)
  if ds = [] then (0, cStr s)
  else if ULONG_MAX < number 10 ds then (ULONG_MAX, rest)
  else (unsignedValue neg (number 10 ds), rest)

/-- C++ `std::stoul`; `none` is an exception. -/
def stoul (s : List UInt8) : Option Nat :=
  let (neg, ds, _) := scan (cStr s)
  if ds = [] ∨ ULONG_MAX < number 10 ds then none else some (unsignedValue neg (number 10 ds))

example : stoul (bytes " -1") = some ULONG_MAX ∧ stoul (bytes "12ab") = some 12 ∧
    strtoul (bytes "x") = (0, bytes "x") := by decide

/-! ## Decimal numbers -/

/-- A non-empty string of decimal digits. -/
def IsDecimal (s : List UInt8) : Prop := s ≠ [] ∧ ∀ c ∈ s, isDigitOf 10 c

instance (s : List UInt8) : Decidable (IsDecimal s) :=
  have := List.decidableBAll (fun c => isDigitOf 10 c = true) s
  inferInstanceAs (Decidable (_ ∧ _))

section
variable {s : List UInt8}

lemma IsDecimal.not_mem {c : UInt8} (h : IsDecimal s) (hc : isDigitOf 10 c = false) : c ∉ s := fun mem => by
  rw [h.2 c mem] at hc
  cases hc

lemma IsDecimal.cStr (h : IsDecimal s) : cStr s = s := cStr_eq (h.not_mem (by decide))

lemma IsDecimal.takeSign (h : IsDecimal s) : takeSign (s.dropWhile isspace) = (false, s) := by
  obtain ⟨d, ds, rfl⟩ := List.exists_cons_of_ne_nil h.1
  have alnum : isalnum d := isalnum_of_isDigitOf (by decide) (h.2 d List.mem_cons_self)
  have minus := ne_of_isalnum alnum (d := '-'.toUInt8) (by decide)
  have plus := ne_of_isalnum alnum (d := '+'.toUInt8) (by decide)
  rw [List.dropWhile_cons_of_neg (by simp [isspace_of_isalnum alnum])]
  simp only [Lib.takeSign, minus, plus, if_false]

lemma IsDecimal.takeWhile (h : IsDecimal s) : s.takeWhile (isDigitOf 10) = s := List.takeWhile_eq_self_iff.2 h.2

lemma IsDecimal.scan (h : IsDecimal s) : scan s = (false, s, []) := by
  rw [Lib.scan, h.takeSign]
  simp only [h.takeWhile, List.dropWhile_eq_nil_iff.2 h.2]

lemma strtoul_decimal (h : IsDecimal s) (fits : number 10 s ≤ ULONG_MAX) : strtoul s = (number 10 s, []) := by
  rw [strtoul, h.cStr, h.scan]
  simp only [h.1, if_false, Nat.not_lt.2 fits, unsignedValue, Bool.false_eq_true]

lemma stoul_decimal (h : IsDecimal s) (fits : number 10 s ≤ ULONG_MAX) : stoul s = some (number 10 s) := by
  rw [stoul, h.cStr, h.scan]
  simp only [h.1, Nat.not_lt.2 fits, or_self, if_false, unsignedValue, Bool.false_eq_true]

lemma fits_of_stoul (h : IsDecimal s) {n : Nat} (e : stoul s = some n) : number 10 s ≤ ULONG_MAX := by
  rw [stoul, h.cStr, h.scan] at e
  by_contra large
  simp only [Nat.not_le.1 large, or_true, if_true, reduceCtorEq] at e

/-- `std::stoi` reads the decimal numbers of the type `int`. -/
lemma stoi_decimal (h : IsDecimal s) : stoi s = if number 10 s < 2 ^ 31 then some (number 10 s : Int) else none := by
  have value : strtol 10 s = min (number 10 s : Int) LONG_MAX := strtol_digits (.inl rfl) h.2
  have bound : (2 : Int) ^ 31 ≤ LONG_MAX := by decide
  rw [stoi, h.cStr, h.takeSign]
  simp only [h.takeWhile, h.1, if_false, value]
  by_cases small : number 10 s < 2 ^ 31
  · rw [if_pos small, min_eq_left (by omega), if_pos (by omega)]
  · rw [if_neg small, if_neg (by omega)]

end

end ArrowheadCore.Lib
