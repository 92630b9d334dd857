import Mathlib.Data.List.DropRight
import ArrowheadCore.Lib.CString

/-!
# Integers as doubles

The text that `std::ostream` gives a `double` whose value is an integer. It has six digits at most, and a longer number
gets an exponent; the digits are those of the nearest number that has so many, of two the even one.
-/

namespace ArrowheadCore.Lib

/-- C++ `std::stod` of the text of an integer that a `double` can hold; `none` is an exception: there is no number. -/
def stod (s : List UInt8) : Option Int :=
  let (_, t) := takeSign ((cStr s).dropWhile isspace)
  if t.takeWhile (isDigitOf 10) = [] then none else some (strtol 10 s)

/-- How often `d` goes into `n`, rounded to the nearest, half to even. -/
def roundHalfEven (n d : Nat) : Nat :=
  if 2 * (n % d) < d ∨ 2 * (n % d) = d ∧ n / d % 2 = 0 then n / d else n / d + 1

/-- The six digits of a number that has more, and its exponent. -/
def significand (n : Nat) : Nat × Nat :=
  let exponent := (decimal n).length - 1
  let m := roundHalfEven n (10 ^ (exponent - 5))
  if m = 10 ^ 6 then (10 ^ 5, exponent + 1) else (m, exponent)

/-- The digits behind the point, without zeros at the end. -/
def fraction (m : Nat) : List UInt8 := ((decimal m).drop 1).rdropWhile (· == '0'.toUInt8)

/-- C++ `std::ostream << double` -/
def general (z : Int) : List UInt8 :=
  if z.natAbs < 10 ^ 6 then to_string z
  else
    let (m, exponent) := significand z.natAbs
    (if z < 0 then bytes "-" else []) ++ ((decimal m).take 1 ++
      ((if fraction m = [] then [] else bytes "." ++ fraction m) ++
        (bytes "e+" ++ ((if exponent < 10 then bytes "0" else []) ++ decimal exponent))))

example : general (-12) = bytes "-12" ∧ general 1234565 = bytes "1.23456e+06" ∧
    general (-9999995) = bytes "-1e+07" ∧ general 2147483647 = bytes "2.14748e+09" := by decide

/-! ## Integers that are read -/

lemma takeSign_to_string (z : Int) :
    takeSign ((cStr (to_string z)).dropWhile isspace) = (decide (z < 0), decimal z.natAbs) := by
  cases z with
  | ofNat n => exact takeSign_decimal n
  | negSucc n =>
    have minus : 0 ∉ '-'.toUInt8 :: decimal (n + 1) := by
      rw [List.mem_cons, not_or]
      exact ⟨by decide, decimal_ne_zero _⟩
    rw [to_string, cStr_eq minus, List.dropWhile_cons_of_neg (by decide)]
    simp [takeSign, Int.negSucc_lt_zero]

lemma takeWhile_decimal (n : Nat) : (decimal n).takeWhile (isDigitOf 10) = decimal n :=
  List.takeWhile_eq_self_iff.2 fun d hd => decimal_digits n d hd

lemma strtol_clamps (z : Int) : strtol 10 (to_string z) = max (min z LONG_MAX) (-(LONG_MAX + 1)) := by
  simp only [strtol, takeSign_to_string, Nat.reduceEqDiff, if_false, takeWhile_decimal, number_decimal,
    decide_eq_true_eq]
  have bound : (0 : Int) ≤ LONG_MAX := by decide
  split <;> omega

/-- `std::stoi` reads the numbers of the type `int`. -/
lemma stoi_int (z : Int) : stoi (to_string z) = if -2 ^ 31 ≤ z ∧ z < 2 ^ 31 then some z else none := by
  have bound : (2 : Int) ^ 31 ≤ LONG_MAX := by decide
  simp only [stoi, takeSign_to_string, takeWhile_decimal, decimal_ne_nil, if_false, strtol_clamps]
  by_cases h : -2 ^ 31 ≤ z ∧ z < 2 ^ 31
  · rw [if_pos h, max_eq_left (by omega), min_eq_left (by omega), if_pos h]
  · rw [if_neg h, if_neg (by omega)]

lemma stod_int {z : Int} (hz : -2 ^ 31 ≤ z ∧ z < 2 ^ 31) : stod (to_string z) = some z := by
  have bound : (2 : Int) ^ 31 ≤ LONG_MAX := by decide
  simp only [stod, takeSign_to_string, takeWhile_decimal, decimal_ne_nil, if_false, strtol_clamps]
  rw [max_eq_left (by omega), min_eq_left (by omega)]

end ArrowheadCore.Lib
