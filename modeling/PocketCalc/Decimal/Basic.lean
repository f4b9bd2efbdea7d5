import PocketCalc.Text.Blank

/-!
# Decimal numbers and their two layouts

A decimal is a whole coefficient times a power of ten. It is written positionally (`0.00125`,
`1200`) or with one digit before the point and an exponent (`1.25e-3`).

* `ofDigits_digits`: a number is the value of its digits.
-/

namespace PocketCalc

/-- The number `coefficient * 10 ^ exponent`. -/
structure Decimal where
  coefficient : Nat
  exponent : Int
deriving DecidableEq

namespace Decimal

/-- The digits of a natural number in base ten, without leading zeros. -/
def digits (n : Nat) : Text := Nat.toDigits 10 n

/-- The value of a row of digits, zero for the empty row. -/
def ofDigits (ds : Text) : Nat := Nat.ofDigitChars 10 ds 0

theorem ofDigits_digits (n : Nat) : ofDigits (digits n) = n := Nat.ofDigitChars_ten_toDigits

theorem isDigit_of_mem_digits {n : Nat} {c : Char} (h : c ∈ digits n) : c.isDigit = true :=
  Nat.isDigit_of_mem_toDigits (by decide) (by decide) h

/-- The text of an integer, with a minus sign in front of a negative one. -/
def intText : Int → Text
  | .ofNat n => digits n
  | .negSucc n => '-' :: digits (n + 1)

/-- Zeros in front of a row of digits, up to the given length. -/
def padTo (width : Nat) (ds : Text) : Text := List.replicate (width - ds.length) '0' ++ ds

theorem length_padTo (width : Nat) (ds : Text) : (padTo width ds).length = max width ds.length := by
  simp only [padTo, List.length_append, List.length_replicate]
  omega

/-! ## Positional layout -/

/-- The positional layout: no exponent, one digit at least before the point, no point without a
digit behind it. -/
def plain (d : Decimal) : Text :=
  match d.exponent with
  | .ofNat n => digits (d.coefficient * Nat.pow 10 n)
  | .negSucc n =>
    let places := n + 1
    let ds := padTo (places + 1) (digits d.coefficient)
    ds.take (ds.length - places) ++ '.' :: ds.drop (ds.length - places)

/-- The same number with as few decimal places as it needs, and none after a whole number. -/
def reduce (c : Nat) : Nat → Decimal
  | 0 => ⟨c, 0⟩
  | places + 1 => if c % 10 = 0 then reduce (c / 10) places else ⟨c, -(places + 1 : Nat)⟩

/-- The decimal in its reduced form, whose exponent is never positive. -/
def reduced (d : Decimal) : Decimal :=
  match d.exponent with
  | .ofNat n => ⟨d.coefficient * Nat.pow 10 n, 0⟩
  | .negSucc n => reduce d.coefficient (n + 1)

/-! ## Layout with an exponent -/

/-- One digit, the others behind a point, and the exponent of the first digit. -/
def withExponent (ds : Text) (exponent : Int) : Text :=
  match ds with
  | [] => []
  | [d] => d :: 'e' :: intText exponent
  | d :: rest => d :: '.' :: rest ++ 'e' :: intText exponent

/-- A row of digits without the zeros at its end, keeping its first digit. -/
def dropFinalZeros : Text → Text
  | [] => []
  | d :: rest => d :: (rest.reverse.dropWhile (· == '0')).reverse

/-- The layout with an exponent, with no more digits than the number needs. -/
def scientific (d : Decimal) : Text :=
  let ds := digits d.coefficient
  withExponent (dropFinalZeros ds) (if d.coefficient = 0 then 0 else d.exponent + (ds.length - 1 : Nat))

/-- The layout with an exponent and the given number of digits behind the point, for a coefficient
of that many digits and one more, or zero. -/
def scientificTo (places : Nat) (d : Decimal) : Text :=
  withExponent (padTo (places + 1) (digits d.coefficient)) (d.exponent + places)

end Decimal

end PocketCalc
