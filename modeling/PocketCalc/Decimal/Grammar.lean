import PocketCalc.Decimal.Basic

/-!
# Reading decimals

The grammar of a number text is a sign, digits with at most one point among or beside them, and an
exponent: `[+-]? (D+ ('.' D*)? | '.' D+) ([eE] [+-]? D+)?`. A number text stands for the double
nearest to its value, ties going to the even one.
-/

namespace PocketCalc

namespace Decimal

/-- One digit or more and nothing else, as their value. -/
def whole? (t : Text) : Option Nat :=
  if t ≠ [] ∧ t.all Char.isDigit then some (ofDigits t) else none

/-- The digits of an exponent with its optional sign. -/
def exponent? : Text → Option Int
  | '+' :: t => (whole? t).map Int.ofNat
  | '-' :: t => (whole? t).map fun n => -(n : Int)
  | t => (whole? t).map Int.ofNat

/-- What may stand behind the digits of a number: nothing, or an exponent. -/
def scale? : Text → Option Int
  | [] => some 0
  | c :: t => if c = 'e' ∨ c = 'E' then exponent? t else none

/-- A number without a sign. -/
def unsigned? (t : Text) : Option Decimal :=
  let before := t.takeWhile Char.isDigit
  match t.dropWhile Char.isDigit with
  | '.' :: rest =>
    let behind := rest.takeWhile Char.isDigit
    if before ++ behind = [] then none
    else (scale? (rest.dropWhile Char.isDigit)).map fun e =>
      ⟨ofDigits (before ++ behind), e - behind.length⟩
  | rest =>
    if before = [] then none else (scale? rest).map fun e => ⟨ofDigits before, e⟩

/-- The double nearest to a decimal. -/
def toFloat (d : Decimal) : Float :=
  Float.ofScientific d.coefficient (decide (d.exponent < 0)) d.exponent.natAbs

/-- The double nearest to a number with an optional sign; it is infinite where the number lies
beyond the largest double. -/
def float? : Text → Option Float
  | '-' :: t => (unsigned? t).map fun d => -d.toFloat
  | '+' :: t => (unsigned? t).map toFloat
  | t => (unsigned? t).map toFloat

end Decimal

end PocketCalc
