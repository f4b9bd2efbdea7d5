import PocketCalc.Decimal.Grammar

/-!
# Numbers typed into a form

What is typed into a field is read with patience: blanks around it and anything behind the number
do not matter.

* `readNumber?_finite`: a number read from a field is finite.
-/

namespace PocketCalc

namespace Field

/-- Whether a character may belong to a number. -/
def isNumberPart (c : Char) : Bool :=
  c.isDigit || c == '.' || c == '-' || c == '+' || c == 'e' || c == 'E'

/-- What the longest beginning of a text that can be read stands for. -/
def longest? {α : Type} (read? : Text → Option α) (t : Text) : Option α :=
  (List.range (t.length + 1)).reverse.findSome? fun n => read? (t.take n)

/-- The number at the beginning of a field; none where there is no number or it is too large. -/
def readNumber? (t : Text) : Option Float :=
  (longest? Decimal.float? (t.trim.takeWhile isNumberPart)).filter Float.isFinite

theorem readNumber?_finite {t : Text} {v : Float} (h : readNumber? t = some v) :
    v.isFinite = true := (Option.filter_eq_some_iff.1 h).2

/-- The whole number at the beginning of a text without a sign; zero where there is no digit or the
number does not fit into 64 bits. -/
def leadingWhole (t : Text) : Int :=
  let n := Decimal.ofDigits (t.takeWhile Char.isDigit)
  if n ≤ Int64.maxValue.toInt then n else 0

/-- The whole number at the beginning of a field, zero where there is none. -/
def readInteger (t : Text) : Int64 :=
  match t.trim with
  | '-' :: rest => Int64.ofInt (-leadingWhole rest)
  | '+' :: rest => Int64.ofInt (leadingWhole rest)
  | rest => Int64.ofInt (leadingWhole rest)

end Field

end PocketCalc
