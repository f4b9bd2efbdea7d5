import PocketCalc.Decimal.Print

/-!
# Numerals

A numeral is a number as the display shows it: perhaps a minus sign, digits with a point, commas
between groups of digits, perhaps an exponent. Commas are skipped wherever they stand behind the
first character.

* `isFinite_of_read`: a numeral stands for a finite number.
-/

namespace PocketCalc

namespace Numeral

/-- Whether a character may stand in a numeral, apart from a minus sign in front. -/
def isPart (c : Char) : Bool :=
  c.isDigit || c == '.' || c == ',' || c == 'e' || c == 'E' || c == '+' || c == '-'

/-- The word without a minus sign in front. -/
def body : Text → Text
  | '-' :: t => t
  | t => t

/-- Whether the word looks like a numeral: a digit or a point first, only parts of numerals
then. -/
def hasShape (word : Text) : Bool :=
  match body word with
  | [] => false
  | c :: rest => (c.isDigit || c == '.') && (c :: rest).all isPart

/-- The number that a numeral stands for. -/
def read? (word : Text) : Option Float :=
  if hasShape word then (Decimal.float? (word.filter (· != ','))).filter Float.isFinite else none

theorem isFinite_of_read {word : Text} {v : Float} (h : read? word = some v) :
    v.isFinite = true := by
  unfold read? at h
  split at h
  · exact (Option.filter_eq_some_iff.1 h).2
  · simp at h

end Numeral

end PocketCalc
