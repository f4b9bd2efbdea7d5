import PocketCalc.Expression.Operator

/-!
# Keys

The keys of the keypad, and the characters of a keyboard that stand for one.

* `ofChar?_digit`: a digit stands for its digit key.
* `ofChar?_operator`: the symbol of an operator stands for its key.
-/

namespace PocketCalc

/-- A key of the keypad. -/
inductive Key where
  | digit (c : Char)
  | point
  | sign
  | percent
  | operator (o : Operator)
  | equals
  | clear
deriving DecidableEq

/-- The key that a typed character stands for. -/
def Key.ofChar? (c : Char) : Option Key :=
  if c.isDigit then some (.digit c)
  else if c = '.' ∨ c = ',' then some .point
  else if c = '%' then some .percent
  else if c = '=' then some .equals
  else (Operator.ofChar? c).map .operator

namespace Key

theorem ofChar?_digit {c : Char} (h : c.isDigit = true) : ofChar? c = some (.digit c) := by
  simp [ofChar?, h]

theorem ofChar?_operator (o : Operator) : ofChar? o.char = some (.operator o) := by
  cases o <;> decide

end Key

end PocketCalc
