import PocketCalc.Expression.Error

/-!
# The four operators

Each operator has one symbol in which it is written and some spellings in which it is read. Applied
to finite numbers it gives a finite number or says why it cannot.

* `ofSymbol?_symbol`: a symbol reads back as its operator.
* `isFinite_of_apply`: a result is finite.
-/

namespace PocketCalc

/-- An operation between two numbers. -/
inductive Operator where
  | plus
  | minus
  | times
  | over
deriving DecidableEq

namespace Operator

/-- All operators. -/
def all : List Operator := [.plus, .minus, .times, .over]

/-- The character in which an operator is written. -/
def char : Operator → Char
  | .plus => '+'
  | .minus => '−'
  | .times => '×'
  | .over => '÷'

/-- The text in which an operator is written. -/
def symbol (o : Operator) : Text := [o.char]

/-- The operator that a character stands for, in its own symbol or on a keyboard. -/
def ofChar? (c : Char) : Option Operator :=
  if c = '+' then some .plus
  else if c = '−' ∨ c = '-' then some .minus
  else if c = '×' ∨ c = '*' ∨ c = 'x' then some .times
  else if c = '÷' ∨ c = '/' then some .over
  else none

/-- The operator that a text stands for: only texts of one character do. -/
def ofSymbol? : Text → Option Operator
  | [c] => ofChar? c
  | _ => none

theorem ofChar?_char (o : Operator) : ofChar? o.char = some o := by cases o <;> decide

theorem ofSymbol?_symbol (o : Operator) : ofSymbol? o.symbol = some o := ofChar?_char o

/-- The operation on doubles, with infinities and all. -/
def compute : Operator → Float → Float → Float
  | .plus, a, b => a + b
  | .minus, a, b => a - b
  | .times, a, b => a * b
  | .over, a, b => a / b

/-- The number that the operation gives, unless it divides by zero or leaves the finite doubles. -/
def apply (o : Operator) (a b : Float) : Except EvalError Float :=
  if o = .over ∧ (b == 0) = true then .error .divisionByZero
  else if (o.compute a b).isFinite then .ok (o.compute a b)
  else .error .notFinite

theorem isFinite_of_apply {o : Operator} {a b r : Float} (h : o.apply a b = .ok r) :
    r.isFinite = true := by
  unfold apply at h
  split at h
  · simp at h
  · split at h
    · rename_i hr
      cases h
      exact hr
    · simp at h

end Operator

end PocketCalc
