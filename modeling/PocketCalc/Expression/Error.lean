import PocketCalc.Text.Quoted

/-!
# Why an expression has no value

One cause per way to fail, and the words in which the program tells it.
-/

namespace PocketCalc

/-- Why an expression cannot be evaluated. -/
inductive EvalError where
  /-- There is no word at all. -/
  | empty
  /-- The word is no numeral, or stands where an operator is due. -/
  | badNumeral (word : Text)
  /-- The operator stands where a numeral is due. -/
  | strayOperator (symbol : Text)
  /-- The last operator has no right operand. -/
  | missingOperand
  /-- The right operand of a division is zero. -/
  | divisionByZero
  /-- The result is too large for a double. -/
  | notFinite
deriving DecidableEq

/-- The message for the user. -/
def EvalError.message : EvalError → Text
  | .empty => "expression vide".toList
  | .badNumeral word => "numéral invalide: ".toList ++ word.quoted
  | .strayOperator symbol => "opérateur inconnu: ".toList ++ symbol.quoted
  | .missingOperand => "opérateur sans opérande à droite".toList
  | .divisionByZero => "division par zéro".toList
  | .notFinite => "résultat non fini".toList

end PocketCalc
