import PocketCalc.Expression.Numeral
import PocketCalc.Expression.Operator

/-!
# Tokens of an expression

The words of an expression are operators and numerals. The first word that is neither stops the
reading.

* `Numeral.parse_eq_ok_iff`: the words that are read as numbers.
* `ofWords_cons`: the tokens of a row of words, word by word.
-/

namespace PocketCalc

/-- The number that a word stands for, or an error that quotes the word. -/
def Numeral.parse (w : Text) : Except EvalError Float :=
  match read? w with
  | some v => .ok v
  | none => .error (.badNumeral w)

theorem Numeral.parse_eq_ok_iff {w : Text} {v : Float} : parse w = .ok v ↔ read? w = some v := by
  unfold parse
  cases read? w <;> simp

theorem Numeral.parse_of_none {w : Text} (h : read? w = none) :
    parse w = .error (.badNumeral w) := by
  rw [parse, h]

/-- A word of an expression, read. -/
inductive Token where
  | number (v : Float)
  | operator (o : Operator)
deriving DecidableEq

namespace Token

/-- The token that a word stands for. -/
def ofWord (w : Text) : Except EvalError Token :=
  match Operator.ofSymbol? w with
  | some o => .ok (.operator o)
  | none => (Numeral.parse w).map number

/-- The tokens of a row of words, or the error of the first word that is no token. -/
def ofWords : List Text → Except EvalError (List Token)
  | [] => .ok []
  | w :: ws =>
    match ofWord w with
    | .error e => .error e
    | .ok t =>
      match ofWords ws with
      | .error e => .error e
      | .ok ts => .ok (t :: ts)

theorem ofWords_cons (w : Text) (ws : List Text) :
    ofWords (w :: ws) = (do let t ← ofWord w; let ts ← ofWords ws; .ok (t :: ts)) := by
  cases hw : ofWord w <;> cases hs : ofWords ws <;> simp [ofWords, hw, hs, bind, Except.bind]

/-- The tokens of an expression. -/
def ofText (t : Text) : Except EvalError (List Token) := ofWords t.words

/-- The text of a token. -/
def text : Token → Text
  | .number v => Decimal.plainText v
  | .operator o => o.symbol

/-- The texts of tokens with a space between each and the next. -/
def textOf : List Token → Text
  | [] => []
  | [t] => t.text
  | t :: ts => t.text ++ ' ' :: textOf ts

end Token

end PocketCalc
