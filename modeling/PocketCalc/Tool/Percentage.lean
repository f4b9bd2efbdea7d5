import PocketCalc.Decimal.Print

/-!
# Percentages

Five questions about two numbers. Two of them ask for a percentage, and their answer ends in a per
cent sign.

* `answer?_finite`: an answer is finite.
-/

namespace PocketCalc

/-- A question about percentages. -/
inductive Percentage where
  /-- What is the first number in per cent of the second? -/
  | share
  /-- How many per cent of the second number is the first? -/
  | ratio
  /-- By how many per cent does the second number differ from the first? -/
  | change
  /-- What is the second number with the first in per cent added? -/
  | increase
  /-- What is the second number with the first in per cent taken off? -/
  | decrease
deriving DecidableEq

namespace Percentage

/-- All questions, in the order of the menu. -/
def all : List Percentage := [.share, .ratio, .change, .increase, .decrease]

/-- The question in the menu. -/
def label : Percentage → Text
  | .share => "X % de Y".toList
  | .ratio => "X est quel % de Y".toList
  | .change => "Variation en %".toList
  | .increase => "Ajouter X % à Y".toList
  | .decrease => "Retirer X % de Y".toList

/-- What the two fields are called. -/
def fieldLabels : Percentage → Text × Text
  | .share | .increase | .decrease => ("Pourcentage".toList, "Nombre".toList)
  | .ratio => ("Nombre".toList, "Total".toList)
  | .change => ("Initial".toList, "Nouveau".toList)

/-- Whether the answer is itself a percentage. -/
def asksPercentage : Percentage → Bool
  | .ratio | .change => true
  | .share | .increase | .decrease => false

/-- The answer on doubles, infinities and all. -/
def compute : Percentage → Float → Float → Float
  | .share, x, y => x / 100 * y
  | .ratio, x, y => x / y * 100
  | .change, x, y => (y - x) / x * 100
  | .increase, x, y => y + x / 100 * y
  | .decrease, x, y => y - x / 100 * y

/-- The answer, unless it divides by zero or is too large. -/
def answer? (p : Percentage) (x y : Float) : Option Float :=
  if (p.compute x y).isFinite then some (p.compute x y) else none

theorem answer?_finite {p : Percentage} {x y r : Float} (h : p.answer? x y = some r) :
    r.isFinite = true := by
  unfold answer? at h
  split at h
  · rename_i hr
    cases h
    exact hr
  · simp at h

/-- The text of an answer, in two places. -/
def answerText (p : Percentage) (r : Float) : Text :=
  if p.asksPercentage then Decimal.fixedText 2 r ++ ['%'] else Decimal.fixedText 2 r

end Percentage

end PocketCalc
