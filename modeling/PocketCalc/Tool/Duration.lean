import PocketCalc.Decimal.Basic

/-!
# Durations

A duration has hours, minutes and seconds in 64 bits each, which need not be normalised and may be
negative. Its length in seconds, and what is computed from lengths, must fit into 64 bits as well.

* `toInt_of_inWord`: a number that is said to fit is kept.
* `clock_eq`: a length is `3600 * hours + 60 * minutes + seconds` of its clock reading.
-/

namespace PocketCalc

/-- A whole number, if it fits into 64 bits. -/
def inWord? (n : Int) : Option Int64 :=
  if Int64.minValue.toInt ≤ n ∧ n ≤ Int64.maxValue.toInt then some (Int64.ofInt n) else none

theorem toInt_of_inWord {n : Int} {w : Int64} (h : inWord? n = some w) : w.toInt = n := by
  unfold inWord? at h
  split at h
  · rename_i hn
    cases h
    exact Int64.toInt_ofInt_of_le hn.1 (Int.lt_add_one_of_le hn.2)
  · simp at h

/-- Hours, minutes and seconds. -/
structure Duration where
  hours : Int64
  minutes : Int64
  seconds : Int64
deriving DecidableEq

/-- What is asked of two durations. -/
inductive TimeOperation where
  /-- Their sum. -/
  | sum
  /-- How far they are apart. -/
  | difference
deriving DecidableEq

namespace TimeOperation

/-- Both operations, in the order of the form. -/
def all : List TimeOperation := [.sum, .difference]

/-- The name in the form. -/
def label : TimeOperation → Text
  | .sum => "Ajouter".toList
  | .difference => "Écart".toList

end TimeOperation

namespace Duration

/-- The length in seconds, if it and each step towards it fit into 64 bits. -/
def total? (d : Duration) : Option Int64 := do
  let hours ← inWord? (d.hours.toInt * 3600)
  let minutes ← inWord? (d.minutes.toInt * 60)
  let long ← inWord? (hours.toInt + minutes.toInt)
  inWord? (long.toInt + d.seconds.toInt)

/-- Hours, minutes and seconds of a length, none of them against its sign. -/
def clock (length : Int) : Int × Int × Int :=
  (length.tdiv 3600, (length.tmod 3600).tdiv 60, length.tmod 60)

theorem clock_eq (n : Int) :
    3600 * (clock n).1 + 60 * (clock n).2.1 + (clock n).2.2 = n := by
  have h₁ : 3600 * n.tdiv 3600 + n.tmod 3600 = n := Int.mul_tdiv_add_tmod n 3600
  have h₂ : 60 * (n.tmod 3600).tdiv 60 + (n.tmod 3600).tmod 60 = n.tmod 3600 :=
    Int.mul_tdiv_add_tmod _ 60
  have h₃ : (n.tmod 3600).tmod 60 = n.tmod 60 := Int.tmod_tmod_of_dvd n (by decide)
  simp only [clock]
  omega

/-- A number in two characters at least; a minus sign is one of them. -/
def twoPlaces : Int → Text
  | .ofNat n => Decimal.padTo 2 (Decimal.digits n)
  | .negSucc n => '-' :: Decimal.digits (n + 1)

/-- The text of a length in seconds: hours, minutes and seconds with colons between them. -/
def clockText (length : Int) : Text :=
  let (hours, minutes, seconds) := clock length
  twoPlaces hours ++ ':' :: twoPlaces minutes ++ ':' :: twoPlaces seconds

/-- The length that the operation gives, if it fits into 64 bits. -/
def combine? (op : TimeOperation) (a b : Int64) : Option Int64 :=
  match op with
  | .sum => inWord? (a.toInt + b.toInt)
  | .difference => (inWord? (a.toInt - b.toInt)).bind fun d => inWord? d.toInt.natAbs

/-- The text of what the operation gives for two durations, if everything fits into 64 bits. -/
def resultText? (op : TimeOperation) (d e : Duration) : Option Text := do
  let a ← d.total?
  let b ← e.total?
  let r ← combine? op a b
  return clockText r.toInt

end Duration

end PocketCalc
