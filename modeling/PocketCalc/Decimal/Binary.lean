import PocketCalc.Decimal.Basic

/-!
# Doubles as exact fractions

A finite double is a sign and a magnitude `mantissa * 2 ^ exponent`. A magnitude is rounded to a
decimal grid by exact division: to the nearer point, and from the middle to the even one.

* `roundedQuotient_near`: the rounded quotient lies within half of the divisor.
-/

namespace PocketCalc

/-- The number `mantissa * 2 ^ exponent`. -/
structure Magnitude where
  mantissa : Nat
  exponent : Int
deriving DecidableEq

/-- What a double stands for. -/
inductive Reading where
  | notANumber
  | infinite (negative : Bool)
  | finite (negative : Bool) (magnitude : Magnitude)
deriving DecidableEq

/-- The sign, exponent and fraction fields of a double's 64 bits. -/
def Reading.ofBits (bits : Nat) : Reading :=
  let negative := decide (Nat.pow 2 63 ≤ bits)
  let field : Nat := bits / Nat.pow 2 52 % Nat.pow 2 11
  let fraction : Nat := bits % Nat.pow 2 52
  if field = 2047 then
    if fraction = 0 then .infinite negative else .notANumber
  else if field = 0 then .finite negative ⟨fraction, -1074⟩
  else .finite negative ⟨Nat.pow 2 52 + fraction, (field : Int) - 1075⟩

/-- What a double stands for, read off its bits. -/
def Reading.ofFloat (v : Float) : Reading := .ofBits v.toBits.toNat

/-- The whole number nearest to `n / d`, the even one of two that are equally near. -/
def roundedQuotient (n d : Nat) : Nat :=
  let q := n / d
  let r := n % d
  if 2 * r < d then q else if d < 2 * r then q + 1 else if q % 2 = 0 then q else q + 1

theorem roundedQuotient_near (n : Nat) {d : Nat} (hd : 0 < d) :
    2 * n ≤ 2 * (roundedQuotient n d * d) + d ∧ 2 * (roundedQuotient n d * d) ≤ 2 * n + d := by
  have hn : d * (n / d) + n % d = n := Nat.div_add_mod n d
  have hr : n % d < d := Nat.mod_lt n hd
  have hq : n / d * d = d * (n / d) := Nat.mul_comm _ _
  have hq' : (n / d + 1) * d = d * (n / d) + d := by rw [Nat.add_mul, hq, Nat.one_mul]
  unfold roundedQuotient
  simp only
  split
  · omega
  · split
    · omega
    · split <;> omega

namespace Magnitude

/-- The magnitude times a power of ten, as a fraction. -/
def scaled (m : Magnitude) (places : Int) : Nat × Nat :=
  (m.mantissa * Nat.pow 2 m.exponent.toNat * Nat.pow 10 places.toNat,
    Nat.pow 2 (-m.exponent).toNat * Nat.pow 10 (-places).toNat)

/-- The magnitude rounded to the given number of decimal places, which may be negative. -/
def rounded (m : Magnitude) (places : Int) : Decimal :=
  let (n, d) := m.scaled places
  ⟨roundedQuotient n d, -places⟩

/-- The power of ten at the first digit of a magnitude that is not zero: it is at least
`10 ^ order` and less than `10 ^ (order + 1)`. -/
def order (m : Magnitude) : Int :=
  let (n, d) := m.scaled 0
  if d ≤ n then ((Decimal.digits (n / d)).length : Int) - 1
  else -((Decimal.digits ((d - 1) / n)).length : Int)

/-- The magnitude rounded to one digit and `places` more. -/
def significant (m : Magnitude) (places : Nat) : Decimal :=
  if m.mantissa = 0 then ⟨0, -places⟩
  else
    let d := m.rounded (places - m.order)
    if d.coefficient < Nat.pow 10 (places + 1) then d else ⟨d.coefficient / 10, d.exponent + 1⟩

/-- The magnitude itself: every double is a decimal with finitely many places. -/
def exact (m : Magnitude) : Decimal :=
  match m.exponent with
  | .ofNat n => ⟨m.mantissa * Nat.pow 2 n, 0⟩
  | .negSucc n => ⟨m.mantissa * Nat.pow 5 (n + 1), -(n + 1 : Nat)⟩

end Magnitude

end PocketCalc
