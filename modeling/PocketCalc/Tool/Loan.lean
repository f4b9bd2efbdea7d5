/-!
# Loans with constant payments

A loan of `principal` over `years` at a yearly rate in per cent is paid back in equal monthly
payments; without interest each payment is its share of the principal.

* `quote?_finite`: the payment and the total of a quote are finite.
-/

namespace PocketCalc

/-- What a loan costs. -/
structure Loan where
  payment : Float
  total : Float
  interest : Float

namespace Loan

/-- The cost of a loan without interest over a number of months. -/
def free (principal months : Float) : Loan := ⟨principal / months, principal, 0⟩

/-- The cost of a loan at a monthly rate: with growth `f = (1 + rate) ^ months` the payment is
`principal * rate * f / (f - 1)`. -/
def atRate (principal rate months : Float) : Loan :=
  let growth := Float.pow (1 + rate) months
  let payment := principal * rate * growth / (growth - 1)
  let total := payment * months
  ⟨payment, total, total - principal⟩

/-- The cost of a loan, unless the principal or the time is not positive, the rate is negative, or
the numbers are too large. -/
def quote? (principal yearlyRate years : Float) : Option Loan :=
  if principal ≤ 0 ∨ years ≤ 0 ∨ yearlyRate < 0 then none
  else
    let months := years * 12
    let loan :=
      if yearlyRate == 0 then free principal months
      else atRate principal (yearlyRate / 100 / 12) months
    if loan.payment.isFinite && loan.total.isFinite then some loan else none

theorem quote?_finite {principal rate years : Float} {loan : Loan}
    (h : quote? principal rate years = some loan) :
    loan.payment.isFinite = true ∧ loan.total.isFinite = true := by
  unfold quote? at h
  split at h
  · simp at h
  · dsimp only at h
    generalize (if rate == 0 then free principal (years * 12)
      else atRate principal (rate / 100 / 12) (years * 12)) = l at h
    split at h
    · rename_i hl
      cases h
      simpa using hl
    · simp at h

end Loan

end PocketCalc
