import PocketCalc.Decimal.Binary
import PocketCalc.Decimal.Grammar

/-!
# The fewest digits that read back

The text of a double holds the fewest digits whose nearest double is the number itself, and of the
decimals with that many digits the one nearest to it. Seventeen digits are always enough; the search
does not rely on that, because it ends at the exact decimal.

* `readsBack_of_onGrid`: what the search accepts reads back.
-/

namespace PocketCalc

namespace Magnitude

/-- Whether the double nearest to a decimal is this magnitude. -/
def readsBack (m : Magnitude) (d : Decimal) : Bool :=
  Reading.ofFloat d.toFloat == .finite false m

/-- On the grid of one digit and `places` more: the nearer neighbour of the magnitude if it reads
back, else the other one if that does. Of two that are equally near the upper comes first. -/
def onGrid (m : Magnitude) (places : Nat) : Option Decimal :=
  let p : Int := places - m.order
  let (n, d) := m.scaled p
  let below := (Decimal.mk (n / d) (-p)).reduced
  let above := (Decimal.mk (n / d + 1) (-p)).reduced
  if 2 * (n % d) < d then [below, above].find? m.readsBack else [above, below].find? m.readsBack

theorem readsBack_of_onGrid {m : Magnitude} {places : Nat} {d : Decimal}
    (h : m.onGrid places = some d) : m.readsBack d = true := by
  simp only [onGrid] at h
  split at h <;> exact List.find?_some h

/-- The nearest of the shortest decimals that read back as this magnitude. -/
def shortest (m : Magnitude) : Decimal :=
  if m.mantissa = 0 then ⟨0, 0⟩
  else ((List.range 17).findSome? m.onGrid).getD m.exact.reduced

end Magnitude

end PocketCalc
