import PocketCalc.Proofs.Display.ReadBack
import PocketCalc.Proofs.Keypad.Chaining

/-!
# An equals key in the middle

The equals key between an expression and a link puts the value on the display, and the link makes a
new expression of that text. The two expressions have little in common, but where the value fits on
the display it is read back as it is, and both come to what the link makes of the value.

* `Calculator.Coherent.display_link`, `Calculator.display_link_result`: what the equals key shows of
  a link behind a numeral, and of one behind a result.
* `Device.intermediate_run`: the display with and without the equals key in the middle.
-/

namespace PocketCalc

namespace Calculator

/-- What is on the display behind the equals key. -/
def outcomeText : Option Float → Text
  | some v => Display.number v
  | none => errorText

theorem display_equals (c : Calculator) : (c.next (.key .equals)).display =
    outcomeText (Expression.evaluate c.expression).toOption := by
  rw [next_equals]
  cases Expression.evaluate c.expression <;> rfl

/-- What the equals key shows of a link that was typed behind a numeral. -/
theorem Coherent.display_link {c : Calculator} (h : c.Coherent) (hc : c.phase = .typing)
    {v : Float} {u : Text} (hv : Expression.evaluate c.expression = .ok v)
    (hu : Numeral.read? u = some v) (l : Link) :
    (c.run (l.inputs ++ [.key .equals])).display = outcomeText (l.chained? u) := by
  have hj : c.justComputed = false := h.legible.justComputed_eq_false (by simp [hc])
  obtain ⟨t, ht⟩ := run_links (c := c) [l]
    ((h.typing hc).mono fun _ => IsOperandEnd.isOperandChar) hj hc
  rw [List.flatMap_singleton, List.flatMap_singleton] at ht
  rw [run_append, ht, run_cons, run_nil, display_equals, l.toOption_evaluate_append_of_value hv hu]

/-- What the equals key shows of a link that was typed behind a result. -/
theorem display_link_result {c : Calculator} (hj : c.justComputed = true)
    (hn : IsNumber c.display) {v : Float} (hv : Numeral.read? c.display = some v) (l : Link) :
    (c.run (l.inputs ++ [.key .equals])).display = outcomeText (l.chained? c.display) := by
  obtain ⟨t, ht⟩ := run_link_result l hj hn
  rw [run_append, ht, run_cons, run_nil, display_equals, l.toOption_evaluate_append hn.words_eq hv]

end Calculator

namespace Device

/-- Where a numeral is being typed and the expression has a value that fits on the display, a link
and the equals key come to the same text with an equals key in front of them and without: to what
the link makes of the value, or to an error in both. -/
theorem intermediate_run [HistoryFormat] {σ : Type} [Store σ] (s : σ) (is : List Input) (l : Link)
    {v : Float}
    (hc : ((start s).run is).calculator.phase = .typing)
    (hv : Expression.evaluate ((start s).run is).calculator.expression = .ok v) (hz : v ≠ -0)
    (hlen : (Decimal.plainText v).length ≤ 10) :
    let direct := ((start s).run (is ++ (l.inputs ++ [.key .equals]))).calculator
    let halted := ((start s).run (is ++ .key .equals :: (l.inputs ++ [.key .equals]))).calculator
    Numeral.read? (Display.number v) = some v ∧ halted.display = direct.display ∧
      direct.display = match l.chained? (Display.number v) with
        | some r => Display.number r
        | none => Calculator.errorText := by
  intro direct halted
  have hcoherent := coherent_run s is
  have hunsigned := Display.unsignedZero_of_ne hz
  have hfinite := Expression.isFinite_of_evaluate hv
  have hread : Numeral.read? (Display.number v) = some v := by
    rw [Display.read?_number_of_short hfinite (by rwa [hunsigned]), hunsigned]
  have hdirect : direct.display = Calculator.outcomeText (l.chained? (Display.number v)) := by
    change ((start s).run (is ++ _)).calculator.display = _
    rw [run_append, calculator_run]
    exact hcoherent.display_link hc hv hread l
  have hhalted : halted.display = Calculator.outcomeText (l.chained? (Display.number v)) := by
    change ((start s).run (is ++ _)).calculator.display = _
    rw [run_append, calculator_run, Calculator.run_cons, Calculator.next_equals, hv]
    -- The result is on the display now, so the link begins a new expression.
    exact Calculator.display_link_result rfl (Calculator.isNumber_number hfinite).1 hread l
  refine ⟨hread, hhalted.trans hdirect.symm, hdirect.trans ?_⟩
  cases l.chained? (Display.number v) <;> rfl

/-- The value in the middle is shown in groups, `2,468`. -/
theorem intermediate_run_of_groups :
    let is : List Input := [.key (.digit '1'), .key (.digit '2'), .key (.digit '3'),
      .key (.digit '4'), .key (.operator .times), .key (.digit '2')]
    let l : Link := ⟨[.over], by simp, ⟨"0.5".toList, by simp, by simp, '5', by simp, by simp⟩⟩
    let direct := ((start MemoryStore.empty).run (is ++ (l.inputs ++ [.key .equals]))).calculator
    let halted := ((start MemoryStore.empty).run
      (is ++ .key .equals :: (l.inputs ++ [.key .equals]))).calculator
    ((start MemoryStore.empty).run is).calculator.phase = .typing ∧
    Expression.evaluate ((start MemoryStore.empty).run is).calculator.expression = .ok 2468 ∧
    (2468 : Float) ≠ -0 ∧ (Decimal.plainText 2468).length ≤ 10 ∧
    Numeral.read? (Display.number 2468) = some 2468 ∧ halted.display = direct.display ∧
      direct.display = match l.chained? (Display.number 2468) with
        | some r => Display.number r
        | none => Calculator.errorText := by
  intro is l direct halted
  have hc : ((start MemoryStore.empty).run is).calculator.phase = .typing := by decide +kernel
  have hv : Expression.evaluate ((start MemoryStore.empty).run is).calculator.expression =
      .ok 2468 := by decide +kernel
  have hz : (2468 : Float) ≠ -0 := by decide +kernel
  have hlen : (Decimal.plainText 2468).length ≤ 10 := by decide +kernel
  exact ⟨hc, hv, hz, hlen, intermediate_run MemoryStore.empty is l hc hv hz hlen⟩

end Device

end PocketCalc
