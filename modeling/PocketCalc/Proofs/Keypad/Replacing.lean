import PocketCalc.Proofs.Keypad.Coherent

/-!
# Operators typed in a row

An operator that is pending is taken back character by character from the end of the expression.
Before it stands an operand, which ends in no blank and no operator, so nothing of the operand is
taken with it, and whatever was typed before the last operator might as well not have been.

* `Calculator.Coherent.operand_typeOperator`: an operator leaves what it was put behind.
* `Calculator.Coherent.typeOperator_typeOperator`: of two operators the last one counts.
* `Device.last_operator_run`: the same after every run, with what is left of the expression.
-/

namespace PocketCalc

namespace Calculator

namespace Coherent

variable {c : Calculator}

/-- The next operator is put behind the same operand. -/
theorem operand_typeOperator (h : c.Coherent) (o : Operator) :
    (c.typeOperator o).operand = c.operand := by
  rw [typeOperator_eq]
  exact operand_of_pending rfl rfl rfl h.isOperand_operand

/-- Of two operators the last one counts. -/
theorem typeOperator_typeOperator (h : c.Coherent) (a b : Operator) :
    (c.typeOperator a).typeOperator b = c.typeOperator b := by
  rw [typeOperator_eq _ b, h.operand_typeOperator, typeOperator_eq c a, typeOperator_eq c b]

/-- What stands before a pending operator is what the next one is put behind, however the expression
is cut. -/
theorem operand_eq (h : c.Coherent) (hp : c.phase = .operatorPending) {p : Text} {o : Operator}
    (he : c.expression = p ++ spaced o) : c.operand = p := by
  obtain ⟨p', o', he', hop⟩ := h.pending hp
  have hj : c.justComputed = false := h.legible.justComputed_eq_false (by simp [hp])
  have hlen : (spaced o').length = (spaced o).length := rfl
  rw [operand_of_pending hj hp he' hop]
  exact (List.append_inj' (he'.symm.trans he) hlen).1

end Coherent

end Calculator

namespace Device

/-- After every run, two operators do to the device what the last of them does alone. An operator
goes behind the display of a result, behind an expression with no operator pending, and else behind
all that stands before the pending one. -/
theorem last_operator_run [HistoryFormat] {σ : Type} [Store σ] (s : σ) (is : List Input)
    (a b : Operator) :
    let d := (start s).run is
    let e := d.run [.key (.operator b)]
    d.run [.key (.operator a), .key (.operator b)] = e ∧
    (d.calculator.phase = .result →
      e.calculator.expression = d.calculator.display ++ Calculator.spaced b) ∧
    (d.calculator.phase = .cleared ∨ d.calculator.phase = .typing →
      e.calculator.expression = d.calculator.expression ++ Calculator.spaced b) ∧
    (d.calculator.phase = .operatorPending →
      ∀ p o, d.calculator.expression = p ++ Calculator.spaced o →
        e.calculator.expression = p ++ Calculator.spaced b) := by
  intro d e
  have h : d.calculator.Coherent := coherent_run s is
  have he : e.calculator.expression = d.calculator.operand ++ Calculator.spaced b :=
    congrArg Calculator.expression (Calculator.typeOperator_eq _ b)
  rw [he]
  refine ⟨?_, fun hp => ?_, fun hp => ?_, fun hp p o ho => ?_⟩
  · exact congrArg (Device.mk · d.store) (h.typeOperator_typeOperator a b)
  · rw [Calculator.operand_of_computed (h.legible.computed.2 hp)]
  · have hr : d.calculator.phase ≠ .result := by rcases hp with hp | hp <;> simp [hp]
    have ho : d.calculator.phase ≠ .operatorPending := by rcases hp with hp | hp <;> simp [hp]
    rw [Calculator.operand_of_not_pending (h.legible.justComputed_eq_false hr) ho]
  · rw [h.operand_eq hp ho]

end Device

end PocketCalc
