import PocketCalc.Proofs.Expression.Alternation
import PocketCalc.Proofs.Keypad.Legible

/-!
# The expression and the phase

Whether an operator takes the place of another is decided by the phase, not by the text. So the two
must go together: an operator stands at the end of the expression exactly while one is pending, and
before it stands an operand, an error or nothing.

* `Calculator.typeOperator_eq`: what an operator key does, by what it puts the operator behind.
* `Calculator.Coherent.typeOperator_cases`: what an operator key makes of the expression.
* `Calculator.Coherent.next`: what each key preserves of the expression.
* `Device.expression_run`: the expression after every run.
-/

namespace PocketCalc

namespace Calculator

/-! ## The ends of operands -/

/-- The characters in which an operand can end. -/
def IsOperandEnd (x : Char) : Prop := x.isDigit = true ∨ x = '.' ∨ x = '%'

/-- What an operator can be put behind. -/
def IsOperand (t : Text) : Prop := t = [] ∨ t.EndsIn IsOperandEnd ∨ t = errorText

theorem IsOperandEnd.isOperandChar {x : Char} (h : IsOperandEnd x) :
    Expression.IsOperandChar x := by
  rcases h with h | rfl | rfl
  · exact Expression.isOperandChar_of_isDigit h
  · exact Expression.isOperandChar_point
  · exact Expression.isOperandChar_percent

theorem IsOperand.endsIn {t : Text} (h : IsOperand t) :
    t = [] ∨ t.EndsIn Expression.IsOperandChar := by
  rcases h with h | h | rfl
  · exact .inl h
  · exact .inr (h.mono fun _ => IsOperandEnd.isOperandChar)
  · exact .inr ⟨"Erro".toList, 'r', rfl, by decide, by decide⟩

/-- Behind an operand the last word is no operator. -/
theorem IsOperand.not_isOperatorWord_last {t : Text} (h : IsOperand t) :
    ∀ w ∈ t.words.getLast?, Expression.isOperatorWord w = false := by
  rcases h.endsIn with rfl | h
  · simp
  · exact Expression.not_isOperatorWord_of_endsIn h

theorem alternates_errorText : Expression.Alternates errorText := by
  have hw : Text.words errorText = [errorText] := rfl
  unfold Expression.Alternates
  rw [hw]
  exact List.isChain_singleton _

theorem IsNumber.endsIn {t : Text} (h : IsNumber t) : t.EndsIn IsOperandEnd := by
  obtain ⟨⟨p, rfl⟩, -⟩ := h
  exact p.endsIn_text.mono fun _ hx => hx.imp_right .inl

theorem IsNumber.isBlank_eq_false {t : Text} (h : IsNumber t) {x : Char} (hx : x ∈ t) :
    Text.isBlank x = false := by
  obtain ⟨⟨p, rfl⟩, -⟩ := h
  rcases p.mem_text hx with h | rfl | rfl | rfl | rfl | rfl
  · exact (Expression.isOperandChar_of_isDigit h).1
  all_goals decide

theorem IsNumber.words_eq {t : Text} (h : IsNumber t) : t.words = [t] := by
  have hne : t ≠ [] := by
    obtain ⟨⟨p, rfl⟩, -⟩ := h
    exact p.text_ne rfl
  exact Text.words_singleton hne fun _ => h.isBlank_eq_false

theorem IsNumber.alternates {t : Text} (h : IsNumber t) : Expression.Alternates t :=
  Expression.alternates_of_forall fun _ => h.isBlank_eq_false

/-! ## What an operator is put behind -/

/-- What an operator is put behind: the display if a result is shown, and else the expression without
an operator that is pending. -/
def operand (c : Calculator) : Text :=
  if c.justComputed then c.display
  else if c.phase = .operatorPending then dropOperator c.expression
  else c.expression

theorem typeOperator_eq (c : Calculator) (o : Operator) : c.typeOperator o = { c with
    display := zeroText
    expression := c.operand ++ spaced o
    justComputed := false
    phase := .operatorPending } := by
  unfold typeOperator operand
  split
  · rfl
  · split <;> rfl

theorem operand_of_computed {c : Calculator} (hj : c.justComputed = true) :
    c.operand = c.display := if_pos hj

theorem operand_of_not_pending {c : Calculator} (hj : c.justComputed = false)
    (hp : c.phase ≠ .operatorPending) : c.operand = c.expression := by
  simp [operand, hj, hp]

theorem operand_of_pending {c : Calculator} (hj : c.justComputed = false)
    (hp : c.phase = .operatorPending) {p : Text} {o : Operator}
    (he : c.expression = p ++ spaced o) (hop : IsOperand p) : c.operand = p := by
  simp [operand, hj, hp, he, Expression.dropOperator_append_spaced hop.endsIn]

/-! ## What every key preserves -/

/-- The expression fits the phase. -/
structure Coherent (c : Calculator) : Prop where
  legible : c.Legible
  alternates : Expression.Alternates c.expression
  /-- Before anything is typed only percent keys leave a mark. -/
  cleared : c.phase = .cleared → ∀ x ∈ c.expression, x = '%'
  typing : c.phase = .typing → c.expression.EndsIn IsOperandEnd
  pending : c.phase = .operatorPending → ∃ p o, c.expression = p ++ spaced o ∧ IsOperand p

namespace Coherent

variable {c : Calculator}

theorem start (history : History) : (Calculator.start history).Coherent where
  legible := .start history
  alternates := Expression.alternates_nil
  cleared := by simp [Calculator.start]
  typing := by simp [Calculator.start]
  pending := by simp [Calculator.start]

/-- A character of an operand at the end of the expression. -/
theorem append_char {x : Char} (h : c.Coherent) (hx : IsOperandEnd x) {c' : Calculator}
    (hl : c'.Legible) (he : c'.expression = c.expression ++ [x])
    (hp : c'.phase = .typing ∨ c'.phase = .result ∨
      c'.phase = .cleared ∧ c.phase = .cleared ∧ x = '%') :
    c'.Coherent where
  legible := hl
  alternates := he ▸ h.alternates.append_char hx.isOperandChar
  cleared := by
    intro hc
    rcases hp with hp | hp | ⟨-, hp, rfl⟩
    · cases hp.symm.trans hc
    · cases hp.symm.trans hc
    · rw [he]
      intro y hy
      rcases List.mem_append.1 hy with hy | hy
      · exact h.cleared hp y hy
      · exact List.mem_singleton.1 hy
  typing := fun _ => ⟨c.expression, x, he, hx⟩
  pending := by
    intro hc
    rcases hp with hp | hp | ⟨hp, -, -⟩ <;> cases hp.symm.trans hc

theorem typeDigit (h : c.Coherent) {d : Char} (hd : d.isDigit = true) :
    (c.typeDigit d).Coherent := by
  have hl := h.legible.typeDigit hd
  unfold Calculator.typeDigit at hl ⊢
  split at hl
  · rename_i hj
    rw [if_pos hj]
    exact append_char (start c.history) (.inl hd) hl rfl (.inl rfl)
  · rename_i hj
    rw [if_neg hj]
    exact h.append_char (.inl hd) hl rfl (.inl rfl)

theorem typePoint (h : c.Coherent) : c.typePoint.Coherent := by
  have hl := h.legible.typePoint
  unfold Calculator.typePoint at hl ⊢
  split
  · exact h
  · rename_i hp
    rw [if_neg hp] at hl
    refine h.append_char (.inr (.inl rfl)) hl rfl ?_
    dsimp only
    split
    · rename_i hj
      exact .inr (.inl (h.legible.computed.1 hj))
    · exact .inl rfl

theorem flipSign (h : c.Coherent) : c.flipSign.Coherent := by
  have hl := h.legible.flipSign
  unfold Calculator.flipSign at hl ⊢
  split
  · exact h
  · rename_i hz
    rw [if_neg hz] at hl
    exact ⟨hl, h.alternates, h.cleared, h.typing, h.pending⟩

theorem takePercent (h : c.Coherent) : c.takePercent.Coherent := by
  have hl := h.legible.takePercent
  unfold Calculator.takePercent at hl ⊢
  split
  · exact h
  · rename_i v hv
    rw [hv] at hl
    refine h.append_char (.inr (.inr rfl)) hl rfl ?_
    dsimp only
    split
    · exact .inl rfl
    · rename_i hp
      cases hc : c.phase with
      | cleared => exact .inr (.inr ⟨rfl, rfl, rfl⟩)
      | typing => exact .inl rfl
      | operatorPending => exact absurd hc hp
      | result => exact .inr (.inl rfl)

/-- Without a result and without a pending operator the expression is empty or ends like an operand. -/
theorem endsIn_expression (h : c.Coherent) (hr : c.phase ≠ .result)
    (hp : c.phase ≠ .operatorPending) :
    c.expression = [] ∨ c.expression.EndsIn IsOperandEnd := by
  cases hc : c.phase with
  | cleared =>
    by_cases hne : c.expression = []
    · exact .inl hne
    · exact .inr (Text.endsIn_of_forall hne fun x hx => .inr (.inr (h.cleared hc x hx)))
  | typing => exact .inr (h.typing hc)
  | operatorPending => exact absurd hc hp
  | result => exact absurd hc hr

/-- Unless an operator is pending the expression is an operand. -/
theorem isOperand (h : c.Coherent) (hr : c.phase ≠ .result) (hp : c.phase ≠ .operatorPending) :
    IsOperand c.expression :=
  (h.endsIn_expression hr hp).imp_right .inl

theorem isOperand_operand (h : c.Coherent) : IsOperand c.operand := by
  by_cases hj : c.justComputed = true
  · rw [operand_of_computed hj]
    rcases h.legible.display with ⟨he, -⟩ | ⟨hn, -⟩
    · exact .inr (.inr he)
    · exact .inr (.inl hn.endsIn)
  · have hfalse := eq_false_of_ne_true hj
    by_cases hp : c.phase = .operatorPending
    · obtain ⟨p, o, he, hop⟩ := h.pending hp
      rwa [operand_of_pending hfalse hp he hop]
    · rw [operand_of_not_pending hfalse hp]
      exact h.isOperand (fun hr => hj (h.legible.computed.2 hr)) hp

/-- An operator is put behind the display if a result is shown, and else behind the expression, where
it takes the place of an operator that is pending. -/
theorem typeOperator_cases (h : c.Coherent) (o : Operator) : ∃ p,
    (c.typeOperator o).expression = p ++ spaced o ∧ IsOperand p ∧
      (c.justComputed = true ∧ p = c.display ∨
        c.justComputed = false ∧ (p = c.expression ∨ ∃ o', c.expression = p ++ spaced o')) := by
  refine ⟨c.operand, by rw [typeOperator_eq], h.isOperand_operand, ?_⟩
  by_cases hj : c.justComputed = true
  · exact .inl ⟨hj, operand_of_computed hj⟩
  · have hfalse := eq_false_of_ne_true hj
    refine .inr ⟨hfalse, ?_⟩
    by_cases hp : c.phase = .operatorPending
    · obtain ⟨p, o', he, hop⟩ := h.pending hp
      exact .inr ⟨o', by rw [operand_of_pending hfalse hp he hop, he]⟩
    · exact .inl (operand_of_not_pending hfalse hp)

/-- The operand that an operator is put behind. -/
theorem exists_typeOperator_eq (h : c.Coherent) (o : Operator) : ∃ p,
    (c.typeOperator o).expression = p ++ spaced o ∧ IsOperand p ∧ Expression.Alternates p := by
  obtain ⟨p, he, hop, ⟨-, rfl⟩ | ⟨-, rfl | ⟨o', ho'⟩⟩⟩ := h.typeOperator_cases o
  · refine ⟨_, he, hop, ?_⟩
    rcases h.legible.display with ⟨hd, -⟩ | ⟨hn, -⟩
    · rw [hd]
      exact alternates_errorText
    · exact hn.alternates
  · exact ⟨_, he, hop, h.alternates⟩
  · have halt := h.alternates
    rw [ho'] at halt
    exact ⟨p, he, hop, halt.of_append_spaced⟩

theorem typeOperator (h : c.Coherent) (o : Operator) : (c.typeOperator o).Coherent := by
  obtain ⟨p, he, hop, halt⟩ := h.exists_typeOperator_eq o
  refine ⟨.typeOperator o, ?_, ?_, ?_, fun _ => ⟨p, o, he, hop⟩⟩
  · rw [he]
    exact halt.append_spaced hop.not_isOperatorWord_last o
  · simp [Calculator.typeOperator]
  · simp [Calculator.typeOperator]

theorem showOutcome (h : c.Coherent) {r : Except EvalError Float}
    (hr : ∀ v, r = .ok v → v.isFinite = true) : (c.showOutcome r).Coherent := by
  have hl := Legible.showOutcome (c := c) hr
  cases r with
  | ok v =>
    exact ⟨hl, h.alternates, by simp [Calculator.showOutcome], by simp [Calculator.showOutcome],
      by simp [Calculator.showOutcome]⟩
  | error e =>
    exact ⟨hl, h.alternates, by simp [Calculator.showOutcome], by simp [Calculator.showOutcome],
      by simp [Calculator.showOutcome]⟩

/-- Every key keeps the expression and the phase together. -/
theorem next (h : c.Coherent) (i : Input) : (c.next i).Coherent :=
  respond_cases c i h (fun _ => h.typeDigit) h.typePoint (fun _ => h.flipSign)
    (fun _ => h.takePercent) h.typeOperator
    (h.showOutcome fun _ => Expression.isFinite_of_evaluate) (start _)
    ⟨⟨h.legible.computed, h.legible.display, h.legible.idle⟩, h.alternates, h.cleared, h.typing,
      h.pending⟩

/-- Without a result the last word is an operator exactly while one is pending. -/
theorem isOperatorWord_last_iff (h : c.Coherent) (hr : c.phase ≠ .result) :
    (∃ w ∈ c.expression.words.getLast?, Expression.isOperatorWord w = true) ↔
      c.phase = .operatorPending := by
  constructor
  · rintro ⟨w, hw, hop⟩
    by_contra hp
    rw [(h.isOperand hr hp).not_isOperatorWord_last w hw] at hop
    cases hop
  · intro hp
    obtain ⟨p, o, he, -⟩ := h.pending hp
    refine ⟨o.symbol, ?_, Expression.isOperatorWord_symbol o⟩
    rw [he, Expression.words_append_spaced]
    simp

end Coherent

end Calculator

/-! ## Runs -/

namespace Device

theorem coherent_run [HistoryFormat] {σ : Type} [Store σ] (s : σ) (is : List Input) :
    ((start s).run is).calculator.Coherent :=
  run_invariant Calculator.Coherent.start (fun _ i h => h.next i) s is

/-- After every run no two operators are neighbours in the expression, and the phase tells its end:
an operator behind an operand while one is pending, an operand while one is being typed. -/
theorem expression_run [HistoryFormat] {σ : Type} [Store σ] (s : σ) (is : List Input) :
    let c := ((start s).run is).calculator
    Expression.Alternates c.expression ∧
    (c.justComputed = true ↔ c.phase = .result) ∧
    (c.phase = .operatorPending → c.display = Calculator.zeroText ∧
      ∃ p o, c.expression = p ++ Calculator.spaced o ∧ Calculator.IsOperand p) ∧
    (c.phase = .typing → c.expression.EndsIn Calculator.IsOperandEnd) ∧
    (c.phase ≠ .result →
      ((∃ w ∈ c.expression.words.getLast?, Expression.isOperatorWord w = true) ↔
        c.phase = .operatorPending)) := by
  intro c
  have h : c.Coherent := coherent_run s is
  exact ⟨h.alternates, h.legible.computed, fun hp => ⟨h.legible.idle (.inr hp), h.pending hp⟩,
    h.typing, h.isOperatorWord_last_iff⟩

end Device

end PocketCalc
