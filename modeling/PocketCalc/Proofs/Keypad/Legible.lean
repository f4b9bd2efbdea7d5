import PocketCalc.Proofs.Display.Number
import PocketCalc.Proofs.Keypad.Run

/-!
# What is on the display

Digits, points and signs are put on a text that may have commas and an exponent from a percentage
or a result. Whatever their order, the display holds an error or a number of the display's grammar,
and a number that cannot be read only while it is being typed.

* `Calculator.IsNumber`: what the keys that change a text preserve of it.
* `Calculator.Legible.next`: what each key preserves of the display.
* `Device.display_run`: the display after every run.
-/

namespace PocketCalc

namespace Calculator

open Display (Parts)

/-! ## Texts of numbers -/

/-- A zero with a minus sign. -/
def negativeZeroText : Text := ['-', '0']

/-- A number of the display, but no signed zero. -/
def IsNumber (t : Text) : Prop := (∃ p : Parts, t = p.text) ∧ t ≠ negativeZeroText

/-- Whether a text stands for a finite number. -/
def isReadable (t : Text) : Bool := (Numeral.read? t).isSome

theorem isReadable_text (p : Parts) : isReadable p.text = p.value.isFinite := by
  unfold isReadable
  rw [p.read?_text]
  cases p.value.isFinite <;> rfl

theorem IsNumber.ne_errorText {t : Text} (h : IsNumber t) : t ≠ errorText := by
  obtain ⟨⟨p, rfl⟩, -⟩ := h
  exact p.text_ne rfl

theorem isNumber_digit {d : Char} (hd : d.isDigit = true) : IsNumber [d] := by
  have hds : ∀ c ∈ [d], c.isDigit = true := by simpa using hd
  have hfs : ∀ c ∈ ([] : Text), c.isDigit = true := by simp
  exact ⟨⟨.grouped false (List.cons_ne_nil d []) hds hfs, rfl⟩, by simp [negativeZeroText]⟩

theorem isReadable_zeroText : isReadable zeroText = true := by decide +kernel

theorem IsNumber.append_digit {t : Text} (h : IsNumber t) {d : Char} (hd : d.isDigit = true) :
    IsNumber (t ++ [d]) := by
  obtain ⟨⟨p, rfl⟩, -⟩ := h
  obtain ⟨q, hq⟩ := p.exists_append_digit hd
  refine ⟨⟨q, hq.symm⟩, fun h => ?_⟩
  -- Only a lone minus sign would become a signed zero.
  have hminus : p.text = ['-'] :=
    (List.append_inj' (show p.text ++ [d] = ['-'] ++ ['0'] from h) rfl).1
  exact p.text_ne rfl hminus

theorem IsNumber.append_point {t : Text} (h : IsNumber t) (hp : '.' ∉ t) :
    IsNumber (t ++ ['.']) ∧ isReadable (t ++ ['.']) = isReadable t := by
  obtain ⟨⟨p, rfl⟩, -⟩ := h
  obtain ⟨q, hq, hv⟩ := p.exists_append_point hp
  refine ⟨⟨⟨q, hq.symm⟩, fun h => ?_⟩, ?_⟩
  · have := congrArg (List.getLast?) h
    simp [negativeZeroText] at this
  · rw [← hq, isReadable_text, isReadable_text, hv]

/-- The sign of a text is the sign of its number. -/
theorem negated_text (p : Parts) : negated p.text = p.negate.text := by
  rw [p.text_negate]
  rcases p.text_eq with ⟨ht, hn⟩ | ⟨ht, hn⟩
  · obtain ⟨d, rest, hb, hd⟩ := p.exists_body_eq
    have hminus : d ≠ '-' := Text.ne_of_isDigit hd rfl
    rw [ht, hn, hb]
    simp [negated, hminus]
  · rw [ht, hn]
    rfl

theorem IsNumber.negated {t : Text} (h : IsNumber t) (hz : t ≠ zeroText) :
    IsNumber (negated t) ∧ isReadable (negated t) = isReadable t := by
  obtain ⟨⟨p, rfl⟩, -⟩ := h
  obtain ⟨d, rest, hb, hd⟩ := p.exists_body_eq
  have hminus : d ≠ '-' := Text.ne_of_isDigit hd rfl
  rw [negated_text]
  refine ⟨⟨⟨p.negate, rfl⟩, fun h => ?_⟩, ?_⟩
  · rw [p.text_negate] at h
    rcases p.text_eq with ⟨ht, hn⟩ | ⟨ht, hn⟩
    · rw [hn, if_neg (by simp)] at h
      exact hz (ht.trans (List.cons.inj h).2)
    · rw [hn, if_pos rfl, hb] at h
      exact hminus (List.cons.inj h).1
  · rw [isReadable_text, isReadable_text, p.isFinite_value_negate]

theorem isNumber_number {v : Float} (hv : v.isFinite = true) :
    IsNumber (Display.number v) ∧ isReadable (Display.number v) = true := by
  obtain ⟨p, hp, hf, hn⟩ := Display.exists_parts_number hv
  rw [hp, isReadable_text]
  exact ⟨⟨⟨p, rfl⟩, hn⟩, hf⟩

/-! ## What every key preserves -/

/-- The display holds an error, which is a result, or a number, which can be read unless it is being
typed; a lone zero stands there before anything is typed. -/
structure Legible (c : Calculator) : Prop where
  computed : c.justComputed = true ↔ c.phase = .result
  display : c.display = errorText ∧ c.phase = .result ∨
    IsNumber c.display ∧ (c.phase = .typing ∨ isReadable c.display = true)
  idle : c.phase = .cleared ∨ c.phase = .operatorPending → c.display = zeroText

namespace Legible

variable {c : Calculator}

theorem justComputed_eq_false (h : c.Legible) (hr : c.phase ≠ .result) : c.justComputed = false :=
  eq_false_of_ne_true fun hj => hr (h.computed.1 hj)

/-- Before a digit is put behind the display there is a number on it. -/
theorem isNumber_of_not_computed (h : c.Legible) (hj : c.justComputed ≠ true) :
    IsNumber c.display := by
  rcases h.display with ⟨-, hp⟩ | ⟨hn, -⟩
  · exact absurd (h.computed.2 hp) hj
  · exact hn

theorem of_zeroText (hd : c.display = zeroText) (hc : c.justComputed = true ↔ c.phase = .result) :
    c.Legible := by
  refine ⟨hc, .inr ?_, fun _ => hd⟩
  rw [hd]
  exact ⟨isNumber_digit rfl, .inr isReadable_zeroText⟩

theorem start (history : History) : (Calculator.start history).Legible :=
  of_zeroText rfl (by simp [Calculator.start])

theorem typeDigit (h : c.Legible) {d : Char} (hd : d.isDigit = true) : (c.typeDigit d).Legible := by
  unfold Calculator.typeDigit
  split
  · exact ⟨by simp, .inr ⟨isNumber_digit hd, .inl rfl⟩, by simp⟩
  · rename_i hj
    refine ⟨by simp [hj], .inr ⟨?_, .inl rfl⟩, by simp⟩
    dsimp only
    split
    · exact isNumber_digit hd
    · exact (h.isNumber_of_not_computed hj).append_digit hd

theorem typePoint (h : c.Legible) : c.typePoint.Legible := by
  unfold Calculator.typePoint
  split
  · exact h
  · rename_i hp
    rw [not_or] at hp
    obtain ⟨hn, hr⟩ := h.display.resolve_left fun he => hp.1 he.1
    obtain ⟨hn', hr'⟩ := hn.append_point hp.2
    by_cases hj : c.justComputed = true
    · have hresult := h.computed.1 hj
      refine ⟨by simp [hj, hresult], .inr ⟨hn', ?_⟩, by simp [hj, hresult]⟩
      rw [hr', if_pos hj]
      exact hr
    · exact ⟨by simp [hj], .inr ⟨hn', .inl (if_neg hj)⟩, by simp [hj]⟩

theorem flipSign (h : c.Legible) : c.flipSign.Legible := by
  unfold Calculator.flipSign
  split
  · exact h
  · rename_i hz
    rw [not_or] at hz
    obtain ⟨hn, hr⟩ := h.display.resolve_left fun he => hz.2 he.1
    obtain ⟨hn', hr'⟩ := hn.negated hz.1
    refine ⟨h.computed, .inr ⟨hn', ?_⟩, fun hi => absurd (h.idle hi) hz.1⟩
    rw [hr']
    exact hr

/-- The lone zero of a cleared display is its own hundredth. -/
theorem number_hundredth {v : Float} (hv : Numeral.read? zeroText = some v) :
    Display.number (v / 100) = zeroText := by
  have hz : Numeral.read? zeroText = some 0 := by decide +kernel
  cases hz.symm.trans hv
  decide +kernel

theorem takePercent (h : c.Legible) : c.takePercent.Legible := by
  unfold Calculator.takePercent
  split
  · exact h
  · rename_i v hv
    have hn := isNumber_number (Double.isFinite_div_hundred (Numeral.isFinite_of_read hv))
    refine ⟨?_, .inr ⟨hn.1, .inr hn.2⟩, fun hi => ?_⟩
    · rw [h.computed]
      dsimp only
      split
      · rename_i hp
        simp [hp]
      · rfl
    · have hc : c.phase = .cleared := by
        dsimp only at hi
        split at hi
        · simp at hi
        · rename_i hp
          exact hi.resolve_right hp
      rw [h.idle (.inl hc)] at hv
      exact number_hundredth hv

theorem typeOperator (o : Operator) : (c.typeOperator o).Legible :=
  of_zeroText rfl (by simp [Calculator.typeOperator])

theorem showOutcome {r : Except EvalError Float} (hr : ∀ v, r = .ok v → v.isFinite = true) :
    (c.showOutcome r).Legible := by
  cases r with
  | ok v =>
    have hn := isNumber_number (hr v rfl)
    exact ⟨by simp [Calculator.showOutcome], .inr ⟨hn.1, .inr hn.2⟩,
      by simp [Calculator.showOutcome]⟩
  | error e =>
    exact ⟨by simp [Calculator.showOutcome], .inl ⟨rfl, rfl⟩, by simp [Calculator.showOutcome]⟩

/-- Every key leaves the display legible. -/
theorem next (h : c.Legible) (i : Input) : (c.next i).Legible :=
  respond_cases c i h (fun _ => h.typeDigit) h.typePoint (fun _ => h.flipSign)
    (fun _ => h.takePercent) typeOperator
    (showOutcome fun _ => Expression.isFinite_of_evaluate) (start _)
    ⟨h.computed, h.display, h.idle⟩

theorem run (h : c.Legible) (is : List Input) : (c.run is).Legible :=
  run_induction (fun _ i hc => hc.next i) h is

end Legible

end Calculator

/-! ## Runs -/

namespace Device

theorem legible_run [HistoryFormat] {σ : Type} [Store σ] (s : σ) (is : List Input) :
    ((start s).run is).calculator.Legible :=
  run_invariant Calculator.Legible.start (fun _ i h => h.next i) s is

/-- After every run the display holds an error, which is a result, or a number of the grammar. Only
a number that is being typed may be unreadable, and only because it is too large. -/
theorem display_run [HistoryFormat] {σ : Type} [Store σ] (s : σ) (is : List Input) :
    let c := ((start s).run is).calculator
    (c.display = Calculator.errorText ∨ c.display ∈ Display.grammar) ∧
    c.display.count '.' ≤ 1 ∧
    c.display ∉ [[], "-".toList, "-0".toList, "inf".toList, "NaN".toList] ∧
    (c.display = Calculator.errorText → c.phase = .result) ∧
    (c.display ≠ Calculator.errorText → Numeral.read? c.display = none →
      c.phase = .typing ∧ Numeral.hasShape c.display = true ∧
        ∃ v, Decimal.float? (c.display.filter (· != ',')) = some v ∧ v.isFinite = false) ∧
    (c.phase = .cleared ∨ c.phase = .operatorPending → c.display = Calculator.zeroText) ∧
    (c.phase = .result →
      c.display = Calculator.errorText ∨ (Numeral.read? c.display).isSome = true) := by
  intro c
  have h : c.Legible := legible_run s is
  rcases h.display with ⟨hd, hp⟩ | ⟨⟨⟨p, hd⟩, hz⟩, hr⟩
  · refine ⟨.inl hd, ?_, ?_, fun _ => hp, fun hne => absurd hd hne, h.idle, fun _ => .inl hd⟩
    · rw [hd]
      decide
    · rw [hd]
      decide
  · refine ⟨.inr (hd ▸ p.text_mem_grammar), ?_, ?_, fun he => ?_, fun _ hn => ?_, h.idle,
      fun hp => ?_⟩
    · rw [hd, p.count_point_text]
      split <;> decide
    · rw [hd] at hz ⊢
      simp only [List.mem_cons, List.not_mem_nil, or_false, not_or]
      exact ⟨p.text_ne rfl, p.text_ne rfl, hz, p.text_ne rfl, p.text_ne rfl⟩
    · exact absurd he (Calculator.IsNumber.ne_errorText ⟨⟨p, hd⟩, hz⟩)
    · have hfalse : Calculator.isReadable c.display = false := by
        rw [Calculator.isReadable, hn]
        rfl
      refine ⟨hr.resolve_right (by simp [hfalse]), hd ▸ p.hasShape_text, p.value, ?_, ?_⟩
      · rw [hd]
        exact p.float?_filter_text
      · rwa [hd, Calculator.isReadable_text] at hfalse
    · exact .inr (hr.resolve_left (by simp [hp]))

end Device

end PocketCalc
