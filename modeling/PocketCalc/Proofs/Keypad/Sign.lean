import PocketCalc.Proofs.Keypad.Legible

/-!
# The sign of the display

The sign key puts a minus sign in front of the display or takes it away. A number of the display's
grammar has one minus sign at most, and none of them is a signed zero, so a second press finds the
other sign and not a lone zero. Whether the number can be read does not depend on its sign.

* `Display.Parts.value_negate`, `Calculator.read?_negated`: what the other sign makes of a number.
* `Calculator.negated_negated`, `Calculator.negated_ne`: what undoes it.
* `Calculator.Legible.flipSign_flipSign`: two signs on a legible display.
* `Device.sign_run`: the sign key after every run.
-/

namespace PocketCalc

namespace Display.Parts

theorem negate_negate (p : Parts) : p.negate.negate = p := by
  unfold negate
  simp

theorem value_negate {p : Parts} (h : p.value.isFinite = true) : p.negate.value = -p.value := by
  have hfinite : p.decimal.toFloat.isFinite = true := by rwa [← p.isFinite_value]
  have hdecimal : p.negate.decimal = p.decimal := rfl
  have hnegative : p.negate.negative = !p.negative := rfl
  unfold value
  rw [hdecimal, hnegative]
  cases p.negative with
  | false => rfl
  | true => exact (Double.neg_neg hfinite).symm

end Display.Parts

namespace Calculator

open Display (Parts)

/-! ## Numbers -/

/-- The other sign in front of a number makes it the opposite number. -/
theorem read?_negated {t : Text} (h : IsNumber t) :
    Numeral.read? (negated t) = (Numeral.read? t).map fun v => -v := by
  obtain ⟨⟨p, rfl⟩, -⟩ := h
  rw [negated_text, p.negate.read?_text, p.read?_text, p.isFinite_value_negate]
  split
  · rename_i hfinite
    rw [Option.map_some, Parts.value_negate hfinite]
  · rfl

theorem negated_negated {t : Text} (h : IsNumber t) : negated (negated t) = t := by
  obtain ⟨⟨p, rfl⟩, -⟩ := h
  rw [negated_text, negated_text, p.negate_negate]

/-- The other sign never makes a lone zero or an error. -/
theorem negated_ne {t : Text} (h : IsNumber t) (hz : t ≠ zeroText) :
    negated t ≠ zeroText ∧ negated t ≠ errorText := by
  refine ⟨fun h0 => ?_, (h.negated hz).1.ne_errorText⟩
  have ht := negated_negated h
  rw [h0] at ht
  exact h.2 ht.symm

theorem negated_eq_or (t : Text) : negated t = '-' :: t ∨ t = '-' :: negated t := by
  unfold negated
  split
  · exact .inr rfl
  · exact .inl rfl

/-! ## The sign key -/

theorem flipSign_eq_self {c : Calculator} (h : c.display = zeroText ∨ c.display = errorText) :
    c.flipSign = c := if_pos h

theorem flipSign_eq {c : Calculator} (h : ¬ (c.display = zeroText ∨ c.display = errorText)) :
    c.flipSign = { c with display := negated c.display } := if_neg h

namespace Legible

variable {c : Calculator}

theorem isNumber_of_ne (h : c.Legible) (he : c.display ≠ errorText) : IsNumber c.display :=
  (h.display.resolve_left fun hd => he hd.1).1

/-- The second press takes back the first one. -/
theorem flipSign_flipSign (h : c.Legible) : c.flipSign.flipSign = c := by
  by_cases hz : c.display = zeroText ∨ c.display = errorText
  · rw [flipSign_eq_self hz, flipSign_eq_self hz]
  · obtain ⟨h0, he⟩ := not_or.1 hz
    have hn := h.isNumber_of_ne he
    obtain ⟨h0', he'⟩ := negated_ne hn h0
    have hz' : ¬ (c.flipSign.display = zeroText ∨ c.flipSign.display = errorText) := by
      rw [flipSign_eq hz]
      exact not_or.2 ⟨h0', he'⟩
    rw [flipSign_eq hz', flipSign_eq hz]
    dsimp only
    rw [negated_negated hn]

end Legible

end Calculator

/-! ## Runs -/

namespace Device

/-- After every run the sign key changes nothing but the display, and a second press restores all of
the device. A lone zero and an error stay as they are. Any other display gets a minus sign or loses
it, and then stands for the opposite number, or for none if it stood for none. -/
theorem sign_run [HistoryFormat] {σ : Type} [Store σ] (s : σ) (is : List Input) :
    let d := (start s).run is
    let e := d.step (.key .sign)
    e.step (.key .sign) = d ∧
    e = { d with calculator := { d.calculator with display := e.calculator.display } } ∧
    (d.calculator.display = "0".toList ∨ d.calculator.display = "Error".toList → e = d) ∧
    (¬ (d.calculator.display = "0".toList ∨ d.calculator.display = "Error".toList) →
      (e.calculator.display = '-' :: d.calculator.display ∨
        d.calculator.display = '-' :: e.calculator.display) ∧
      Numeral.read? e.calculator.display =
        (Numeral.read? d.calculator.display).map fun v => -v) := by
  intro d e
  have h : d.calculator.Legible := legible_run s is
  have he : e = { d with calculator := d.calculator.flipSign } := rfl
  refine ⟨?_, ?_, fun hz => ?_, fun hz => ?_⟩
  · show ({ d with calculator := d.calculator.flipSign.flipSign } : Device σ) = d
    rw [h.flipSign_flipSign]
  · rw [he]
    dsimp only
    unfold Calculator.flipSign
    split <;> rfl
  · rw [he, Calculator.flipSign_eq_self hz]
  · have hn := h.isNumber_of_ne (not_or.1 hz).2
    rw [he, Calculator.flipSign_eq hz]
    exact ⟨Calculator.negated_eq_or _, Calculator.read?_negated hn⟩

end Device

end PocketCalc
