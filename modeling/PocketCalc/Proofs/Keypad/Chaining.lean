import PocketCalc.History.Json
import PocketCalc.Proofs.Expression.Scan
import PocketCalc.Proofs.Keypad.Calculation
import PocketCalc.Proofs.Keypad.Coherent
import PocketCalc.Storage.Memory

/-!
# Going on from a result

An operator behind a result makes a new expression that begins with what is on the display: digits
in groups, a sign, an exponent, a bare point, whatever the keys behind the result have made of it.
That text is one word and reads as a number, so the new expression has a value unless the new
numeral has none or the operator cannot be applied. Of all that was done before only the
display counts, and the history that the new entry goes into.

* `Link.toOption_evaluate_append_of_value`: the value of an expression with a link behind it.
* `Calculator.run_pressing_result`, `Calculator.run_link_result`: a link typed behind a result.
* `Device.chain_run`: the calculator after a link behind a result and the equals key.
-/

namespace PocketCalc

namespace Link

/-- What the link comes to behind a text, if the text and the numeral stand for numbers and the
operator can be applied to them. -/
def chained? (l : Link) (t : Text) : Option Float := do
  let a ← Numeral.read? t
  let b ← Numeral.read? l.numeral.text
  (l.operator.apply a b).toOption

/-- Behind an expression that has a value the link comes to what it comes to behind any text of that
value. -/
theorem toOption_evaluate_append_of_value (l : Link) {t u : Text} {a : Float}
    (ht : Expression.evaluate t = .ok a) (hu : Numeral.read? u = some a) :
    (Expression.evaluate (t ++ l.text)).toOption = l.chained? u := by
  have h := Calculation.toOption_evaluate_append_links ht [l]
  rw [List.flatMap_singleton] at h
  rw [h, chained?, hu, List.mapM_cons, List.mapM_nil, Link.read?]
  cases Numeral.read? l.numeral.text with
  | none => rfl
  | some b => cases hr : l.operator.apply a b <;> simp [Calculation.applyAll, hr]

theorem toOption_evaluate_append (l : Link) {t : Text} {a : Float} (ht : t.words = [t])
    (ha : Numeral.read? t = some a) :
    (Expression.evaluate (t ++ l.text)).toOption = l.chained? t :=
  l.toOption_evaluate_append_of_value
    (Expression.evaluate_of_word ht (Token.ofWord_eq_number_iff.2 ha)) ha

end Link

namespace Calculator

/-- A number that is shown as a result is a number of the display, and it can be read. -/
theorem Legible.result {c : Calculator} (h : c.Legible) (hr : c.phase = .result)
    (hd : c.display ≠ errorText) : IsNumber c.display ∧ ∃ a, Numeral.read? c.display = some a := by
  obtain ⟨hn, ht | ha⟩ := h.display.resolve_left fun he => hd he.1
  · exact absurd (hr.symm.trans ht) (by simp)
  · exact ⟨hn, Option.isSome_iff_exists.1 ha⟩

/-- Of operators typed in a row behind a result the last one stands behind the display. -/
theorem run_pressing_result {c : Calculator} {os : List Operator} (hne : os ≠ [])
    (hj : c.justComputed = true) (hn : IsNumber c.display) :
    c.run (pressing os) = { c with
      display := zeroText
      expression := c.display ++ spaced (os.getLast hne)
      justComputed := false
      phase := .operatorPending } := by
  obtain ⟨o, os, rfl⟩ := List.exists_cons_of_ne_nil hne
  have ho : c.typeOperator o = { c with
      display := zeroText
      expression := c.display ++ spaced o
      justComputed := false
      phase := .operatorPending } := by
    simp [typeOperator, hj]
  show (c.typeOperator o).run (pressing os) = _
  by_cases hos : os = []
  · subst hos
    exact ho
  · have hend := hn.endsIn.mono fun _ => IsOperandEnd.isOperandChar
    rw [run_pressing hos (.inr hend) rfl (.inr ⟨rfl, o, by rw [ho]⟩), ho]
    simp [List.getLast_cons hos]

/-- A link typed behind a result stands behind the display. -/
theorem run_link_result {c : Calculator} (l : Link) (hj : c.justComputed = true)
    (hn : IsNumber c.display) : ∃ t, c.run l.inputs = { c with
      display := t, expression := c.display ++ l.text, justComputed := false, phase := .typing } := by
  have ho := run_pressing_result l.nonempty hj hn
  obtain ⟨t, ht⟩ := run_typing (c := c.run (pressing l.operators)) l.numeral.parts (by rw [ho])
    (by rw [ho]; simp [zeroText, errorText]) (by rw [ho]; simpa [zeroText] using l.numeral.points)
    (.inl l.numeral.text_ne_nil)
  refine ⟨t, ?_⟩
  rw [Link.inputs, run_append, ht, ho]
  simp [Link.text, Link.operator]

end Calculator

namespace Device

/-- Where a run ends with a result that is no error, operators and a numeral typed behind it make an
expression of the display, the last of the operators and the numeral. The display reads as a number.
The equals key shows what the operator gives for it and the numeral, and puts that into the history,
or it shows an error and leaves the history as it was. -/
theorem chain_run [HistoryFormat] {σ : Type} [Store σ] (s : σ) (is : List Input) (l : Link)
    (hr : ((start s).run is).calculator.phase = .result)
    (hd : ((start s).run is).calculator.display ≠ Calculator.errorText) :
    let c := ((start s).run is).calculator
    let t := c.display ++ ' ' :: l.operator.symbol ++ ' ' :: l.numeral.text
    (∃ a, Numeral.read? c.display = some a) ∧
    ((start s).run (is ++ l.inputs)).calculator.expression = t ∧
    ((start s).run (is ++ l.inputs ++ [.key .equals])).calculator =
      match l.chained? c.display with
      | some v => ⟨Display.number v, t, true, .result, c.history.record ⟨t, Display.number v⟩⟩
      | none => ⟨Calculator.errorText, t, true, .result, c.history⟩ := by
  intro c t
  have hlegible : c.Legible := legible_run s is
  obtain ⟨hn, a, ha⟩ := hlegible.result hr hd
  have ht : t = c.display ++ l.text := by simp [t, Link.text, Calculator.spaced]
  obtain ⟨u, hu⟩ := Calculator.run_link_result l (hlegible.computed.2 hr) hn
  have hlink : ((start s).run (is ++ l.inputs)).calculator = { c with
      display := u, expression := t, justComputed := false, phase := .typing } := by
    rw [run_append, calculator_run, ht]
    exact hu
  refine ⟨⟨a, ha⟩, by rw [hlink], ?_⟩
  have hv := l.toOption_evaluate_append hn.words_eq ha
  rw [← ht] at hv
  rw [run_append, calculator_run, hlink, Calculator.run_cons, Calculator.run_nil,
    Calculator.next_equals, ← hv]
  cases Expression.evaluate t with
  | ok v => rfl
  | error e => rfl

/-- A result in groups that got a sign and a bare point. -/
theorem chain_run_of_altered :
    let is : List Input := [.key (.digit '1'), .key (.digit '2'), .key (.digit '3'),
      .key (.digit '4'), .key .equals, .key .sign, .key .point]
    let l : Link := ⟨[.plus, .times], by simp,
      ⟨['2'], by simp, by simp, '2', by simp, by simp⟩⟩
    let c := ((start MemoryStore.empty).run is).calculator
    let t := c.display ++ ' ' :: l.operator.symbol ++ ' ' :: l.numeral.text
    c.phase = .result ∧ c.display ≠ Calculator.errorText ∧ t = "-1,234. × 2".toList ∧
    (∃ a, Numeral.read? c.display = some a) ∧
    ((start MemoryStore.empty).run (is ++ l.inputs)).calculator.expression = t ∧
    ((start MemoryStore.empty).run (is ++ l.inputs ++ [.key .equals])).calculator =
      match l.chained? c.display with
      | some v => ⟨Display.number v, t, true, .result, c.history.record ⟨t, Display.number v⟩⟩
      | none => ⟨Calculator.errorText, t, true, .result, c.history⟩ := by
  intro is l c t
  have hr : c.phase = .result := by decide +kernel
  have hd : c.display ≠ Calculator.errorText := by decide +kernel
  have ht : t = "-1,234. × 2".toList := by decide +kernel
  exact ⟨hr, hd, ht, chain_run MemoryStore.empty is l hr hd⟩

end Device

end PocketCalc
