import PocketCalc.Proofs.Expression.Alternation
import PocketCalc.Proofs.Expression.Resume
import PocketCalc.Proofs.Keypad.Run

/-!
# Calculations typed key by key

A calculation is a numeral and links that follow it: operators typed in a row, of which the last one
counts, and another numeral. Typed behind the clear key it leaves its text as the expression, and
the equals key shows what the operators give from left to right.

* `Calculation.words_text`: the evaluator cuts the text back into the operators and numerals.
* `Calculation.toOption_evaluate`: the value of the text is the left fold over the numbers read.
* `Calculator.run_typing`, `Calculator.run_pressing`, `Calculator.run_links`: what typing leaves
  behind.
* `Calculation.run_inputs`: all of it together.
-/

namespace PocketCalc

/-- A numeral as it can be typed: digits with at most one point, and one digit at least. -/
structure TypedNumeral where
  text : Text
  parts : ∀ c ∈ text, c.isDigit = true ∨ c = '.'
  points : text.count '.' ≤ 1
  digit : ∃ c ∈ text, c.isDigit = true

/-- Operators typed in a row and the numeral behind them. -/
structure Link where
  operators : List Operator
  nonempty : operators ≠ []
  numeral : TypedNumeral

/-- A calculation as it is typed. -/
structure Calculation where
  first : TypedNumeral
  links : List Link

/-- The key of a character of a numeral. -/
def charKey (c : Char) : Key := if c = '.' then .point else .digit c

/-- The keys of a numeral. -/
def typing (t : Text) : List Input := t.map fun c => .key (charKey c)

/-- The keys of some operators. -/
def pressing (os : List Operator) : List Input := os.map fun o => .key (.operator o)

namespace Link

/-- The operator that counts. -/
def operator (l : Link) : Operator := l.operators.getLast l.nonempty

/-- The link as it stands in an expression. -/
def text (l : Link) : Text := Calculator.spaced l.operator ++ l.numeral.text

/-- The keys of the link. -/
def inputs (l : Link) : List Input := pressing l.operators ++ typing l.numeral.text

/-- The operator and the number behind it, if the numeral stands for one. -/
def read? (l : Link) : Option (Operator × Float) :=
  (Numeral.read? l.numeral.text).map fun v => (l.operator, v)

end Link

namespace Calculation

/-- The calculation as it stands in an expression. -/
def text (x : Calculation) : Text := x.first.text ++ x.links.flatMap Link.text

/-- The keys of the calculation, from the clear key to the equals key. -/
def inputs (x : Calculation) : List Input :=
  .key .clear :: typing x.first.text ++ x.links.flatMap Link.inputs ++ [.key .equals]

/-- The operators applied from left to right, each to what is there so far and to its number. -/
def applyAll (total : Float) (steps : List (Operator × Float)) : Except EvalError Float :=
  steps.foldlM (fun total step => step.1.apply total step.2) total

/-- What the calculation comes to, if all its numerals stand for numbers and all its operators can
be applied. -/
def value? (x : Calculation) : Option Float := do
  let v ← Numeral.read? x.first.text
  let steps ← x.links.mapM Link.read?
  (applyAll v steps).toOption

end Calculation

/-! ## Texts of numerals -/

namespace TypedNumeral

theorem text_ne_nil (n : TypedNumeral) : n.text ≠ [] := by
  obtain ⟨c, hc, -⟩ := n.digit
  exact List.ne_nil_of_mem hc

theorem isOperandChar (n : TypedNumeral) : ∀ c ∈ n.text, Expression.IsOperandChar c := by
  intro c hc
  rcases n.parts c hc with h | rfl
  · exact Expression.isOperandChar_of_isDigit h
  · exact Expression.isOperandChar_point

theorem endsIn_append (t : Text) (n : TypedNumeral) :
    Text.EndsIn Expression.IsOperandChar (t ++ n.text) :=
  (Text.endsIn_of_forall n.text_ne_nil n.isOperandChar).append t

theorem words_eq (n : TypedNumeral) : n.text.words = [n.text] :=
  Text.words_singleton n.text_ne_nil fun c hc => (n.isOperandChar c hc).1

/-- A numeral is no operator. -/
theorem ofSymbol?_text (n : TypedNumeral) : Operator.ofSymbol? n.text = none := by
  have h := n.isOperandChar
  cases ht : n.text with
  | nil => rfl
  | cons c rest =>
    cases rest with
    | nil => exact (h c (by simp [ht])).2
    | cons d rest => rfl

theorem ofWord_text (n : TypedNumeral) {v : Float} (h : Numeral.read? n.text = some v) :
    Token.ofWord n.text = .ok (.number v) := by
  simp [Token.ofWord, n.ofSymbol?_text, Numeral.parse_eq_ok_iff.2 h, Except.map]

theorem ofWord_text_of_none (n : TypedNumeral) (h : Numeral.read? n.text = none) :
    Token.ofWord n.text = .error (.badNumeral n.text) := by
  simp [Token.ofWord, n.ofSymbol?_text, Numeral.parse_of_none h, Except.map]

end TypedNumeral

namespace Calculation

/-- The words of a row of links. -/
def linkWords (ls : List Link) : List Text :=
  ls.flatMap fun l => [l.operator.symbol, l.numeral.text]

/-- The tokens of operators and numbers. -/
def stepTokens (steps : List (Operator × Float)) : List Token :=
  steps.flatMap fun step => [.operator step.1, .number step.2]

theorem words_append_links (t : Text) (ls : List Link) :
    Text.words (t ++ ls.flatMap Link.text) = t.words ++ linkWords ls := by
  induction ls generalizing t with
  | nil => simp [linkWords]
  | cons l ls ih =>
    have hl : Text.words (t ++ Calculator.spaced l.operator ++ l.numeral.text) =
        t.words ++ [l.operator.symbol, l.numeral.text] := by
      have hs : t ++ Calculator.spaced l.operator = t ++ ' ' :: l.operator.symbol ++ [' '] := by
        simp [Calculator.spaced]
      have hn : ∀ c ∈ l.numeral.text, Text.isBlank c = false := fun c hc =>
        (l.numeral.isOperandChar c hc).1
      rw [Text.words_cut (.inr ⟨_, ' ', hs, rfl⟩) l.numeral.text_ne_nil hn,
        Expression.words_append_spaced]
      simp
    rw [List.flatMap_cons, ← List.append_assoc, ih, Link.text, ← List.append_assoc, hl]
    simp [linkWords]

theorem words_text (x : Calculation) : x.text.words = x.first.text :: linkWords x.links := by
  rw [text, words_append_links, x.first.words_eq]
  rfl

/-! ## The value of a text -/

/-- The words of links are read to the end exactly when all their numerals stand for numbers. -/
theorem ofWords_linkWords (ls : List Link) :
    (∀ steps, ls.mapM Link.read? = some steps →
      Token.ofWords (linkWords ls) = .ok (stepTokens steps)) ∧
    (ls.mapM Link.read? = none → ∃ e, Token.ofWords (linkWords ls) = .error e) := by
  induction ls with
  | nil =>
    refine ⟨fun steps h => ?_, fun h => ?_⟩
    · rw [List.mapM_nil] at h
      cases h
      rfl
    · simp at h
  | cons l ls ih =>
    have ho : Token.ofWord l.operator.symbol = .ok (.operator l.operator) := by
      simp [Token.ofWord, Operator.ofSymbol?_symbol]
    have hw : linkWords (l :: ls) = l.operator.symbol :: l.numeral.text :: linkWords ls := rfl
    rw [List.mapM_cons, hw]
    cases hr : Numeral.read? l.numeral.text with
    | none =>
      refine ⟨fun steps h => ?_, fun _ => ⟨.badNumeral l.numeral.text, ?_⟩⟩
      · simp [Link.read?, hr] at h
      · simp [Token.ofWords, ho, l.numeral.ofWord_text_of_none hr]
    | some v =>
      cases hm : ls.mapM Link.read? with
      | none =>
        obtain ⟨e, he⟩ := ih.2 hm
        refine ⟨fun steps h => ?_, fun _ => ⟨e, ?_⟩⟩
        · simp [Link.read?, hr] at h
        · simp [Token.ofWords, ho, l.numeral.ofWord_text hr, he]
      | some rest =>
        refine ⟨fun steps h => ?_, fun h => ?_⟩
        · have hs : (l.operator, v) :: rest = steps := by simpa [Link.read?, hr] using h
          simp [← hs, Token.ofWords, ho, l.numeral.ofWord_text hr, ih.1 rest hm, stepTokens]
        · simp [Link.read?, hr] at h

theorem continueWith_stepTokens (total : Float) (steps : List (Operator × Float)) :
    Expression.continueWith total (stepTokens steps) = applyAll total steps := by
  induction steps generalizing total with
  | nil => rfl
  | cons step steps ih =>
    have ht : stepTokens (step :: steps) =
        .operator step.1 :: .number step.2 :: stepTokens steps := rfl
    rw [ht, Expression.continueWith, applyAll, List.foldlM_cons]
    cases step.1.apply total step.2 with
    | error e => rfl
    | ok r => exact ih r

/-- Behind a text that has a value the operators of links are applied to that value, from left to
right. -/
theorem toOption_evaluate_append_links {t : Text} {v : Float}
    (h : Expression.evaluate t = .ok v) (ls : List Link) :
    (Expression.evaluate (t ++ ls.flatMap Link.text)).toOption =
      (ls.mapM Link.read?).bind fun steps => (applyAll v steps).toOption := by
  have hl := ofWords_linkWords ls
  rw [Expression.evaluate_of_words_append h (words_append_links t ls)]
  cases hm : ls.mapM Link.read? with
  | none =>
    obtain ⟨e, he⟩ := hl.2 hm
    rw [he]
    rfl
  | some steps =>
    rw [hl.1 steps hm]
    exact congrArg Except.toOption (continueWith_stepTokens v steps)

/-- The value of a typed text is the left fold of its operators over its numbers. -/
theorem toOption_evaluate (x : Calculation) :
    (Expression.evaluate x.text).toOption = x.value? := by
  unfold value?
  cases hr : Numeral.read? x.first.text with
  | none =>
    unfold Expression.evaluate Token.ofText
    rw [words_text, Token.ofWords, x.first.ofWord_text_of_none hr]
    rfl
  | some v =>
    exact toOption_evaluate_append_links
      (Expression.evaluate_of_word x.first.words_eq (x.first.ofWord_text hr)) x.links

end Calculation

/-! ## Typing -/

namespace Calculator

/-- A character of a numeral goes behind the expression, unless it is a second point. -/
theorem next_charKey {c : Calculator} {ch : Char} (hch : ch.isDigit = true ∨ ch = '.')
    (hj : c.justComputed = false) (hd : c.display ≠ errorText) (hp : ch = '.' → '.' ∉ c.display) :
    ∃ t, c.next (.key (charKey ch)) = { c with
        display := t, expression := c.expression ++ [ch], phase := .typing } ∧
      t ≠ errorText ∧ t.count '.' ≤ c.display.count '.' + [ch].count '.' := by
  by_cases hpt : ch = '.'
  · subst hpt
    refine ⟨c.display ++ ['.'], ?_, ?_, by simp⟩
    · simp [charKey, typePoint, hj, hd, hp rfl]
    · intro h
      simpa [errorText] using congrArg List.getLast? h
  · have hdig := hch.resolve_right hpt
    have hne : ch ≠ 'r' := by
      rintro rfl
      simp at hdig
    refine ⟨if c.display = zeroText then [ch] else c.display ++ [ch], ?_, ?_, ?_⟩
    · simp [charKey, hpt, next_digit c hdig, typeDigit, hj]
    · intro h
      have := congrArg List.getLast? h
      split at this <;> simp [errorText, hne] at this
    · split <;> simp

theorem run_typing {c : Calculator} {u : Text} (hu : ∀ ch ∈ u, ch.isDigit = true ∨ ch = '.')
    (hj : c.justComputed = false) (hd : c.display ≠ errorText)
    (hp : c.display.count '.' + u.count '.' ≤ 1) (hph : u ≠ [] ∨ c.phase = .typing) :
    ∃ t, c.run (typing u) =
      { c with display := t, expression := c.expression ++ u, phase := .typing } := by
  induction u generalizing c with
  | nil =>
    have := hph.resolve_left (by simp)
    exact ⟨c.display, by simp [typing, ← this]⟩
  | cons ch u ih =>
    rw [List.count_cons] at hp
    obtain ⟨t, hn, ht, hct⟩ := next_charKey (hu ch (by simp)) hj hd fun h => by
      rw [← List.count_eq_zero]
      simp [h] at hp
      omega
    obtain ⟨t', hr⟩ := ih (c := c.next (.key (charKey ch)))
      (fun d hd => hu d (List.mem_cons_of_mem _ hd)) (by rw [hn]; exact hj) (by rw [hn]; exact ht)
      (by
        rw [hn]
        simp only [List.count_singleton] at hct
        show t.count '.' + u.count '.' ≤ 1
        omega)
      (.inr (by rw [hn]))
    refine ⟨t', ?_⟩
    show (c.next (.key (charKey ch))).run (typing u) = _
    rw [hr, hn]
    simp

/-- Operators typed in a row behind a text leave the last of them. -/
theorem run_pressing {c : Calculator} {t : Text} {os : List Operator} (hne : os ≠ [])
    (ht : t = [] ∨ t.EndsIn Expression.IsOperandChar) (hj : c.justComputed = false)
    (hc : c.phase ≠ .operatorPending ∧ c.expression = t ∨
      c.phase = .operatorPending ∧ ∃ o, c.expression = t ++ spaced o) :
    c.run (pressing os) = { c with
      display := zeroText
      expression := t ++ spaced (os.getLast hne)
      phase := .operatorPending } := by
  induction os generalizing c with
  | nil => exact absurd rfl hne
  | cons o os ih =>
    have hn : c.next (.key (.operator o)) = { c with
        display := zeroText, expression := t ++ spaced o, phase := .operatorPending } := by
      rcases hc with ⟨hph, he⟩ | ⟨hph, o', he⟩
      · simp [typeOperator, hj, hph, he]
      · simp [typeOperator, hj, hph, he, Expression.dropOperator_append_spaced ht]
    show (c.next (.key (.operator o))).run (pressing os) = _
    cases os with
    | nil => exact hn
    | cons o' os =>
      rw [ih (by simp) (by rw [hn]; exact hj) (.inr (by rw [hn]; exact ⟨rfl, o, rfl⟩)), hn]
      simp [List.getLast_cons]

/-- Links typed behind an operand go behind the expression. -/
theorem run_links {c : Calculator} (ls : List Link)
    (he : c.expression.EndsIn Expression.IsOperandChar) (hj : c.justComputed = false)
    (hph : c.phase = .typing) :
    ∃ t, c.run (ls.flatMap Link.inputs) =
      { c with display := t, expression := c.expression ++ ls.flatMap Link.text } := by
  induction ls generalizing c with
  | nil => exact ⟨c.display, by simp⟩
  | cons l ls ih =>
    have ho := run_pressing (c := c) l.nonempty (.inr he) hj (.inl ⟨by simp [hph], rfl⟩)
    obtain ⟨t, ht⟩ := run_typing (c := c.run (pressing l.operators)) l.numeral.parts
      (by rw [ho]; exact hj) (by rw [ho]; simp [zeroText, errorText])
      (by rw [ho]; simpa [zeroText] using l.numeral.points) (.inl l.numeral.text_ne_nil)
    have hl : c.run l.inputs =
        { c with display := t, expression := c.expression ++ l.text, phase := .typing } := by
      rw [Link.inputs, run_append, ht, ho]
      simp [Link.text, Link.operator]
    obtain ⟨t', ht'⟩ := ih (c := c.run l.inputs)
      (by
        rw [hl, Link.text]
        simpa using l.numeral.endsIn_append (c.expression ++ spaced l.operator))
      (by rw [hl]; exact hj) (by rw [hl])
    refine ⟨t', ?_⟩
    rw [List.flatMap_cons, run_append, ht', hl]
    simp [hph]

end Calculator

/-- A typed calculation leaves its text as the expression. The equals key shows what it comes to and
puts that into the history, or shows an error and leaves the history as it was. -/
theorem Calculation.run_inputs [HistoryFormat] {σ : Type} [Store σ] (d : Device σ)
    (x : Calculation) :
    let c := (d.run x.inputs).calculator
    c.expression = x.text ∧
      match x.value? with
      | some v =>
        c.display = Display.number v ∧ c.history.entries =
          (⟨x.text, Display.number v⟩ :: d.calculator.history.entries).take History.capacity
      | none => c.display = Calculator.errorText ∧ c.history = d.calculator.history := by
  intro c
  obtain ⟨t, ht⟩ := Calculator.run_typing (c := d.calculator.clear) x.first.parts rfl
    (by simp [Calculator.clear, Calculator.start, Calculator.zeroText, Calculator.errorText])
    (by simpa [Calculator.clear, Calculator.start, Calculator.zeroText] using x.first.points)
    (.inl x.first.text_ne_nil)
  obtain ⟨t', ht'⟩ := Calculator.run_links
    (c := d.calculator.clear.run (typing x.first.text)) x.links
    (by rw [ht]; exact x.first.endsIn_append []) (by rw [ht]; rfl) (by rw [ht])
  have hc : c = (d.calculator.clear.run (typing x.first.text ++ x.links.flatMap Link.inputs)).next
      (.key .equals) := by
    show (d.run x.inputs).calculator = _
    rw [Device.calculator_run, Calculation.inputs, Calculator.run_append, Calculator.run_append,
      Calculator.run_append]
    rfl
  have he : c = Calculator.showOutcome { d.calculator.clear with
      display := t', expression := x.text, phase := .typing } (Expression.evaluate x.text) := by
    rw [hc, Calculator.run_append, ht', ht]
    rfl
  have hv := x.toOption_evaluate
  rw [he, ← hv]
  cases Expression.evaluate x.text with
  | ok v => exact ⟨rfl, rfl, rfl⟩
  | error e => exact ⟨rfl, rfl, rfl⟩

end PocketCalc
