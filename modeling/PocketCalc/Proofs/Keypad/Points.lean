import PocketCalc.History.Json
import PocketCalc.Proofs.Keypad.Coherent
import PocketCalc.Storage.Memory

/-!
# Points in an expression

The point key looks for a point on the display, and puts its own there and behind the expression. As
long as a numeral is typed the display and the last word agree on points. Behind a result they do
not, and neither do they behind a percent mark; there a word that has a point can get another, and
keeps it until the expression is started afresh.

* `Calculator.Guarded.next`: while a numeral is typed the display shows the points of the last word.
* `Calculator.onePoint_next_iff`: what an input does to the points of an expression.
* `Device.points_run`: when every word of the expression has one point at most.
* `Device.two_points_behind_sum`: a word with two points, and no percent key.
-/

namespace PocketCalc

namespace Expression

/-- Every word of the text has one point at most. -/
def OnePoint (t : Text) : Prop := ∀ w ∈ t.words, w.count '.' ≤ 1

theorem count_point_symbol (o : Operator) : o.symbol.count '.' = 0 := by cases o <;> decide

theorem onePoint_nil : OnePoint [] := by simp [OnePoint]

/-- A character makes a second point only behind a word with a point. -/
theorem onePoint_append_char_iff {x : Char} (hx : Text.isBlank x = false) (t : Text) :
    OnePoint (t ++ [x]) ↔ OnePoint t ∧ ¬ (x = '.' ∧ '.' ∈ t.ending) := by
  unfold OnePoint
  rw [Text.forall_words_append_char_iff hx, Text.forall_words_iff (by simp) t, and_assoc]
  refine and_congr_right fun _ => ?_
  rw [List.count_append, ← List.count_pos_iff]
  by_cases hp : x = '.'
  · subst hp
    simp only [List.count_singleton_self, true_and]
    omega
  · simp [hp]

/-- What holds of no operator less than of the words before it. -/
theorem forall_words_append_spaced_iff {P : Text → Prop} (hP : ∀ o : Operator, P o.symbol) (t : Text)
    (o : Operator) : (∀ w ∈ Text.words (t ++ Calculator.spaced o), P w) ↔ ∀ w ∈ t.words, P w := by
  simp [words_append_spaced, or_imp, forall_and, hP o]

theorem onePoint_append_spaced_iff (t : Text) (o : Operator) :
    OnePoint (t ++ Calculator.spaced o) ↔ OnePoint t :=
  forall_words_append_spaced_iff (P := fun w => w.count '.' ≤ 1)
    (fun o => by simp [count_point_symbol o]) t o

end Expression

namespace Calculator

open Expression (OnePoint)

/-! ## Second points -/

/-- The point key puts a point behind a word that has one. -/
def DoublesPoint (c : Calculator) (i : Input) : Prop :=
  i = .key .point ∧ c.display ≠ errorText ∧ '.' ∉ c.display ∧ '.' ∈ Text.ending c.expression

/-- Whether an input makes a new expression, and not the old one longer. -/
def startsAfresh (c : Calculator) : Input → Bool
  | .key (.digit d) => c.justComputed && d.isDigit
  | .key (.operator _) => c.justComputed
  | .key .clear => true
  | .key .point | .key .sign | .key .percent | .key .equals | .clearHistory => false

/-- The inputs of a run since the expression was last started afresh, each with the calculator that
it found, the latest first. -/
def sinceFresh (c : Calculator) (is : List Input) : List (Calculator × Input) :=
  (c.trace is).reverse.takeWhile fun x => !x.1.startsAfresh x.2

theorem sinceFresh_append_singleton (c : Calculator) (is : List Input) (i : Input) :
    c.sinceFresh (is ++ [i]) =
      if (c.run is).startsAfresh i then [] else (c.run is, i) :: c.sinceFresh is := by
  rw [sinceFresh, trace_append, trace, trace, List.reverse_append, List.reverse_singleton,
    List.singleton_append, List.takeWhile_cons, sinceFresh]
  cases (c.run is).startsAfresh i <;> rfl

theorem IsNumber.count_point_le {t : Text} (h : IsNumber t) : t.count '.' ≤ 1 := by
  obtain ⟨⟨p, rfl⟩, -⟩ := h
  rw [p.count_point_text]
  split <;> decide

theorem Legible.onePoint_display {c : Calculator} (h : c.Legible) : OnePoint c.display := by
  intro w hw
  rcases h.display with ⟨he, -⟩ | ⟨hn, -⟩
  · rw [he, show Text.words errorText = [errorText] from rfl] at hw
    rw [List.mem_singleton.1 hw]
    decide
  · rw [hn.words_eq] at hw
    rw [List.mem_singleton.1 hw]
    exact hn.count_point_le

/-- An expression that is started afresh has no second point. -/
theorem Coherent.onePoint_next_of_startsAfresh {c : Calculator} (h : c.Coherent) {i : Input}
    (hi : c.startsAfresh i = true) : OnePoint (c.next i).expression := by
  cases i with
  | clearHistory => simp [startsAfresh] at hi
  | key k =>
    cases k with
    | digit d =>
      obtain ⟨hj, hd⟩ := Bool.and_eq_true_iff.1 hi
      have he : (c.next (.key (.digit d))).expression = [] ++ [d] := by
        simp [next_digit c hd, Calculator.typeDigit, hj]
      rw [he, Expression.onePoint_append_char_iff (Expression.isOperandChar_of_isDigit hd).1]
      exact ⟨Expression.onePoint_nil, by simp⟩
    | operator o =>
      obtain ⟨p, he, -, ⟨-, rfl⟩ | ⟨hj, -⟩⟩ := h.typeOperator_cases o
      · rw [next_operator, he, Expression.onePoint_append_spaced_iff]
        exact h.legible.onePoint_display
      · exact absurd (hj.symm.trans hi) (by simp)
    | clear => exact Expression.onePoint_nil
    | _ => simp [startsAfresh] at hi

/-- Otherwise a second point comes from a point behind a word that has one, and it stays. -/
theorem Coherent.onePoint_next_iff {c : Calculator} (h : c.Coherent) {i : Input}
    (hi : c.startsAfresh i = false) :
    OnePoint (c.next i).expression ↔ OnePoint c.expression ∧ ¬ c.DoublesPoint i := by
  have hsame : ∀ {i}, i ≠ .key .point → (c.next i).expression = c.expression →
      (OnePoint (c.next i).expression ↔ OnePoint c.expression ∧ ¬ c.DoublesPoint i) := by
    intro i hp he
    rw [he]
    exact ⟨fun ho => ⟨ho, fun hd => hp hd.1⟩, And.left⟩
  cases i with
  | clearHistory => exact hsame (by simp) rfl
  | key k =>
    cases k with
    | digit d =>
      by_cases hd : d.isDigit = true
      · have hj : c.justComputed = false := by simpa [startsAfresh, hd] using hi
        have he : (c.next (.key (.digit d))).expression = c.expression ++ [d] := by
          simp [next_digit c hd, Calculator.typeDigit, hj]
        rw [he, Expression.onePoint_append_char_iff (Expression.isOperandChar_of_isDigit hd).1]
        have hp : d ≠ '.' := Text.ne_of_isDigit hd rfl
        simp [hp, DoublesPoint]
      · exact hsame (by simp) (by rw [next_digit_of_not c hd])
    | point =>
      rw [next_point, Calculator.typePoint]
      by_cases hp : c.display = errorText ∨ '.' ∈ c.display
      · rw [if_pos hp]
        exact ⟨fun ho => ⟨ho, fun hd => hp.elim hd.2.1 hd.2.2.1⟩, And.left⟩
      · rw [if_neg hp]
        rw [not_or] at hp
        simp [Expression.onePoint_append_char_iff (show Text.isBlank '.' = false by decide),
          DoublesPoint, hp]
    | sign => exact hsame (by simp) (by simp)
    | percent =>
      rw [next_percent, Calculator.takePercent]
      cases Numeral.read? c.display with
      | none => simp [DoublesPoint]
      | some v =>
        simp [Expression.onePoint_append_char_iff (show Text.isBlank '%' = false by decide),
          DoublesPoint]
    | operator o =>
      obtain ⟨p, he, -, ⟨hj, -⟩ | ⟨-, hp⟩⟩ := h.typeOperator_cases o
      · exact absurd (hj.symm.trans hi) (by simp)
      · have hpe : OnePoint p ↔ OnePoint c.expression := by
          rcases hp with rfl | ⟨o', ho'⟩
          · rfl
          · rw [ho', Expression.onePoint_append_spaced_iff]
        rw [next_operator, he, Expression.onePoint_append_spaced_iff, hpe]
        simp [DoublesPoint]
    | equals => exact hsame (by simp) (by simp)
    | clear => simp [startsAfresh] at hi

/-- The points of a run: there is no second one exactly when none was made since the expression was
last started afresh. -/
theorem Coherent.onePoint_run_iff {c : Calculator} (h : c.Coherent) (ho : OnePoint c.expression)
    (is : List Input) :
    OnePoint (c.run is).expression ↔ ∀ x ∈ c.sinceFresh is, ¬ x.1.DoublesPoint x.2 := by
  induction is using List.reverseRecOn with
  | nil => simpa [sinceFresh, trace] using ho
  | append_singleton is i ih =>
    have hrun : (c.run is).Coherent := run_induction (fun _ i hc => hc.next i) h is
    rw [run_append, run_cons, run_nil, sinceFresh_append_singleton]
    cases hi : (c.run is).startsAfresh i with
    | true => simpa using hrun.onePoint_next_of_startsAfresh hi
    | false =>
      rw [hrun.onePoint_next_iff hi, ih, if_neg (by simp), List.forall_mem_cons, and_comm]

/-! ## Where a second point can come from -/

theorem point_mem_negated_iff (t : Text) : '.' ∈ negated t ↔ '.' ∈ t := by
  unfold negated
  split <;> simp

/-- While no result is shown, a last word without a percent mark has a point only if the display
has one, so no word without a percent mark has two. -/
structure Guarded (c : Calculator) : Prop where
  coherent : c.Coherent
  display : c.justComputed = false → '%' ∉ Text.ending c.expression →
    '.' ∈ Text.ending c.expression → '.' ∈ c.display
  words : c.justComputed = false → ∀ w ∈ c.expression.words, '%' ∉ w → w.count '.' ≤ 1

namespace Guarded

variable {c : Calculator}

theorem start (history : History) : (Calculator.start history).Guarded where
  coherent := .start history
  display := by simp [Calculator.start]
  words := by simp [Calculator.start]

/-- A result is not watched. -/
theorem of_computed (h : c.Coherent) (hj : c.justComputed = true) : c.Guarded where
  coherent := h
  display := by simp [hj]
  words := by simp [hj]

/-- A character at the end of the expression: a point if the display gets its first one too. -/
theorem append_char {x : Char} (h : c.Guarded) (hj : c.justComputed = false)
    (hx : Text.isBlank x = false) {c' : Calculator} (hc : c'.Coherent)
    (he : c'.expression = c.expression ++ [x])
    (hd : x = '%' ∨ ('.' ∈ c.display ∨ x = '.' → '.' ∈ c'.display))
    (hp : x = '.' → '.' ∉ c.display) : c'.Guarded where
  coherent := hc
  display := by
    intro _ hm hpe
    rw [he, Text.ending_append_char hx] at hm hpe
    simp only [List.mem_append, List.mem_singleton, not_or] at hm hpe
    refine hd.resolve_left (fun h => hm.2 h.symm) ?_
    exact hpe.imp (h.display hj hm.1) Eq.symm
  words := by
    have hw := h.words hj
    rw [Text.forall_words_iff (by simp)] at hw
    intro _
    rw [he, Text.forall_words_append_char_iff hx]
    refine ⟨hw.1, fun hm => ?_⟩
    simp only [List.mem_append, List.mem_singleton, not_or] at hm
    have hle := hw.2 hm.1
    rw [List.count_append]
    by_cases hpx : x = '.'
    · have hz : (Text.ending c.expression).count '.' = 0 :=
        List.count_eq_zero.2 fun hm' => hp hpx (h.display hj hm.1 hm')
      simp [hz, hpx]
    · simpa [hpx] using hle

theorem typeDigit (h : c.Guarded) {d : Char} (hd : d.isDigit = true) :
    (c.typeDigit d).Guarded := by
  have hc := h.coherent.typeDigit hd
  have hb := (Expression.isOperandChar_of_isDigit hd).1
  have hp : d ≠ '.' := Text.ne_of_isDigit hd rfl
  unfold Calculator.typeDigit at hc ⊢
  split at hc
  · rename_i hj
    rw [if_pos hj]
    refine append_char (start c.history) rfl hb hc rfl (.inr ?_) (fun h => absurd h hp)
    simp [Calculator.start, zeroText, hp]
  · rename_i hj
    rw [if_neg hj]
    refine h.append_char (eq_false_of_ne_true hj) hb hc rfl (.inr ?_) (fun h => absurd h hp)
    rintro (hm | rfl)
    · have hz : c.display ≠ zeroText := by
        intro hz
        simp [hz, zeroText] at hm
      simp [hz, hm]
    · exact absurd rfl hp

theorem typePoint (h : c.Guarded) : c.typePoint.Guarded := by
  have hc := h.coherent.typePoint
  cases hj : c.justComputed with
  | true => exact of_computed hc (by simp [hj])
  | false =>
    unfold Calculator.typePoint at hc ⊢
    split
    · exact h
    · rename_i hp
      rw [if_neg hp] at hc
      rw [not_or] at hp
      exact h.append_char hj (by decide) hc rfl (.inr fun _ => by simp) fun _ => hp.2

theorem flipSign (h : c.Guarded) : c.flipSign.Guarded := by
  have hc := h.coherent.flipSign
  unfold Calculator.flipSign at hc ⊢
  split
  · exact h
  · rename_i hz
    rw [if_neg hz] at hc
    refine ⟨hc, fun hj hm hp => ?_, h.words⟩
    exact (point_mem_negated_iff _).2 (h.display hj hm hp)

theorem takePercent (h : c.Guarded) : c.takePercent.Guarded := by
  have hc := h.coherent.takePercent
  cases hj : c.justComputed with
  | true => exact of_computed hc (by simp [hj])
  | false =>
    unfold Calculator.takePercent at hc ⊢
    split
    · exact h
    · rename_i v hv
      rw [hv] at hc
      exact h.append_char hj (by decide) hc rfl (.inl rfl) (by simp)

theorem typeOperator (h : c.Guarded) (o : Operator) : (c.typeOperator o).Guarded := by
  have hsymbol : ∀ o : Operator, '%' ∉ o.symbol → o.symbol.count '.' ≤ 1 := fun o _ => by
    simp [Expression.count_point_symbol]
  obtain ⟨p, he, -, hp⟩ := h.coherent.typeOperator_cases o
  refine ⟨h.coherent.typeOperator o, fun _ _ hm => ?_, fun _ => ?_⟩
  · simp [he, Expression.ending_append_spaced] at hm
  · rw [he, Expression.forall_words_append_spaced_iff (P := fun w => '%' ∉ w → w.count '.' ≤ 1)
      hsymbol]
    rcases hp with ⟨-, rfl⟩ | ⟨hj, rfl | ⟨o', ho'⟩⟩
    · exact fun w hw _ => h.coherent.legible.onePoint_display w hw
    · exact h.words hj
    · have hw := h.words hj
      rwa [ho', Expression.forall_words_append_spaced_iff
        (P := fun w => '%' ∉ w → w.count '.' ≤ 1) hsymbol] at hw

theorem showOutcome (h : c.Guarded) {r : Except EvalError Float}
    (hr : ∀ v, r = .ok v → v.isFinite = true) : (c.showOutcome r).Guarded := by
  exact of_computed (h.coherent.showOutcome hr) (by simp)

/-- Every key keeps the watch of the display over the last word. -/
theorem next (h : c.Guarded) (i : Input) : (c.next i).Guarded :=
  respond_cases c i h (fun _ => h.typeDigit) h.typePoint (fun _ => h.flipSign)
    (fun _ => h.takePercent) h.typeOperator
    (h.showOutcome fun _ => Expression.isFinite_of_evaluate) (start _)
    ⟨h.coherent.next .clearHistory, h.display, h.words⟩

/-- A second point comes behind a result or a percent mark. -/
theorem of_doublesPoint (h : c.Guarded) {i : Input} (hi : c.DoublesPoint i) :
    c.phase = .result ∨ '%' ∈ Text.ending c.expression := by
  obtain ⟨-, -, hd, he⟩ := hi
  cases hj : c.justComputed with
  | true => exact .inl (h.coherent.legible.computed.1 hj)
  | false =>
    by_contra hn
    rw [not_or] at hn
    exact hd (h.display hj hn.2 he)

end Guarded

end Calculator

/-! ## Runs -/

namespace Device

theorem guarded_run [HistoryFormat] {σ : Type} [Store σ] (s : σ) (is : List Input) :
    ((start s).run is).calculator.Guarded :=
  run_invariant Calculator.Guarded.start (fun _ i h => h.next i) s is

/-- After every run each word of the expression has one point at most, exactly when no point was put
behind a word with a point since the expression was last started afresh. Such a point is only ever
put behind a result or a percent mark; so while no result is shown, every word without a percent
mark has one point at most. -/
theorem points_run [HistoryFormat] {σ : Type} [Store σ] (s : σ) (is : List Input) :
    let c := ((start s).run is).calculator
    ((∀ w ∈ c.expression.words, w.count '.' ≤ 1) ↔
      ∀ x ∈ (start s).calculator.sinceFresh is, ¬ x.1.DoublesPoint x.2) ∧
    (∀ i, c.DoublesPoint i → c.phase = .result ∨ '%' ∈ Text.ending c.expression) ∧
    (c.phase ≠ .result → ∀ w ∈ c.expression.words, '%' ∉ w → w.count '.' ≤ 1) := by
  intro c
  have h : c.Guarded := guarded_run s is
  refine ⟨?_, fun i hi => h.of_doublesPoint hi, fun hr => h.words ?_⟩
  · have hstart : (start s).calculator.Coherent := .start _
    show Expression.OnePoint ((start s).run is).calculator.expression ↔ _
    rw [calculator_run]
    exact hstart.onePoint_run_iff Expression.onePoint_nil is
  · cases hj : c.justComputed with
    | true => exact absurd (h.coherent.legible.computed.1 hj) hr
    | false => rfl

/-- The sum of two fractions is a whole number here, so the display has no point, but the expression
ends in a fraction: it gets a second point. -/
theorem two_points_behind_sum :
    let c := ((start MemoryStore.empty).run [.key (.digit '1'), .key .point, .key (.digit '5'),
      .key (.operator .plus), .key (.digit '1'), .key .point, .key (.digit '5'), .key .equals,
      .key .point]).calculator
    c.expression = "1.5 + 1.5.".toList ∧ "1.5.".toList ∈ c.expression.words ∧
      ¬ ∀ w ∈ c.expression.words, w.count '.' ≤ 1 := by
  intro c
  have he : c.expression = "1.5 + 1.5.".toList := by decide +kernel
  have hw : "1.5.".toList ∈ c.expression.words := by
    rw [he]
    decide
  exact ⟨he, hw, fun h => absurd (h _ hw) (by decide)⟩

end Device

end PocketCalc
