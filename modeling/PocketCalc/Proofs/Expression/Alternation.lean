import Mathlib.Data.List.Chain
import PocketCalc.Keypad.Calculator
import PocketCalc.Proofs.Text.Words

/-!
# Operators between operands

The calculator writes an operator between blanks and everything else without them. So a character
that is typed never makes two operators neighbours, and an operator only does when the word before
it is one already.

* `Alternates.append_char`, `Alternates.append_spaced`: what keeps operators apart.
* `dropOperator_append_spaced`: taking back an operator leaves what was there before it.
-/

namespace PocketCalc

namespace Expression

/-- Whether a word stands for an operator. -/
def isOperatorWord (w : Text) : Bool := (Operator.ofSymbol? w).isSome

/-- No word that stands for an operator follows another one. -/
def Alternates (t : Text) : Prop :=
  t.words.IsChain fun v w => ¬ (isOperatorWord v = true ∧ isOperatorWord w = true)

/-- A character that is neither a blank nor an operator. -/
def IsOperandChar (c : Char) : Prop := Text.isBlank c = false ∧ Operator.ofChar? c = none

theorem isOperandChar_of_isDigit {c : Char} (h : c.isDigit = true) : IsOperandChar c := by
  have hne := fun d : Char => Text.ne_of_isDigit (d := d) h
  refine ⟨Text.isBlank_of_isDigit h, ?_⟩
  simp [Operator.ofChar?, hne '+', hne '−', hne '-', hne '×', hne '*', hne 'x', hne '÷', hne '/']

theorem isOperandChar_point : IsOperandChar '.' := ⟨by decide, by decide⟩

theorem isOperandChar_percent : IsOperandChar '%' := ⟨by decide, by decide⟩

/-! ## Words that are no operators -/

theorem isOperatorWord_symbol (o : Operator) : isOperatorWord o.symbol = true := by
  simp [isOperatorWord, Operator.ofSymbol?_symbol]

theorem isOperatorWord_append_char {w : Text} (hw : w ≠ []) (c : Char) :
    isOperatorWord (w ++ [c]) = false := by
  obtain ⟨d, w, rfl⟩ := List.exists_cons_of_ne_nil hw
  cases w <;> rfl

/-- Behind a character of an operand the last word is no operator. -/
theorem not_isOperatorWord_last {c : Char} (hc : IsOperandChar c) (t : Text) :
    ∀ w ∈ (Text.words (t ++ [c])).getLast?, isOperatorWord w = false := by
  have hchar : isOperatorWord [c] = false := by simp [isOperatorWord, Operator.ofSymbol?, hc.2]
  rcases Text.words_append_char hc.1 t with h | ⟨ws, w, hw, -, h⟩
  · simp [h, hchar]
  · simp [h, isOperatorWord_append_char hw]

theorem not_isOperatorWord_of_endsIn {t : Text} (h : t.EndsIn IsOperandChar) :
    ∀ w ∈ t.words.getLast?, isOperatorWord w = false := by
  obtain ⟨s, c, rfl, hc⟩ := h
  exact not_isOperatorWord_last hc s

/-! ## Longer expressions -/

theorem alternates_nil : Alternates [] := List.isChain_nil

/-- A text without blanks is one word at most. -/
theorem alternates_of_forall {t : Text} (h : ∀ c ∈ t, Text.isBlank c = false) : Alternates t := by
  by_cases hne : t = []
  · subst hne
    exact alternates_nil
  · unfold Alternates
    rw [Text.words_singleton hne h]
    exact List.isChain_singleton _

/-- A character of an operand never makes two operators neighbours. -/
theorem Alternates.append_char {t : Text} (h : Alternates t) {c : Char} (hc : IsOperandChar c) :
    Alternates (t ++ [c]) := by
  unfold Alternates at h ⊢
  have hlast := Expression.not_isOperatorWord_last hc t
  rcases Text.words_append_char hc.1 t with hw | ⟨ws, w, -, ht, hw⟩
  · rw [hw] at hlast ⊢
    refine h.append (List.isChain_singleton _) ?_
    intro v _ u hu
    simp only [List.head?_cons, Option.mem_some_iff] at hu
    subst hu
    simp [hlast [c] (by simp)]
  · rw [hw] at hlast ⊢
    rw [ht] at h
    refine h.left_of_append.append (List.isChain_singleton _) ?_
    intro v _ u hu
    simp only [List.head?_cons, Option.mem_some_iff] at hu
    subst hu
    simp [hlast (w ++ [c]) (by simp)]

theorem words_symbol (o : Operator) : Text.words o.symbol = [o.symbol] :=
  Text.words_singleton (by simp [Operator.symbol])
    (by cases o <;> simp [Operator.symbol, Operator.char] <;> decide)

theorem words_append_spaced (t : Text) (o : Operator) :
    Text.words (t ++ Calculator.spaced o) = t.words ++ [o.symbol] := by
  have hs : Text.words (o.symbol ++ ' ' :: []) = [o.symbol] := by
    rw [Text.words_append_blank (by decide), Text.words_nil, List.append_nil, words_symbol]
  rw [Calculator.spaced, List.cons_append, Text.words_append_blank (by decide), hs]

theorem ending_append_spaced (t : Text) (o : Operator) :
    Text.ending (t ++ Calculator.spaced o) = [] := by
  have hs : t ++ Calculator.spaced o = t ++ ' ' :: o.symbol ++ [' '] := by
    simp [Calculator.spaced]
  rw [hs]
  exact Text.ending_append_blank (by decide) _

theorem Alternates.append_spaced {t : Text} (h : Alternates t)
    (hl : ∀ w ∈ t.words.getLast?, isOperatorWord w = false) (o : Operator) :
    Alternates (t ++ Calculator.spaced o) := by
  unfold Alternates at h ⊢
  rw [words_append_spaced]
  refine h.append (List.isChain_singleton _) ?_
  intro v hv u _
  simp [hl v hv]

theorem Alternates.of_append_spaced {t : Text} {o : Operator}
    (h : Alternates (t ++ Calculator.spaced o)) : Alternates t := by
  unfold Alternates at h ⊢
  rw [words_append_spaced] at h
  exact h.left_of_append

/-! ## Taking back an operator -/

theorem isOperatorChar_char (o : Operator) : Calculator.isOperatorChar o.char = true := by
  simp [Calculator.isOperatorChar, Operator.ofChar?_char]

theorem trimEnd_of_endsIn {t : Text} (h : t = [] ∨ t.EndsIn IsOperandChar) : t.trimEnd = t := by
  rcases h with rfl | ⟨s, c, rfl, hc⟩
  · rfl
  · simp [Text.trimEnd, hc.1]

theorem dropOperator_append_spaced {t : Text} (h : t = [] ∨ t.EndsIn IsOperandChar)
    (o : Operator) : Calculator.dropOperator (t ++ Calculator.spaced o) = t := by
  have hb : Text.isBlank o.char = false := by cases o <;> decide
  have htrim : Text.trimEnd (t ++ Calculator.spaced o) = t ++ [' ', o.char] := by
    simp [Text.trimEnd, Calculator.spaced, Operator.symbol, hb,
      show Text.isBlank ' ' = true from rfl]
  have hdrop : ((t ++ [' ', o.char]).reverse.dropWhile Calculator.isOperatorChar).reverse =
      t ++ [' '] := by
    simp [isOperatorChar_char, show Calculator.isOperatorChar ' ' = false from rfl]
  have hblank : Text.trimEnd (t ++ [' ']) = t.trimEnd := by
    simp [Text.trimEnd, show Text.isBlank ' ' = true from rfl]
  rw [Calculator.dropOperator, htrim, hdrop, hblank, trimEnd_of_endsIn h]

end Expression

end PocketCalc
