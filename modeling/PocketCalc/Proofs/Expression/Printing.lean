import PocketCalc.Expression.Evaluate
import PocketCalc.Proofs.Display.Number
import PocketCalc.Proofs.Expression.Numeral
import PocketCalc.Proofs.Expression.Scan

/-!
# Tokens that are written and read again

A number is written with digits, perhaps a point among them and a minus sign in front. So its text is
one word, a digit keeps it from being an operator, and it is read as the number itself. A row of
tokens is written word by word, so reading it gives the same row, however the words were spelt
before.

* `Decimal.isPositional_plainText`, `Numeral.read?_plainText`: how a number is written, and that it
  is read as itself.
* `Token.words_textOf`: the words of a row of tokens.
* `Token.ofText_textOf`, `Expression.evaluate_textOf`: what reading and evaluating make of it.
* `Token.textOf_reads_back`: all of it together.
-/

namespace PocketCalc

/-! ## Numbers -/

namespace Decimal

/-- A number written without an exponent: `-? D+ ('.' D+)?`. -/
def IsPositional (t : Text) : Prop := ∃ (negative : Bool) (ds fs : Text), ds ≠ [] ∧
  (∀ c ∈ ds ++ fs, c.isDigit = true) ∧ t = Display.signed negative (ds ++ pointed fs)

theorem isPositional_plainText {v : Float} (hv : v.isFinite = true) :
    IsPositional (plainText v) := by
  obtain ⟨negative, m, hm⟩ := Double.isFinite_iff_reading.1 hv
  obtain ⟨ds, fs, hne, hdigits, -, -, hplain⟩ := exists_plain_eq m.exponent_shortest_nonpos
  exact ⟨negative, ds, fs, hne, hdigits, by rw [plainText, Display.signedText_eq hm, hplain]⟩

/-- The positional text of a finite number reads as that number, with the sign of a zero. -/
theorem float?_plainText {v : Float} (hv : v.isFinite = true) : float? (plainText v) = some v := by
  obtain ⟨negative, m, hm⟩ := Double.isFinite_iff_reading.1 hv
  have hread := float?_of_unsigned? negative (unsigned?_plain m.exponent_shortest_nonpos)
  rw [Magnitude.signed_shortest hm] at hread
  rwa [plainText, Display.signedText_eq hm]

namespace IsPositional

variable {t : Text}

theorem exists_eq (h : IsPositional t) : ∃ sign c rest, t = sign ++ c :: rest ∧
    (sign = [] ∨ sign = ['-']) ∧ c.isDigit = true ∧ ∀ x ∈ rest, x.isDigit = true ∨ x = '.' := by
  obtain ⟨negative, ds, fs, hne, hdigits, rfl⟩ := h
  obtain ⟨c, ds, rfl⟩ := List.exists_cons_of_ne_nil hne
  refine ⟨if negative then ['-'] else [], c, ds ++ pointed fs, ?_, ?_, hdigits c (by simp), ?_⟩
  · cases negative <;> rfl
  · cases negative <;> simp
  · intro x hx
    have hpointed : x ∈ pointed fs → x = '.' ∨ x ∈ fs := by
      unfold pointed
      split <;> simp
    rcases List.mem_append.1 hx with hx | hx
    · exact .inl (hdigits x (by simp [hx]))
    · exact (hpointed hx).symm.imp_left fun hf => hdigits x (by simp [hf])

theorem mem (h : IsPositional t) {x : Char} (hx : x ∈ t) :
    x.isDigit = true ∨ x = '.' ∨ x = '-' := by
  obtain ⟨sign, c, rest, rfl, hsign, hc, hrest⟩ := h.exists_eq
  rcases List.mem_append.1 hx with hx | hx
  · rcases hsign with rfl | rfl
    · simp at hx
    · exact .inr (.inr (List.mem_singleton.1 hx))
  · rcases List.mem_cons.1 hx with rfl | hx
    · exact .inl hc
    · exact (hrest x hx).imp_right .inl

theorem hasShape (h : IsPositional t) : Numeral.hasShape t = true := by
  obtain ⟨sign, c, rest, rfl, hsign, hc, hrest⟩ := h.exists_eq
  have hminus : c ≠ '-' := Text.ne_of_isDigit hc rfl
  have hall : ∀ x ∈ c :: rest, Numeral.isPart x = true := by
    intro x hx
    rcases List.mem_cons.1 hx with rfl | hx
    · simp [Numeral.isPart, hc]
    · rcases hrest x hx with hd | rfl
      · simp [Numeral.isPart, hd]
      · rfl
  rw [Numeral.hasShape_append (hsign.symm.imp_right fun hs => ⟨hs, hminus⟩),
    List.all_eq_true.2 hall]
  simp [hc]

/-- There are no groups in it. -/
theorem filter_ne_comma (h : IsPositional t) : t.filter (· != ',') = t := by
  refine List.filter_eq_self.2 fun x hx => bne_iff_ne.2 ?_
  rcases h.mem hx with hd | rfl | rfl
  · exact Text.ne_of_isDigit hd rfl
  · decide
  · decide

theorem words_eq (h : IsPositional t) : t.words = [t] := by
  have hne : t ≠ [] := by
    obtain ⟨sign, c, rest, rfl, -⟩ := h.exists_eq
    simp
  refine Text.words_singleton hne fun x hx => ?_
  rcases h.mem hx with hd | rfl | rfl
  · exact Text.isBlank_of_isDigit hd
  · decide
  · decide

end IsPositional

end Decimal

theorem Numeral.read?_plainText {v : Float} (hv : v.isFinite = true) :
    read? (Decimal.plainText v) = some v := by
  have h := Decimal.isPositional_plainText hv
  rw [read?, if_pos h.hasShape, h.filter_ne_comma, Decimal.float?_plainText hv]
  simp [hv]

/-! ## Rows of tokens -/

namespace Token

/-- The numbers among the tokens are finite. -/
def AllFinite (ts : List Token) : Prop := ∀ v, number v ∈ ts → v.isFinite = true

theorem AllFinite.head {t : Token} {ts : List Token} (h : AllFinite (t :: ts)) : AllFinite [t] :=
  fun v hv => h v (by simp [List.mem_singleton.1 hv])

theorem AllFinite.tail {t : Token} {ts : List Token} (h : AllFinite (t :: ts)) : AllFinite ts :=
  fun v hv => h v (List.mem_cons_of_mem t hv)

/-- A token is written as one word. -/
theorem words_text {t : Token} (h : AllFinite [t]) : t.text.words = [t.text] := by
  cases t with
  | number v => exact (Decimal.isPositional_plainText (h v (by simp))).words_eq
  | operator o => exact Expression.words_symbol o

/-- A token is read from its text: no number is taken for an operator. -/
theorem ofWord_text {t : Token} (h : AllFinite [t]) : ofWord t.text = .ok t := by
  cases t with
  | number v => exact ofWord_eq_number_iff.2 (Numeral.read?_plainText (h v (by simp)))
  | operator o => exact ofWord_eq_operator_iff.2 (Operator.ofSymbol?_symbol o)

theorem words_textOf {ts : List Token} (h : AllFinite ts) : (textOf ts).words = ts.map text := by
  fun_induction textOf ts with
  | case1 => rfl
  | case2 t => exact words_text h
  | case3 t ts _ ih =>
    rw [Text.words_append_blank (by decide), words_text h.head, ih h.tail]
    rfl

theorem ofWords_map_text {ts : List Token} (h : AllFinite ts) : ofWords (ts.map text) = .ok ts := by
  induction ts with
  | nil => rfl
  | cons t ts ih => rw [List.map_cons, ofWords_cons, ofWord_text h.head, ih h.tail]; rfl

theorem ofText_textOf {ts : List Token} (h : AllFinite ts) : ofText (textOf ts) = .ok ts := by
  rw [ofText, words_textOf h, ofWords_map_text h]

end Token

/-- The value or the error of an expression does not depend on how its tokens are spelt. -/
theorem Expression.evaluate_textOf {t : Text} {ts : List Token} (h : Token.ofText t = .ok ts) :
    evaluate (Token.textOf ts) = evaluate t := by
  have hts := Token.ofText_textOf (isFinite_of_ofWords h)
  rw [evaluate, evaluate, hts, h]

namespace Token

/-- Every row of operators and finite numbers is read from its own text, each number as the same
double with the same sign, also of a zero. Reading any text gives such a row or an error, and the
text of that row has the same value as the text that was read, or the same error. -/
theorem textOf_reads_back :
    (∀ ts : List Token, (∀ v, number v ∈ ts → v.isFinite = true) → ofText (textOf ts) = .ok ts) ∧
    ∀ t ts, ofText t = .ok ts → (∀ v, number v ∈ ts → v.isFinite = true) ∧
      Expression.evaluate (textOf ts) = Expression.evaluate t :=
  ⟨fun _ => ofText_textOf, fun _ _ h =>
    ⟨Expression.isFinite_of_ofWords h, Expression.evaluate_textOf h⟩⟩

/-- A row with a signed zero, a number below zero behind a minus sign and one that is large; and an
expression with other signs and blanks than the program writes, which ends in an error. -/
theorem textOf_reads_back_of_signs :
    let ts : List Token := [number (-0), operator .minus, number (-2.5), operator .plus,
      operator .over, number 1e21]
    let t : Text := "\t1,0.50  x -2 / 0".toList
    let us : List Token := [number 10.5, operator .times, number (-2), operator .over, number 0]
    (∀ v, number v ∈ ts → v.isFinite = true) ∧
    textOf ts = "-0 − -2.5 + ÷ 1000000000000000000000".toList ∧ ofText (textOf ts) = .ok ts ∧
    ofText t = .ok us ∧ (∀ v, number v ∈ us → v.isFinite = true) ∧
      Expression.evaluate (textOf us) = Expression.evaluate t := by
  intro ts t us
  have hts : ∀ v, number v ∈ ts → v.isFinite = true := by
    simp only [ts, List.mem_cons, List.not_mem_nil, or_false, number.injEq, reduceCtorEq, false_or]
    rintro v (rfl | rfl | rfl) <;> decide +kernel
  have hus : ofText t = .ok us := by decide +kernel
  exact ⟨hts, by decide +kernel, textOf_reads_back.1 ts hts, hus, textOf_reads_back.2 t us hus⟩

end Token

end PocketCalc
