import Mathlib.Computability.Language
import PocketCalc.Expression.Numeral
import PocketCalc.Proofs.Decimal.Double
import PocketCalc.Proofs.Decimal.Reading

/-!
# The parts of a number on the display

A number on the display has a sign, whole digits with commas among them, perhaps a point with digits
behind it, and perhaps an exponent. Typing a digit or a point behind it and changing its sign leave
a number of this form, and what it stands for does not depend on the commas.

* `Parts.text_mem_grammar`: the texts of such numbers.
* `Parts.exists_append_digit`, `Parts.exists_append_point`, `Parts.text_negate`: the ways to change
  the text of a number.
* `Parts.read?_text`: the text reads as the number, unless that is too large.
-/

namespace PocketCalc

namespace Display

open Computability

/-! ## The grammar -/

/-- The texts of one digit. -/
def digit : Language Char := {t | ∃ d, d.isDigit = true ∧ t = [d]}

/-- The text of one character. -/
def letter (c : Char) : Language Char := {[c]}

/-- A text that may be left out. -/
def optional (l : Language Char) : Language Char := 1 + l

/-- The numbers on the display: `-? D (D | ',')* ('.' D*)? ('e' ('+' | '-') D+)?`. -/
def grammar : Language Char :=
  optional (letter '-') * digit * (digit + letter ',')∗ * optional (letter '.' * digit∗) *
    optional (letter 'e' * (letter '+' + letter '-') * (digit * digit∗))

theorem mem_kstar_of_forall {l : Language Char} {t : Text} (h : ∀ c ∈ t, [c] ∈ l) : t ∈ l∗ := by
  refine Language.mem_kstar.2 ⟨t.map fun c => [c], ?_, ?_⟩
  · induction t with
    | nil => rfl
    | cons c t ih => simp [← ih fun d hd => h d (List.mem_cons_of_mem _ hd)]
  · intro y hy
    obtain ⟨c, hc, rfl⟩ := List.mem_map.1 hy
    exact h c hc

theorem singleton_mem_digit {d : Char} (hd : d.isDigit = true) : [d] ∈ digit := ⟨d, hd, rfl⟩

/-! ## Parts -/

/-- The parts of a number on the display. -/
structure Parts where
  negative : Bool
  /-- Digits and commas. -/
  whole : Text
  /-- The digits behind a point, if there is one. -/
  fraction : Option Text
  /-- The digits of an exponent, if there is one, and whether it has a minus sign. -/
  exponent : Option (Bool × Text)
  first : ∃ d rest, whole = d :: rest ∧ d.isDigit = true
  last : whole.EndsIn fun c => c.isDigit = true
  commas : ∀ c ∈ whole, c.isDigit = true ∨ c = ','
  digits : ∀ t ∈ fraction, ∀ c ∈ t, c.isDigit = true
  power : ∀ x ∈ exponent, x.2 ≠ [] ∧ ∀ c ∈ x.2, c.isDigit = true
  /-- An exponent only stands behind a point. -/
  behind : exponent.isSome = true → fraction.isSome = true

namespace Parts

variable (p : Parts)

/-- A minus sign, if the number has one. -/
def signText : Text := if p.negative then ['-'] else []

/-- The point and the digits behind it. -/
def pointText : Text :=
  match p.fraction with
  | none => []
  | some t => '.' :: t

/-- The exponent as it is written, with its sign. -/
def powerText : Text :=
  match p.exponent with
  | none => []
  | some (n, t) => 'e' :: (if n then '-' else '+') :: t

/-- The text without its sign. -/
def body : Text := p.whole ++ p.pointText ++ p.powerText

/-- The text of a number. -/
def text : Text := p.signText ++ p.body

/-- Without a point there is no exponent. -/
theorem exponent_eq_none (h : p.fraction = none) : p.exponent = none := by
  have := mt p.behind (by simp [h])
  simpa using this

/-! ## Membership in the grammar -/

theorem signText_mem : p.signText ∈ optional (letter '-') := by
  unfold signText
  cases p.negative
  · exact .inl rfl
  · exact .inr rfl

theorem whole_mem : p.whole ∈ digit * (digit + letter ',')∗ := by
  obtain ⟨d, rest, hw, hd⟩ := p.first
  have hrest : rest ∈ (digit + letter ',')∗ := by
    refine mem_kstar_of_forall fun c hc => ?_
    rcases p.commas c (by rw [hw]; exact List.mem_cons_of_mem _ hc) with h | rfl
    · exact .inl (singleton_mem_digit h)
    · exact .inr rfl
  rw [hw]
  exact Language.append_mem_mul (singleton_mem_digit hd) hrest

theorem pointText_mem : p.pointText ∈ optional (letter '.' * digit∗) := by
  have hf := p.digits
  unfold pointText
  cases hfr : p.fraction with
  | none => exact .inl rfl
  | some t =>
    have ht : t ∈ digit∗ := mem_kstar_of_forall fun c hc => singleton_mem_digit (hf t hfr c hc)
    exact .inr (Language.append_mem_mul (show ['.'] ∈ letter '.' from rfl) ht)

theorem powerText_mem :
    p.powerText ∈ optional (letter 'e' * (letter '+' + letter '-') * (digit * digit∗)) := by
  have hx := p.power
  unfold powerText
  cases hex : p.exponent with
  | none => exact .inl rfl
  | some x =>
    obtain ⟨n, t⟩ := x
    obtain ⟨hne, ht⟩ := hx _ hex
    obtain ⟨d, t, rfl⟩ := List.exists_cons_of_ne_nil hne
    have hdigits : d :: t ∈ digit * digit∗ :=
      Language.append_mem_mul (singleton_mem_digit (ht d (by simp)))
        (mem_kstar_of_forall fun c hc => singleton_mem_digit (ht c (List.mem_cons_of_mem _ hc)))
    have hsign : [if n then '-' else '+'] ∈ letter '+' + letter '-' := by
      cases n
      · exact .inl rfl
      · exact .inr rfl
    exact .inr (Language.append_mem_mul
      (Language.append_mem_mul (show ['e'] ∈ letter 'e' from rfl) hsign) hdigits)

theorem text_mem_grammar : p.text ∈ grammar := by
  have h := Language.append_mem_mul (Language.append_mem_mul
    (Language.append_mem_mul p.signText_mem p.whole_mem) p.pointText_mem) p.powerText_mem
  unfold grammar
  rw [mul_assoc _ digit]
  simpa [text, body] using h

/-! ## Characters -/

/-- Without its sign the text begins with a digit. -/
theorem exists_body_eq : ∃ d rest, p.body = d :: rest ∧ d.isDigit = true := by
  obtain ⟨d, rest, hw, hd⟩ := p.first
  exact ⟨d, rest ++ p.pointText ++ p.powerText, by simp [body, hw], hd⟩

theorem text_eq : p.text = p.body ∧ p.negative = false ∨
    p.text = '-' :: p.body ∧ p.negative = true := by
  unfold text signText
  cases p.negative
  · exact .inl ⟨rfl, rfl⟩
  · exact .inr ⟨rfl, rfl⟩

theorem mem_powerText {c : Char} (hc : c ∈ p.powerText) :
    c.isDigit = true ∨ c = 'e' ∨ c = '+' ∨ c = '-' := by
  have hx := p.power
  unfold powerText at hc
  cases hex : p.exponent with
  | none => simp [hex] at hc
  | some x =>
    obtain ⟨n, t⟩ := x
    rw [hex] at hc
    rcases List.mem_cons.1 hc with rfl | hc
    · exact .inr (.inl rfl)
    · rcases List.mem_cons.1 hc with rfl | hc
      · cases n <;> simp
      · exact .inl ((hx _ hex).2 c hc)

theorem mem_pointText {c : Char} (hc : c ∈ p.pointText) : c.isDigit = true ∨ c = '.' := by
  have hf := p.digits
  unfold pointText at hc
  cases hfr : p.fraction with
  | none => simp [hfr] at hc
  | some t =>
    rw [hfr] at hc
    rcases List.mem_cons.1 hc with rfl | hc
    · exact .inr rfl
    · exact .inl (hf t hfr c hc)

/-- The characters of a number. -/
theorem mem_text {c : Char} (hc : c ∈ p.text) :
    c.isDigit = true ∨ c = ',' ∨ c = '.' ∨ c = 'e' ∨ c = '+' ∨ c = '-' := by
  have hbody : c ∈ p.body → c.isDigit = true ∨ c = ',' ∨ c = '.' ∨ c = 'e' ∨ c = '+' ∨ c = '-' := by
    intro hc
    rcases List.mem_append.1 hc with hc | hc
    · rcases List.mem_append.1 hc with hc | hc
      · have := p.commas c hc
        tauto
      · have := p.mem_pointText hc
        tauto
    · have := p.mem_powerText hc
      tauto
  rcases p.text_eq with ⟨ht, -⟩ | ⟨ht, -⟩
  · exact hbody (ht ▸ hc)
  · rw [ht] at hc
    rcases List.mem_cons.1 hc with rfl | hc
    · simp
    · exact hbody hc

theorem count_point_text : p.text.count '.' = if p.fraction.isSome then 1 else 0 := by
  have hdigit : ∀ c : Char, c.isDigit = true → c ≠ '.' := fun c hc => Text.ne_of_isDigit hc rfl
  have hsign : p.signText.count '.' = 0 := by
    unfold signText
    cases p.negative <;> rfl
  have hwhole : p.whole.count '.' = 0 := by
    refine List.count_eq_zero.2 fun hc => ?_
    rcases p.commas _ hc with h | h
    · exact hdigit _ h rfl
    · cases h
  have hpower : p.powerText.count '.' = 0 := by
    refine List.count_eq_zero.2 fun hc => ?_
    rcases p.mem_powerText hc with h | h | h | h
    · exact hdigit _ h rfl
    all_goals cases h
  have hpoint : p.pointText.count '.' = if p.fraction.isSome then 1 else 0 := by
    have hf := p.digits
    unfold pointText
    cases hfr : p.fraction with
    | none => rfl
    | some t =>
      have : t.count '.' = 0 := List.count_eq_zero.2 fun hc => hdigit _ (hf t hfr _ hc) rfl
      simp [this]
  simp only [text, body, List.count_append]
  omega

theorem point_mem_text : '.' ∈ p.text ↔ p.fraction.isSome = true := by
  rw [← List.count_pos_iff, count_point_text]
  cases p.fraction <;> simp

/-- A number ends in a digit, or in its point. -/
theorem endsIn_text : p.text.EndsIn fun c => c.isDigit = true ∨ c = '.' := by
  have hdigit := fun c (hc : c.isDigit = true) => Or.inl (b := c = '.') hc
  have hf := p.digits
  have hx := p.power
  unfold text body powerText pointText
  cases hex : p.exponent with
  | some x =>
    obtain ⟨n, t⟩ := x
    obtain ⟨hne, ht⟩ := hx _ hex
    have h := ((Text.endsIn_of_forall hne ht).mono hdigit).append
    simpa using h (p.signText ++ (p.whole ++ _ ++ ['e', if n then '-' else '+']))
  | none =>
    cases hfr : p.fraction with
    | none => simpa using (p.last.mono hdigit).append p.signText
    | some t =>
      have ht := Text.endsIn_of_forall (t := '.' :: t) (p := fun c => c.isDigit = true ∨ c = '.')
        (by simp) fun c hc => (List.mem_cons.1 hc).elim .inr fun hc => .inl (hf t hfr c hc)
      simpa using ht.append (p.signText ++ p.whole)

/-! ## Reading -/

/-- The digits in front of the point, without commas. -/
def wholeDigits : Text := p.whole.filter (· != ',')

/-- The digits behind the point. -/
def fractionDigits : Text := p.fraction.getD []

/-- The value of the exponent, zero if there is none. -/
def scale : Int :=
  match p.exponent with
  | none => 0
  | some (n, t) => if n then -(Decimal.ofDigits t : Int) else Decimal.ofDigits t

/-- The decimal that the text without its sign stands for. -/
def decimal : Decimal :=
  ⟨Decimal.ofDigits (p.wholeDigits ++ p.fractionDigits), p.scale - p.fractionDigits.length⟩

/-- The double nearest to the number. -/
def value : Float := if p.negative then -p.decimal.toFloat else p.decimal.toFloat

theorem isDigit_of_mem_wholeDigits {c : Char} (hc : c ∈ p.wholeDigits) : c.isDigit = true := by
  obtain ⟨hm, hne⟩ := List.mem_filter.1 hc
  exact (p.commas c hm).resolve_right fun h => by simp [h] at hne

theorem exists_wholeDigits_eq : ∃ d rest, p.wholeDigits = d :: rest ∧ d.isDigit = true := by
  obtain ⟨d, rest, hw, hd⟩ := p.first
  have hne : d ≠ ',' := Text.ne_of_isDigit hd rfl
  exact ⟨d, rest.filter (· != ','), by simp [wholeDigits, hw, hne], hd⟩

theorem filter_body : p.body.filter (· != ',') = p.wholeDigits ++ p.pointText ++ p.powerText := by
  have hpoint : p.pointText.filter (· != ',') = p.pointText := by
    refine List.filter_eq_self.2 fun c hc => bne_iff_ne.2 ?_
    rcases p.mem_pointText hc with h | rfl
    · exact Text.ne_of_isDigit h rfl
    · decide
  have hpower : p.powerText.filter (· != ',') = p.powerText := by
    refine List.filter_eq_self.2 fun c hc => bne_iff_ne.2 ?_
    rcases p.mem_powerText hc with h | rfl | rfl | rfl
    · exact Text.ne_of_isDigit h rfl
    all_goals decide
  rw [body, List.filter_append, List.filter_append, hpoint, hpower, wholeDigits]

theorem scale?_powerText : Decimal.scale? p.powerText = some p.scale := by
  have hx := p.power
  unfold powerText scale
  cases hex : p.exponent with
  | none => rfl
  | some x =>
    obtain ⟨n, t⟩ := x
    obtain ⟨hne, ht⟩ := hx _ hex
    have hw := Decimal.whole?_of_digits hne ht
    cases n
    · simp [Decimal.scale?, Decimal.exponent?, hw]
    · simp [Decimal.scale?, Decimal.exponent?, hw]

theorem unsigned?_filter_body : Decimal.unsigned? (p.body.filter (· != ',')) = some p.decimal := by
  have hw : ∀ c ∈ p.wholeDigits, c.isDigit = true := fun c => p.isDigit_of_mem_wholeDigits
  have hne : p.wholeDigits ≠ [] := by
    obtain ⟨d, rest, h, -⟩ := p.exists_wholeDigits_eq
    simp [h]
  rw [filter_body, List.append_assoc]
  cases hfr : p.fraction with
  | none =>
    have hex := p.exponent_eq_none hfr
    have hpoint : p.pointText = [] := by simp [pointText, hfr]
    have hpower : p.powerText = [] := by simp [powerText, hex]
    rw [hpoint, hpower, List.append_nil, List.append_nil, Decimal.unsigned?_digits hne hw]
    simp [decimal, scale, fractionDigits, hex, hfr]
  | some t =>
    have hpoint : p.pointText ++ p.powerText = '.' :: (t ++ p.powerText) := by
      simp [pointText, hfr]
    have hfd : p.fractionDigits = t := by simp [fractionDigits, hfr]
    rw [hpoint, Decimal.unsigned?_append_point (List.append_ne_nil_of_left_ne_nil hne t) hw
      (p.digits t hfr) p.scale?_powerText, decimal, hfd]

theorem isFinite_value : p.value.isFinite = p.decimal.toFloat.isFinite := by
  unfold value
  split
  · exact Double.isFinite_neg _
  · rfl

/-- What the text reads as does not depend on the commas. -/
theorem float?_filter_text : Decimal.float? (p.text.filter (· != ',')) = some p.value := by
  have htext : p.text.filter (· != ',') =
      if p.negative then '-' :: p.body.filter (· != ',') else p.body.filter (· != ',') := by
    rcases p.text_eq with ⟨ht, hn⟩ | ⟨ht, hn⟩
    · rw [ht, hn]
      rfl
    · rw [ht, hn, List.filter_cons_of_pos (by decide)]
      rfl
  rw [htext, value]
  exact Decimal.float?_of_unsigned? p.negative p.unsigned?_filter_body

theorem hasShape_text : Numeral.hasShape p.text = true := by
  have hbody : Numeral.body p.text = p.body := by
    obtain ⟨d, rest, hb, hd⟩ := p.exists_body_eq
    rcases p.text_eq with ⟨ht, -⟩ | ⟨ht, -⟩
    · rw [ht, hb]
      have hminus : d ≠ '-' := Text.ne_of_isDigit hd rfl
      simp [Numeral.body, hminus]
    · rw [ht]
      rfl
  have hparts : ∀ c ∈ p.body, Numeral.isPart c = true := by
    intro c hc
    have hm : c ∈ p.text := List.mem_append_right _ hc
    rcases p.mem_text hm with h | rfl | rfl | rfl | rfl | rfl
    · simp [Numeral.isPart, h]
    all_goals rfl
  obtain ⟨d, rest, hb, hd⟩ := p.exists_body_eq
  rw [Numeral.hasShape, hbody, hb]
  rw [hb] at hparts
  simp only [hd, Bool.true_or, Bool.true_and]
  exact List.all_eq_true.2 hparts

/-- A text without the shape of a numeral is no number. -/
theorem text_ne {t : Text} (h : Numeral.hasShape t = false) : p.text ≠ t := by
  rintro rfl
  rw [p.hasShape_text] at h
  cases h

/-- A number reads as what it stands for, unless that is too large. -/
theorem read?_text : Numeral.read? p.text = if p.value.isFinite then some p.value else none := by
  rw [Numeral.read?, if_pos p.hasShape_text, p.float?_filter_text, Option.filter_some]

/-! ## Keys -/

theorem exists_append_digit {d : Char} (hd : d.isDigit = true) :
    ∃ q : Parts, q.text = p.text ++ [d] := by
  have happend : ∀ t : Text, (∀ c ∈ t, c.isDigit = true) → ∀ c ∈ t ++ [d], c.isDigit = true := by
    intro t ht c hc
    rcases List.mem_append.1 hc with hc | hc
    · exact ht c hc
    · rwa [List.mem_singleton.1 hc]
  cases hex : p.exponent with
  | some x =>
    obtain ⟨n, t⟩ := x
    refine ⟨{ p with
      exponent := some (n, t ++ [d])
      power := ?_
      behind := fun _ => p.behind (by rw [hex]; rfl) }, ?_⟩
    · intro x hx
      rw [← Option.mem_some_iff.1 hx]
      exact ⟨by simp, happend t (p.power _ hex).2⟩
    · simp [text, body, signText, pointText, powerText, hex]
  | none =>
    cases hfr : p.fraction with
    | some t =>
      refine ⟨{ p with
        fraction := some (t ++ [d])
        digits := ?_
        behind := fun _ => rfl }, ?_⟩
      · intro u hu
        rw [← Option.mem_some_iff.1 hu]
        exact happend t (p.digits _ hfr)
      · simp [text, body, signText, pointText, powerText, hex, hfr]
    | none =>
      obtain ⟨e, rest, hw, he⟩ := p.first
      refine ⟨{ p with
        whole := p.whole ++ [d]
        first := ⟨e, rest ++ [d], by rw [hw]; rfl, he⟩
        last := ⟨p.whole, d, rfl, hd⟩
        commas := ?_ }, ?_⟩
      · intro c hc
        rcases List.mem_append.1 hc with hc | hc
        · exact p.commas c hc
        · exact .inl (by rwa [List.mem_singleton.1 hc])
      · simp [text, body, signText, pointText, powerText, hex, hfr]

/-- A point behind a number changes its text alone. -/
theorem exists_append_point (h : '.' ∉ p.text) :
    ∃ q : Parts, q.text = p.text ++ ['.'] ∧ q.value = p.value := by
  have hfr : p.fraction = none := by
    have := mt p.point_mem_text.2 h
    simpa using this
  have hex := p.exponent_eq_none hfr
  refine ⟨{ p with
    fraction := some []
    digits := ?_
    behind := fun _ => rfl }, ?_, ?_⟩
  · intro t ht
    rw [← Option.mem_some_iff.1 ht]
    simp
  · simp [text, body, signText, pointText, powerText, hex, hfr]
  · simp [value, decimal, wholeDigits, fractionDigits, scale, hfr]

/-- The number with the other sign. -/
def negate : Parts := { p with negative := !p.negative }

theorem text_negate : p.negate.text = if p.negative then p.body else '-' :: p.body := by
  unfold negate text signText
  cases p.negative <;> rfl

theorem isFinite_value_negate : p.negate.value.isFinite = p.value.isFinite := by
  rw [isFinite_value, isFinite_value]
  rfl

end Parts

end Display

end PocketCalc
