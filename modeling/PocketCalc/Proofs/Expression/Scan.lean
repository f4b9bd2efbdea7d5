import PocketCalc.Proofs.Decimal.Double
import PocketCalc.Proofs.Expression.Alternation

/-!
# Which expressions have a value, and why others have none

Places of words are counted from zero: numbers are due at even places and operators at odd ones. An
expression has a value when every word is what is due, the last one is a number, and each operator
can be applied to the value so far. Otherwise the leftmost word that is no token is to blame, and
without such a word the leftmost place at which the scan cannot go on.

* `Token.ofWords_eq_error_iff`: the leftmost word that is no token comes before all other faults.
* `FaultAt`: the places at which the scan cannot go on; there is one reason at most for each.
* `WellFormed.not_faultAt`: an expression with a value has no such place.
* `continueWith_scan`: the scan ends with the value of all words, or at the leftmost fault.
* `evaluate_classified`: the value or the error of every text.
-/

namespace PocketCalc

/-! ## Words and tokens -/

/-- No word stands for both an operator and a number. -/
theorem Numeral.read?_of_operator {w : Text} {o : Operator} (h : Operator.ofSymbol? w = some o) :
    read? w = none := by
  unfold Operator.ofSymbol? at h
  split at h
  · rename_i c
    have hc : c = '+' ∨ (c = '−' ∨ c = '-') ∨ (c = '×' ∨ c = '*' ∨ c = 'x') ∨ c = '÷' ∨ c = '/' := by
      unfold Operator.ofChar? at h
      grind
    rcases hc with rfl | (rfl | rfl) | (rfl | rfl | rfl) | rfl | rfl <;> rfl
  · simp at h

namespace Token

/-- Whether a word stands for an operator or a number. -/
def isToken (w : Text) : Bool := Expression.isOperatorWord w || (Numeral.read? w).isSome

theorem ofWord_eq_operator_iff {w : Text} {o : Operator} :
    ofWord w = .ok (.operator o) ↔ Operator.ofSymbol? w = some o := by
  unfold ofWord
  cases Operator.ofSymbol? w with
  | some p => simp
  | none => cases Numeral.parse w <;> simp [Except.map]

theorem ofWord_eq_number_iff {w : Text} {v : Float} :
    ofWord w = .ok (.number v) ↔ Numeral.read? w = some v := by
  unfold ofWord
  cases ho : Operator.ofSymbol? w with
  | some o => simp [Numeral.read?_of_operator ho]
  | none =>
    rw [← Numeral.parse_eq_ok_iff]
    cases Numeral.parse w <;> simp [Except.map]

theorem ofWord_eq_error_iff {w : Text} {e : EvalError} :
    ofWord w = .error e ↔ isToken w = false ∧ e = .badNumeral w := by
  unfold ofWord isToken Expression.isOperatorWord
  cases Operator.ofSymbol? w with
  | some o => simp
  | none => cases hr : Numeral.read? w <;> simp [Numeral.parse, hr, Except.map, eq_comm]

/-- The leftmost word that is no token is the error of the row. -/
theorem ofWords_eq_error_iff {ws : List Text} {e : EvalError} :
    ofWords ws = .error e ↔ ∃ w, ws.find? (fun w => !isToken w) = some w ∧ e = .badNumeral w := by
  induction ws with
  | nil => simp [ofWords]
  | cons w ws ih =>
    cases hw : ofWord w with
    | error d =>
      obtain ⟨hno, rfl⟩ := ofWord_eq_error_iff.1 hw
      simp [ofWords, hw, hno, eq_comm]
    | ok t =>
      have hyes : isToken w = true := by
        by_contra hno
        simp [ofWord_eq_error_iff.2 ⟨by simpa using hno, rfl⟩] at hw
      have hcons : ofWords (w :: ws) = .error e ↔ ofWords ws = .error e := by
        cases hs : ofWords ws <;> simp [ofWords, hw, hs]
      rw [hcons, ih]
      simp [hyes]

theorem exists_ofWords_eq {ws : List Text} (h : ∀ w ∈ ws, isToken w = true) :
    ∃ ts, ofWords ws = .ok ts := by
  cases hs : ofWords ws with
  | ok ts => exact ⟨ts, rfl⟩
  | error e =>
    obtain ⟨w, hw, -⟩ := ofWords_eq_error_iff.1 hs
    have := List.find?_some hw
    simp [h w (List.mem_of_find?_eq_some hw)] at this

theorem isToken_of_ofWords {ws : List Text} {ts : List Token} (h : ofWords ws = .ok ts) :
    ∀ w ∈ ws, isToken w = true := by
  intro w hw
  by_contra hno
  cases hf : ws.find? (fun w => !isToken w) with
  | none => exact hno (by simpa using List.find?_eq_none.1 hf w hw)
  | some u => simp [ofWords_eq_error_iff.2 ⟨u, hf, rfl⟩] at h

end Token

namespace Operator

theorem apply_eq_error_iff {o : Operator} {a b : Float} {e : EvalError} :
    o.apply a b = .error e ↔
      (o = .over ∧ (b = 0 ∨ b = -0)) ∧ e = .divisionByZero ∨
      ¬ (o = .over ∧ (b = 0 ∨ b = -0)) ∧ (o.compute a b).isFinite = false ∧ e = .notFinite := by
  rw [← Double.beq_zero_iff, apply]
  by_cases hz : o = .over ∧ (b == 0) = true
  · rw [if_pos hz, Except.error.injEq]
    exact ⟨fun h => .inl ⟨hz, h.symm⟩, fun h => (h.resolve_right fun h => h.1 hz).2.symm⟩
  · rw [if_neg hz]
    cases hf : (o.compute a b).isFinite with
    | true => simp only [if_true, reduceCtorEq, hz, false_and, and_false, or_self]
    | false =>
      rw [if_neg (by simp), Except.error.injEq]
      exact ⟨fun h => .inr ⟨hz, rfl, h.symm⟩, fun h => (h.resolve_left fun h => hz h.1).2.2.symm⟩

end Operator

namespace Expression

/-! ## Places -/

/-- The operator at a place of a row of words. -/
def operatorAt (ws : List Text) (i : Nat) : Option Operator := ws[i]?.bind Operator.ofSymbol?

/-- The number at a place of a row of words. -/
def numberAt (ws : List Text) (i : Nat) : Option Float := ws[i]?.bind Numeral.read?

/-- What the first `n` operators of a row of words come to, each applied to what is there so far and
to the number behind it. -/
def valueUpTo (ws : List Text) : Nat → Option Float
  | 0 => numberAt ws 0
  | n + 1 => do
    let a ← valueUpTo ws n
    let o ← operatorAt ws (2 * n + 1)
    let b ← numberAt ws (2 * n + 2)
    (o.apply a b).toOption

/-- Numerals at the even places, operators at the odd ones, and a numeral last. -/
structure WellFormed (ws : List Text) : Prop where
  odd : ws.length % 2 = 1
  numeral {i : Nat} {w : Text} (h : ws[i]? = some w) (hi : i % 2 = 0) :
    Operator.ofSymbol? w = none ∧ (Numeral.read? w).isSome = true
  operator {i : Nat} {w : Text} (h : ws[i]? = some w) (hi : i % 2 = 1) :
    (Operator.ofSymbol? w).isSome = true

/-- The scan of a row of words cannot go on at a place, for the given reason. -/
inductive FaultAt (ws : List Text) : Nat → EvalError → Prop
  /-- An operator stands where a number is due. -/
  | strayOperator {n : Nat} {o : Operator} (ho : operatorAt ws (2 * n) = some o) :
    FaultAt ws (2 * n) (.strayOperator o.symbol)
  /-- A number stands where an operator is due. -/
  | strayNumber {n : Nat} {v : Float} (hv : numberAt ws (2 * n + 1) = some v) :
    FaultAt ws (2 * n + 1) (.badNumeral (Decimal.plainText v))
  /-- An operator is the last word. -/
  | missingOperand {n : Nat} {o : Operator} (ho : operatorAt ws (2 * n + 1) = some o)
    (hl : ws.length = 2 * n + 2) : FaultAt ws (2 * n + 1) .missingOperand
  /-- A division has a zero of either sign on its right. -/
  | divisionByZero {n : Nat} {a b : Float} (ha : valueUpTo ws n = some a)
    (ho : operatorAt ws (2 * n + 1) = some .over) (hb : numberAt ws (2 * n + 2) = some b)
    (hz : b = 0 ∨ b = -0) : FaultAt ws (2 * n + 2) .divisionByZero
  /-- Any other operation leaves the finite doubles. -/
  | notFinite {n : Nat} {a b : Float} {o : Operator} (ha : valueUpTo ws n = some a)
    (ho : operatorAt ws (2 * n + 1) = some o) (hb : numberAt ws (2 * n + 2) = some b)
    (hz : ¬ (o = .over ∧ (b = 0 ∨ b = -0))) (hf : (o.compute a b).isFinite = false) :
    FaultAt ws (2 * n + 2) .notFinite

/-- The reason at the leftmost place at which the scan of a row of words cannot go on. -/
def FirstFault (ws : List Text) (e : EvalError) : Prop :=
  ∃ i, FaultAt ws i e ∧ ∀ j < i, ∀ d, ¬ FaultAt ws j d

variable {ws : List Text}

theorem operatorAt_eq_some_iff {i : Nat} {o : Operator} : operatorAt ws i = some o ↔
    ∃ w, ws[i]? = some w ∧ Operator.ofSymbol? w = some o :=
  Option.bind_eq_some_iff

theorem numberAt_eq_some_iff {i : Nat} {v : Float} : numberAt ws i = some v ↔
    ∃ w, ws[i]? = some w ∧ Numeral.read? w = some v :=
  Option.bind_eq_some_iff

/-- A place with something to read is a place of the row. -/
theorem lt_length_of_bind {α : Type} {i : Nat} {read : Text → Option α} {a : α}
    (h : ws[i]?.bind read = some a) : i < ws.length := by
  obtain ⟨w, hw, -⟩ := Option.bind_eq_some_iff.1 h
  exact (List.getElem?_eq_some_iff.1 hw).1

/-- Where there is an operator there is no number. -/
theorem numberAt_eq_none {i : Nat} {o : Operator} (h : operatorAt ws i = some o) :
    numberAt ws i = none := by
  obtain ⟨w, hw, ho⟩ := operatorAt_eq_some_iff.1 h
  simp [numberAt, hw, Numeral.read?_of_operator ho]

theorem valueUpTo_succ_eq_some_iff {n : Nat} {v : Float} : valueUpTo ws (n + 1) = some v ↔
    ∃ a o b, valueUpTo ws n = some a ∧ operatorAt ws (2 * n + 1) = some o ∧
      numberAt ws (2 * n + 2) = some b ∧ o.apply a b = .ok v := by
  have hok : ∀ r : Except EvalError Float, r.toOption = some v ↔ r = .ok v := by
    intro r
    cases r <;> simp [Except.toOption]
  simp [valueUpTo, Option.bind_eq_some_iff, hok]

/-- Whatever the scan has gone past has a value. -/
theorem exists_valueUpTo_of_le {m n : Nat} {v : Float} (h : valueUpTo ws m = some v)
    (hn : n ≤ m) : ∃ a, valueUpTo ws n = some a := by
  induction m generalizing v with
  | zero => exact ⟨v, by rwa [Nat.le_zero.1 hn]⟩
  | succ m ih =>
    rcases Nat.of_le_succ hn with hn | rfl
    · obtain ⟨a, -, -, ha, -⟩ := valueUpTo_succ_eq_some_iff.1 h
      exact ih ha hn
    · exact ⟨v, h⟩

/-- The number at the end of what the scan has gone past. -/
theorem exists_numberAt {n : Nat} {v : Float} (h : valueUpTo ws n = some v) :
    ∃ b, numberAt ws (2 * n) = some b := by
  cases n with
  | zero => exact ⟨v, h⟩
  | succ n =>
    obtain ⟨-, -, b, -, -, hb, -⟩ := valueUpTo_succ_eq_some_iff.1 h
    exact ⟨b, hb⟩

/-- A row that the scan goes through is well formed. -/
theorem wellFormed_of_valueUpTo {m : Nat} {v : Float} (hl : ws.length = 2 * m + 1)
    (h : valueUpTo ws m = some v) : WellFormed ws where
  odd := by omega
  numeral {i w} hw hi := by
    have hlt := (List.getElem?_eq_some_iff.1 hw).1
    obtain ⟨n, rfl⟩ : ∃ n, i = 2 * n := ⟨i / 2, by omega⟩
    obtain ⟨a, ha⟩ := exists_valueUpTo_of_le h (show n ≤ m by omega)
    obtain ⟨b, hb⟩ := exists_numberAt ha
    simp only [numberAt, hw, Option.bind_some] at hb
    refine ⟨?_, by simp [hb]⟩
    by_contra ho
    obtain ⟨o, ho⟩ := Option.ne_none_iff_exists'.1 ho
    simp [Numeral.read?_of_operator ho] at hb
  operator {i w} hw hi := by
    have hlt := (List.getElem?_eq_some_iff.1 hw).1
    obtain ⟨n, rfl⟩ : ∃ n, i = 2 * n + 1 := ⟨i / 2, by omega⟩
    obtain ⟨a, ha⟩ := exists_valueUpTo_of_le h (show n + 1 ≤ m by omega)
    obtain ⟨-, o, -, -, ho, -⟩ := valueUpTo_succ_eq_some_iff.1 ha
    simp only [operatorAt, hw, Option.bind_some] at ho
    simp [ho]

theorem WellFormed.isToken (h : WellFormed ws) : ∀ w ∈ ws, Token.isToken w = true := by
  intro w hw
  obtain ⟨i, hi⟩ := List.getElem?_of_mem hw
  rcases Nat.mod_two_eq_zero_or_one i with h0 | h1
  · simp [Token.isToken, (h.numeral hi h0).2]
  · simp [Token.isToken, isOperatorWord, h.operator hi h1]

/-! ## Faults -/

namespace FaultAt

/-- An operator that cannot be applied is a fault of the number behind it. -/
theorem of_apply {n : Nat} {a b : Float} {o : Operator} {e : EvalError}
    (ha : valueUpTo ws n = some a) (ho : operatorAt ws (2 * n + 1) = some o)
    (hb : numberAt ws (2 * n + 2) = some b) (he : o.apply a b = .error e) :
    FaultAt ws (2 * n + 2) e := by
  rcases Operator.apply_eq_error_iff.1 he with ⟨⟨rfl, hz⟩, rfl⟩ | ⟨hz, hf, rfl⟩
  · exact .divisionByZero ha ho hb hz
  · exact .notFinite ha ho hb hz hf

/-- A fault at a number is a stray operator or an operator that cannot be applied. -/
theorem even_cases {n : Nat} {e : EvalError} (h : FaultAt ws (2 * n) e) :
    (∃ o, operatorAt ws (2 * n) = some o ∧ e = .strayOperator o.symbol) ∨
      ∃ k a o b, n = k + 1 ∧ valueUpTo ws k = some a ∧ operatorAt ws (2 * k + 1) = some o ∧
        numberAt ws (2 * k + 2) = some b ∧ o.apply a b = .error e := by
  -- The place of a constructor is no variable, so the parity is compared by arithmetic.
  generalize hi : 2 * n = i at h
  cases h with
  | strayOperator ho => exact .inl ⟨_, ho, rfl⟩
  | strayNumber hv => omega
  | missingOperand ho hl => omega
  | divisionByZero ha ho hb hz =>
    exact .inr ⟨_, _, _, _, by omega, ha, ho, hb,
      Operator.apply_eq_error_iff.2 (.inl ⟨⟨rfl, hz⟩, rfl⟩)⟩
  | notFinite ha ho hb hz hf =>
    exact .inr ⟨_, _, _, _, by omega, ha, ho, hb,
      Operator.apply_eq_error_iff.2 (.inr ⟨hz, hf, rfl⟩)⟩

/-- A fault at an operator is a stray number or a missing operand. -/
theorem odd_cases {n : Nat} {e : EvalError} (h : FaultAt ws (2 * n + 1) e) :
    (∃ v, numberAt ws (2 * n + 1) = some v ∧ e = .badNumeral (Decimal.plainText v)) ∨
      (∃ o, operatorAt ws (2 * n + 1) = some o) ∧ ws.length = 2 * n + 2 ∧ e = .missingOperand := by
  generalize hi : 2 * n + 1 = i at h
  cases h with
  | strayOperator ho => omega
  | strayNumber hv => exact .inl ⟨_, hv, rfl⟩
  | missingOperand ho hl => exact .inr ⟨⟨_, ho⟩, by omega, rfl⟩
  | divisionByZero ha ho hb hz => omega
  | notFinite ha ho hb hz hf => omega

/-- There is one reason at most at each place. -/
theorem unique {i : Nat} {d e : EvalError} (hd : FaultAt ws i d) (he : FaultAt ws i e) : d = e := by
  rcases Nat.even_or_odd' i with ⟨n, rfl | rfl⟩
  · rcases hd.even_cases with ⟨o, ho, rfl⟩ | ⟨k, a, o, b, rfl, ha, ho, hb, hd⟩
    · rcases he.even_cases with ⟨o', ho', rfl⟩ | ⟨k, a, o', b, rfl, -, -, hb, -⟩
      · rw [Option.some.inj (ho.symm.trans ho')]
      · cases (numberAt_eq_none ho).symm.trans hb
    · rcases he.even_cases with ⟨o', ho', rfl⟩ | ⟨k', a', o', b', hk, ha', ho', hb', he⟩
      · cases (numberAt_eq_none ho').symm.trans hb
      · obtain rfl : k = k' := by omega
        obtain rfl := Option.some.inj (ha.symm.trans ha')
        obtain rfl := Option.some.inj (ho.symm.trans ho')
        obtain rfl := Option.some.inj (hb.symm.trans hb')
        exact Except.error.inj (hd.symm.trans he)
  · rcases hd.odd_cases with ⟨v, hv, rfl⟩ | ⟨⟨o, ho⟩, -, rfl⟩
    · rcases he.odd_cases with ⟨v', hv', rfl⟩ | ⟨⟨o', ho'⟩, -, rfl⟩
      · rw [Option.some.inj (hv.symm.trans hv')]
      · cases (numberAt_eq_none ho').symm.trans hv
    · rcases he.odd_cases with ⟨v', hv', rfl⟩ | ⟨⟨o', ho'⟩, -, rfl⟩
      · cases (numberAt_eq_none ho).symm.trans hv'
      · rfl

end FaultAt

theorem FirstFault.unique {d e : EvalError} (hd : FirstFault ws d) (he : FirstFault ws e) :
    d = e := by
  obtain ⟨i, hi, hbefore⟩ := hd
  obtain ⟨j, hj, hbefore'⟩ := he
  obtain rfl : i = j := by
    rcases Nat.lt_trichotomy i j with h | h | h
    · exact absurd hi (hbefore' i h d)
    · exact h
    · exact absurd hj (hbefore j h e)
  exact hi.unique hj

/-- In a well-formed row whose operators can all be applied there is no fault. -/
theorem WellFormed.not_faultAt (h : WellFormed ws) {v : Float}
    (hv : valueUpTo ws (ws.length / 2) = some v) (i : Nat) (e : EvalError) :
    ¬ FaultAt ws i e := by
  have hodd := h.odd
  intro hf
  rcases Nat.even_or_odd' i with ⟨n, rfl | rfl⟩
  · rcases hf.even_cases with ⟨o, ho, -⟩ | ⟨k, a, o, b, rfl, ha, ho, hb, he⟩
    · obtain ⟨w, hw, ho⟩ := operatorAt_eq_some_iff.1 ho
      simp [(h.numeral hw (by omega)).1] at ho
    · have hlt := lt_length_of_bind hb
      obtain ⟨r, hr⟩ := exists_valueUpTo_of_le hv (show k + 1 ≤ ws.length / 2 by omega)
      obtain ⟨a', o', b', ha', ho', hb', hr⟩ := valueUpTo_succ_eq_some_iff.1 hr
      cases ha.symm.trans ha'
      cases ho.symm.trans ho'
      cases hb.symm.trans hb'
      cases he.symm.trans hr
  · rcases hf.odd_cases with ⟨u, hu, -⟩ | ⟨-, hl, -⟩
    · obtain ⟨w, hw, hu⟩ := numberAt_eq_some_iff.1 hu
      obtain ⟨o, ho⟩ := Option.isSome_iff_exists.1 (h.operator hw (by omega))
      simp [Numeral.read?_of_operator ho] at hu
    · omega

/-! ## The scan -/

/-- The words behind the place of the first token that is left. -/
theorem ofWords_drop_cons {k : Nat} {t : Token} {ts : List Token}
    (h : Token.ofWords (ws.drop k) = .ok (t :: ts)) :
    ∃ w, ws[k]? = some w ∧ Token.ofWord w = .ok t ∧ Token.ofWords (ws.drop (k + 1)) = .ok ts := by
  cases hd : ws.drop k with
  | nil => simp [hd, Token.ofWords] at h
  | cons w rest =>
    have hw : ws[k]? = some w := by
      rw [← List.head?_drop, hd]
      rfl
    have hrest : ws.drop (k + 1) = rest := by
      rw [← List.tail_drop, hd]
      rfl
    rw [hd, Token.ofWords_cons] at h
    rw [hrest]
    cases hw' : Token.ofWord w with
    | error e => simp [hw', bind, Except.bind] at h
    | ok u =>
      cases hs : Token.ofWords rest with
      | error e => simp [hw', hs, bind, Except.bind] at h
      | ok us =>
        simp only [hw', hs, bind, Except.bind, Except.ok.injEq, List.cons.injEq] at h
        obtain ⟨rfl, rfl⟩ := h
        exact ⟨w, hw, hw', rfl⟩

theorem operatorAt_of_ofWords_drop {k : Nat} {o : Operator} {ts : List Token}
    (h : Token.ofWords (ws.drop k) = .ok (.operator o :: ts)) :
    operatorAt ws k = some o ∧ Token.ofWords (ws.drop (k + 1)) = .ok ts := by
  obtain ⟨w, hw, ho, hts⟩ := ofWords_drop_cons h
  exact ⟨operatorAt_eq_some_iff.2 ⟨w, hw, Token.ofWord_eq_operator_iff.1 ho⟩, hts⟩

theorem numberAt_of_ofWords_drop {k : Nat} {v : Float} {ts : List Token}
    (h : Token.ofWords (ws.drop k) = .ok (.number v :: ts)) :
    numberAt ws k = some v ∧ Token.ofWords (ws.drop (k + 1)) = .ok ts := by
  obtain ⟨w, hw, hv, hts⟩ := ofWords_drop_cons h
  exact ⟨numberAt_eq_some_iff.2 ⟨w, hw, Token.ofWord_eq_number_iff.1 hv⟩, hts⟩

theorem length_le_of_ofWords_drop {k : Nat} (h : Token.ofWords (ws.drop k) = .ok []) :
    ws.length ≤ k := by
  rw [← List.drop_eq_nil_iff]
  cases hd : ws.drop k with
  | nil => rfl
  | cons w rest =>
    rw [hd, Token.ofWords_cons] at h
    cases hw : Token.ofWord w with
    | error e => simp [hw, bind, Except.bind] at h
    | ok t => cases hs : Token.ofWords rest <;> simp [hw, hs, bind, Except.bind] at h

/-- The outcome of a scan is the value of all words or the leftmost fault. -/
def Outcome (ws : List Text) : Except EvalError Float → Prop
  | .ok v => ∃ m, ws.length = 2 * m + 1 ∧ valueUpTo ws m = some v
  | .error e => FirstFault ws e

/-- Behind a number that the scan has gone past, an operator with a word behind it is no fault. -/
theorem not_faultAt_succ {n : Nat} {o : Operator} (ho : operatorAt ws (2 * n + 1) = some o)
    (hlt : 2 * n + 2 < ws.length) (hbefore : ∀ j < 2 * n + 1, ∀ d, ¬ FaultAt ws j d) :
    ∀ j < 2 * n + 2, ∀ d, ¬ FaultAt ws j d := by
  intro j hj d hf
  rcases Nat.lt_succ_iff_lt_or_eq.1 hj with hj | rfl
  · exact hbefore j hj d hf
  · rcases hf.odd_cases with ⟨v, hv, -⟩ | ⟨-, hl, -⟩
    · cases (numberAt_eq_none ho).symm.trans hv
    · omega

/-- The scan goes on from a value up to which there was no fault. -/
theorem continueWith_scan {n : Nat} {a : Float} {ts : List Token} (ha : valueUpTo ws n = some a)
    (hts : Token.ofWords (ws.drop (2 * n + 1)) = .ok ts)
    (hbefore : ∀ j < 2 * n + 1, ∀ d, ¬ FaultAt ws j d) : Outcome ws (continueWith a ts) := by
  -- One turn takes an operator and a number, so the place grows by two as `n` does by one.
  fun_induction continueWith a ts generalizing n with
  | case1 a =>
    obtain ⟨b, hb⟩ := exists_numberAt ha
    have := lt_length_of_bind hb
    have := length_le_of_ofWords_drop hts
    exact ⟨n, by omega, ha⟩
  | case2 a v rest => exact ⟨_, .strayNumber (numberAt_of_ofWords_drop hts).1, hbefore⟩
  | case3 a o =>
    obtain ⟨ho, hnil⟩ := operatorAt_of_ofWords_drop hts
    have := lt_length_of_bind ho
    have := length_le_of_ofWords_drop hnil
    exact ⟨_, .missingOperand ho (by omega), hbefore⟩
  | case4 a o p rest =>
    obtain ⟨ho, hts⟩ := operatorAt_of_ofWords_drop hts
    have hp := (operatorAt_of_ofWords_drop hts).1
    exact ⟨_, .strayOperator (n := n + 1) hp,
      not_faultAt_succ ho (lt_length_of_bind hp) hbefore⟩
  | case5 a o v rest e he =>
    obtain ⟨ho, hts⟩ := operatorAt_of_ofWords_drop hts
    have hv := (numberAt_of_ofWords_drop hts).1
    exact ⟨_, .of_apply ha ho hv he, not_faultAt_succ ho (lt_length_of_bind hv) hbefore⟩
  | case6 a o v rest r hr ih =>
    obtain ⟨ho, hts⟩ := operatorAt_of_ofWords_drop hts
    obtain ⟨hv, hts⟩ := numberAt_of_ofWords_drop hts
    have hsucc : valueUpTo ws (n + 1) = some r :=
      valueUpTo_succ_eq_some_iff.2 ⟨a, o, v, ha, ho, hv, hr⟩
    refine ih (n := n + 1) hsucc hts fun j hj d hf => ?_
    rcases Nat.lt_succ_iff_lt_or_eq.1 hj with hj | rfl
    · exact not_faultAt_succ ho (lt_length_of_bind hv) hbefore j hj d hf
    · rcases hf.even_cases with ⟨p, hp, -⟩ | ⟨k, a', o', v', hk, ha', ho', hv', he⟩
      · cases (numberAt_eq_none hp).symm.trans hv
      · obtain rfl : n = k := by omega
        cases ha.symm.trans ha'
        cases ho.symm.trans ho'
        cases hv.symm.trans hv'
        cases hr.symm.trans he

/-- The scan of all words: the first one is a number or the first fault. -/
theorem value_scan {ts : List Token} (hne : ws ≠ []) (hts : Token.ofWords ws = .ok ts) :
    Outcome ws (value ts) := by
  have hdrop : Token.ofWords (ws.drop 0) = .ok ts := hts
  cases ts with
  | nil =>
    have hlen := length_le_of_ofWords_drop hdrop
    exact absurd (List.length_eq_zero_iff.1 (Nat.le_zero.1 hlen)) hne
  | cons t ts =>
    cases t with
    | operator o =>
      exact ⟨_, .strayOperator (n := 0) (operatorAt_of_ofWords_drop hdrop).1, by simp⟩
    | number v =>
      obtain ⟨hv, hts⟩ := numberAt_of_ofWords_drop hdrop
      refine continueWith_scan (n := 0) hv hts fun j hj d hf => ?_
      obtain rfl : j = 2 * 0 := by omega
      rcases hf.even_cases with ⟨p, hp, -⟩ | ⟨k, -, -, -, hk, -⟩
      · cases (numberAt_eq_none hp).symm.trans hv
      · omega

/-! ## Texts -/

theorem evaluate_of_ofWords {t : Text} {ts : List Token} (h : Token.ofWords t.words = .ok ts) :
    evaluate t = value ts := by
  simp [evaluate, Token.ofText, h]

theorem evaluate_eq_ok_iff {t : Text} {v : Float} : evaluate t = .ok v ↔
    WellFormed t.words ∧ valueUpTo t.words (t.words.length / 2) = some v := by
  constructor
  · intro h
    cases hts : Token.ofWords t.words with
    | error e => simp [evaluate, Token.ofText, hts] at h
    | ok ts =>
      rw [evaluate_of_ofWords hts] at h
      have hne : t.words ≠ [] := by
        rintro hnil
        rw [hnil] at hts
        cases hts
        cases h
      have hscan := value_scan hne hts
      rw [h] at hscan
      obtain ⟨m, hl, hv⟩ := hscan
      refine ⟨wellFormed_of_valueUpTo hl hv, ?_⟩
      rwa [show t.words.length / 2 = m by omega]
  · rintro ⟨hw, hv⟩
    obtain ⟨ts, hts⟩ := Token.exists_ofWords_eq hw.isToken
    have hodd := hw.odd
    have hne : t.words ≠ [] := by
      intro hnil
      simp [hnil] at hodd
    rw [evaluate_of_ofWords hts]
    have hscan := value_scan hne hts
    cases hr : value ts with
    | error e =>
      rw [hr] at hscan
      obtain ⟨i, hi, -⟩ := hscan
      exact absurd hi (hw.not_faultAt hv i e)
    | ok r =>
      rw [hr] at hscan
      obtain ⟨m, hl, hm⟩ := hscan
      rw [show t.words.length / 2 = m by omega] at hv
      rw [Option.some.inj (hm.symm.trans hv)]

theorem evaluate_eq_error_iff {t : Text} {e : EvalError} : evaluate t = .error e ↔
    (∃ w, t.words.find? (fun w => !Token.isToken w) = some w ∧ e = .badNumeral w) ∨
    (∀ w ∈ t.words, Token.isToken w = true) ∧
      (t.words = [] ∧ e = .empty ∨ t.words ≠ [] ∧ FirstFault t.words e) := by
  constructor
  · intro h
    cases hts : Token.ofWords t.words with
    | error d =>
      obtain ⟨w, hw, rfl⟩ := Token.ofWords_eq_error_iff.1 hts
      refine .inl ⟨w, hw, ?_⟩
      simpa [evaluate, Token.ofText, hts] using h.symm
    | ok ts =>
      refine .inr ⟨Token.isToken_of_ofWords hts, ?_⟩
      rw [evaluate_of_ofWords hts] at h
      by_cases hne : t.words = []
      · rw [hne] at hts
        cases hts
        cases h
        exact .inl ⟨hne, rfl⟩
      · have hscan := value_scan hne hts
        rw [h] at hscan
        exact .inr ⟨hne, hscan⟩
  · rintro (⟨w, hw, rfl⟩ | ⟨hall, ⟨hnil, rfl⟩ | ⟨hne, hf⟩⟩)
    · simp [evaluate, Token.ofText, Token.ofWords_eq_error_iff.2 ⟨w, hw, rfl⟩]
    · rw [evaluate, Token.ofText, hnil]
      rfl
    · obtain ⟨ts, hts⟩ := Token.exists_ofWords_eq hall
      have hscan := value_scan hne hts
      rw [evaluate_of_ofWords hts]
      cases hr : value ts with
      | ok v =>
        rw [hr] at hscan
        obtain ⟨m, hl, hv⟩ := hscan
        have hw := wellFormed_of_valueUpTo hl hv
        rw [show m = t.words.length / 2 by omega] at hv
        obtain ⟨i, hi, -⟩ := hf
        exact absurd hi (hw.not_faultAt hv i e)
      | error d =>
        rw [hr] at hscan
        rw [FirstFault.unique hscan hf]

/-- A text has a value exactly when numerals and operators take turns in it, a numeral first and
last, and all operators can be applied from left to right. Without a value, the leftmost word that
is no token is the error; without such a word, there is no word at all, or the error is that of the
leftmost place at which the scan cannot go on. -/
theorem evaluate_classified (t : Text) :
    (∀ v, evaluate t = .ok v ↔
      WellFormed t.words ∧ valueUpTo t.words (t.words.length / 2) = some v) ∧
    (∀ v, evaluate t = .ok v → v.isFinite = true) ∧
    ∀ e, evaluate t = .error e ↔
      (∃ w, t.words.find? (fun w => !Token.isToken w) = some w ∧ e = .badNumeral w) ∨
      (∀ w ∈ t.words, Token.isToken w = true) ∧
        (t.words = [] ∧ e = .empty ∨ t.words ≠ [] ∧ ∃ i, FaultAt t.words i e ∧
          ∀ j < i, ∀ d, ¬ FaultAt t.words j d) :=
  ⟨fun _ => evaluate_eq_ok_iff, fun _ => isFinite_of_evaluate, fun _ => evaluate_eq_error_iff⟩

end Expression

end PocketCalc
