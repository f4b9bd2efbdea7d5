import PocketCalc.Expression.Token

/-!
# The value of an expression

Operators are applied from left to right, none before another: `2 + 3 × 4` is `20`. A word that is
no token is an error before everything else; then the leftmost fault counts.

* `isFinite_of_continueWith`: what is left after the last operator is finite.
* `isFinite_of_evaluate`: a value is finite.
-/

namespace PocketCalc

namespace Expression

/-- Goes on from a value over the tokens behind it, an operator and a number at a time. -/
def continueWith (total : Float) : List Token → Except EvalError Float
  | [] => .ok total
  | .number v :: _ => .error (.badNumeral (Decimal.plainText v))
  | [.operator _] => .error .missingOperand
  | .operator _ :: .operator o :: _ => .error (.strayOperator o.symbol)
  | .operator o :: .number v :: rest =>
    match o.apply total v with
    | .error e => .error e
    | .ok r => continueWith r rest

/-- The value of a row of tokens. -/
def value : List Token → Except EvalError Float
  | [] => .error .empty
  | .operator o :: _ => .error (.strayOperator o.symbol)
  | .number v :: rest => continueWith v rest

/-- The value of an expression. -/
def evaluate (t : Text) : Except EvalError Float :=
  match Token.ofText t with
  | .error e => .error e
  | .ok tokens => value tokens

theorem isFinite_of_continueWith {total r : Float} {tokens : List Token}
    (ht : total.isFinite = true) (h : continueWith total tokens = .ok r) : r.isFinite = true := by
  fun_induction continueWith total tokens with
  | case1 => cases h; exact ht
  | case2 | case3 | case4 | case5 => simp at h
  | case6 total o v rest s hs ih => exact ih (Operator.isFinite_of_apply hs) h

theorem isFinite_of_ofWord {w : Text} {v : Float} (h : Token.ofWord w = .ok (.number v)) :
    v.isFinite = true := by
  unfold Token.ofWord at h
  split at h
  · simp at h
  · cases hu : Numeral.parse w with
    | error e => simp [hu, Except.map] at h
    | ok u =>
      rw [hu] at h
      cases h
      exact Numeral.isFinite_of_read (Numeral.parse_eq_ok_iff.1 hu)

theorem isFinite_of_ofWords {ws : List Text} {tokens : List Token}
    (h : Token.ofWords ws = .ok tokens) : ∀ v, Token.number v ∈ tokens → v.isFinite = true := by
  induction ws generalizing tokens with
  | nil =>
    cases h
    simp
  | cons w ws ih =>
    unfold Token.ofWords at h
    split at h
    · simp at h
    · rename_i t ht
      split at h
      · simp at h
      · rename_i ts hts
        cases h
        intro v hv
        rcases List.mem_cons.1 hv with rfl | hv
        · exact isFinite_of_ofWord ht
        · exact ih hts v hv

theorem isFinite_of_evaluate {t : Text} {v : Float} (h : evaluate t = .ok v) :
    v.isFinite = true := by
  unfold evaluate at h
  split at h
  · simp at h
  · rename_i tokens ht
    cases tokens with
    | nil => simp [value] at h
    | cons first rest =>
      cases first with
      | operator o => simp [value] at h
      | number u => exact isFinite_of_continueWith (isFinite_of_ofWords ht u (by simp)) h

end Expression

end PocketCalc
