import PocketCalc.Expression.Evaluate

/-!
# Going on from a value

Operators are applied from left to right, so a text with more words behind it comes to what those
words make of the value of the text. Nothing else of the text counts.

* `Expression.continueWith_append`: the tokens behind some tokens go on from their value.
* `Expression.evaluate_of_words_append`: the same for the words of two texts.
-/

namespace PocketCalc

theorem Token.ofWords_append (ws us : List Text) : ofWords (ws ++ us) = (do
    let ts ← ofWords ws
    let rest ← ofWords us
    .ok (ts ++ rest)) := by
  induction ws with
  | nil => cases hu : ofWords us <;> simp [ofWords, hu, bind, Except.bind]
  | cons w ws ih =>
    rw [List.cons_append, ofWords_cons, ih, ofWords_cons]
    cases ofWord w with
    | error e => rfl
    | ok t =>
      cases ofWords ws with
      | error e => rfl
      | ok ts => cases ofWords us <;> rfl

namespace Expression

theorem continueWith_append {total r : Float} {tokens : List Token}
    (h : continueWith total tokens = .ok r) (rest : List Token) :
    continueWith total (tokens ++ rest) = continueWith r rest := by
  fun_induction continueWith total tokens with
  | case1 =>
    cases h
    rfl
  | case2 | case3 | case4 | case5 => simp at h
  | case6 total o v tokens s hs ih => simpa [continueWith, hs] using ih h

theorem value_append {r : Float} {tokens : List Token} (h : value tokens = .ok r)
    (rest : List Token) : value (tokens ++ rest) = continueWith r rest := by
  cases tokens with
  | nil => simp [value] at h
  | cons first tokens =>
    cases first with
    | operator o => simp [value] at h
    | number v => exact continueWith_append h rest

/-- A word that stands for a number has that value. -/
theorem evaluate_of_word {t : Text} {v : Float} (ht : t.words = [t])
    (hv : Token.ofWord t = .ok (.number v)) : evaluate t = .ok v := by
  have htokens : Token.ofText t = .ok [.number v] := by
    rw [Token.ofText, ht, Token.ofWords, hv]
    rfl
  rw [evaluate, htokens]
  rfl

/-- More words behind those of a text go on from the value of the text. -/
theorem evaluate_of_words_append {s t : Text} {us : List Text} {v : Float}
    (h : evaluate t = .ok v) (hs : s.words = t.words ++ us) :
    evaluate s = (Token.ofWords us).bind (continueWith v) := by
  have hofText : Token.ofText s = Token.ofWords (t.words ++ us) := congrArg Token.ofWords hs
  rw [Token.ofWords_append, ← Token.ofText] at hofText
  unfold evaluate at h
  split at h
  · cases h
  · rename_i tokens ht
    rw [ht] at hofText
    rw [evaluate, hofText]
    cases Token.ofWords us with
    | error e => rfl
    | ok rest => exact value_append h rest

end Expression

end PocketCalc
