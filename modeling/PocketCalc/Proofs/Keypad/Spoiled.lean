import PocketCalc.Proofs.Expression.Scan
import PocketCalc.Proofs.Keypad.Retyping

/-!
# Expressions that cannot be mended

A key writes behind the expression and takes nothing back but a pending operator, in whose place it
puts another. So a percent mark stays, and an operator or an error that is the first word stays the
first word or makes room for an operator. With either fault there is no value.

* `Expression.Spoiled.exists_evaluate_eq`: a spoiled expression has no value.
* `Expression.spoiled_append_spaced_iff`, `Expression.Spoiled.append_char`: what is written behind
  an expression does not mend it.
* `Calculator.Spoiled.next`: what each key preserves that builds an expression.
* `Device.spoiled_run`: the equals key behind any such keys.
-/

namespace PocketCalc

/-! ## Percent marks in words -/

theorem Numeral.isPart_of_mem {w : Text} (h : hasShape w = true) {c : Char} (hc : c ∈ w) :
    isPart c = true := by
  have hbody : c = '-' ∨ c ∈ body w := by
    unfold body
    split
    · exact List.mem_cons.1 hc
    · exact .inr hc
  rcases hbody with rfl | hc
  · rfl
  · unfold hasShape at h
    split at h
    · cases h
    · rename_i d rest hw
      rw [hw] at hc
      exact List.all_eq_true.1 (Bool.and_eq_true_iff.1 h).2 c hc

theorem Token.isToken_eq_false_of_percent {w : Text} (h : '%' ∈ w) : isToken w = false := by
  have hread : Numeral.read? w = none := by
    refine if_neg fun hs => ?_
    have := Numeral.isPart_of_mem hs h
    simp [Numeral.isPart] at this
  have hoperator : Expression.isOperatorWord w = false := by
    cases w with
    | nil => rfl
    | cons c rest =>
      cases rest with
      | nil =>
        obtain rfl := List.mem_singleton.1 h
        rfl
      | cons d rest => rfl
  simp [isToken, hread, hoperator]

namespace Expression

/-! ## Faults that stay -/

/-- A word with which no expression that has a value begins: an operator or an error. -/
def IsBadStart (w : Text) : Prop := isOperatorWord w = true ∨ w = Calculator.errorText

/-- The text has a percent mark, or its first word is an operator or an error. -/
def Spoiled (t : Text) : Prop := '%' ∈ t ∨ ∃ w ∈ t.words.head?, IsBadStart w

/-- A spoiled expression has no value. -/
theorem Spoiled.exists_evaluate_eq {t : Text} (h : Spoiled t) : ∃ e, evaluate t = .error e := by
  cases he : evaluate t with
  | error e => exact ⟨e, rfl⟩
  | ok v =>
    obtain ⟨hw, -⟩ := evaluate_eq_ok_iff.1 he
    rcases h with hp | ⟨w, hhead, hbad⟩
    · refine absurd hp (Text.not_mem_of_forall_words (by decide) fun w hmem hp => ?_)
      simpa [Token.isToken_eq_false_of_percent hp] using hw.isToken w hmem
    · rw [List.head?_eq_getElem?] at hhead
      obtain ⟨ho, hr⟩ := hw.numeral hhead rfl
      rcases hbad with hop | rfl
      · simp [isOperatorWord, ho] at hop
      · exact absurd hr (by decide)

/-- An operator behind a text leaves its faults, and is a fault behind no word. -/
theorem spoiled_append_spaced_iff (t : Text) (o : Operator) :
    Spoiled (t ++ Calculator.spaced o) ↔ t.words = [] ∨ Spoiled t := by
  have hpercent : '%' ∈ t ++ Calculator.spaced o ↔ '%' ∈ t := by
    have hs : '%' ∉ Calculator.spaced o := by cases o <;> decide
    simp [hs]
  unfold Spoiled
  rw [hpercent, words_append_spaced]
  cases hw : t.words with
  | nil => simp [IsBadStart, isOperatorWord_symbol]
  | cons w ws => simp

/-- A character makes a first word longer only if that is the last word too, and then it is no bad
start yet. -/
theorem Spoiled.append_char {t : Text} (h : Spoiled t) (ht : ¬ IsBadStart t.ending) {x : Char}
    (hx : Text.isBlank x = false) : Spoiled (t ++ [x]) := by
  rcases h with hp | ⟨w, hhead, hbad⟩
  · exact .inl (List.mem_append_left _ hp)
  · have hwords : Text.words (t ++ [x]) = t.lead.words ++ [t.ending ++ [x]] := by
      rw [Text.words_of_ending (by simp [Text.ending_append_char hx]), Text.lead_append_char hx,
        Text.ending_append_char hx]
    refine .inr ⟨w, ?_, hbad⟩
    rw [hwords]
    by_cases hne : t.ending = []
    · rw [Text.lead_eq_self hne]
      exact List.mem_head?_append_of_mem_head? hhead
    · rw [Text.words_of_ending hne] at hhead
      cases hl : t.lead.words with
      | nil =>
        simp only [hl, List.nil_append, List.head?_cons, Option.mem_some_iff] at hhead
        exact absurd (hhead ▸ hbad) ht
      | cons v vs => simpa [hl] using hhead

end Expression

namespace Calculator

open Expression (IsBadStart)

/-! ## What every key preserves -/

theorem not_isBadStart_of_endsIn {w : Text} (h : w.EndsIn IsOperandEnd) : ¬ IsBadStart w := by
  obtain ⟨s, x, rfl, hx⟩ := h
  rintro (hop | he)
  · cases s with
    | nil => simp [Expression.isOperatorWord, Operator.ofSymbol?, hx.isOperandChar.2] at hop
    | cons d s =>
      rw [Expression.isOperatorWord_append_char (by simp)] at hop
      cases hop
  · have hr : x = 'r' := by simpa [errorText] using congrArg List.getLast? he
    subst hr
    simp [IsOperandEnd] at hx

/-- While no result is shown, what stands behind the last blank is no operator and no error. -/
theorem Coherent.not_isBadStart_ending {c : Calculator} (h : c.Coherent)
    (hj : c.justComputed = false) : ¬ IsBadStart c.expression.ending := by
  have hnil : ¬ IsBadStart [] := by simp [IsBadStart, Expression.isOperatorWord,
    Operator.ofSymbol?, errorText]
  by_cases hp : c.phase = .operatorPending
  · obtain ⟨p, o, he, -⟩ := h.pending hp
    rwa [he, Expression.ending_append_spaced]
  · have hr : c.phase ≠ .result := fun hr => by
      cases hj.symm.trans (h.legible.computed.2 hr)
    rcases h.endsIn_expression hr hp with he | ⟨s, x, he, hx⟩
    · rwa [he]
    · rw [he, Text.ending_append_char hx.isOperandChar.1]
      exact not_isBadStart_of_endsIn ⟨Text.ending s, x, rfl, hx⟩

/-- The expression is not finished, and it has a fault that stays. -/
structure Spoiled (c : Calculator) : Prop where
  coherent : c.Coherent
  unfinished : c.justComputed = false
  expression : Expression.Spoiled c.expression

namespace Spoiled

variable {c : Calculator}

/-- No key that builds an expression mends it. -/
theorem next (h : c.Spoiled) {k : Key} (hk : k.writes = true ∨ k = .sign) :
    (c.next (.key k)).Spoiled := by
  have hc := h.coherent.next (.key k)
  rcases hk with hk | rfl
  · rcases next_of_writes h.unfinished hk with hsame | ⟨x, hx, -, he, hj⟩ | ⟨o, rfl⟩
    · rwa [hsame]
    · refine ⟨hc, hj, ?_⟩
      rw [he]
      exact h.expression.append_char (h.coherent.not_isBadStart_ending h.unfinished)
        hx.isOperandChar.1
    · refine ⟨hc, rfl, ?_⟩
      obtain ⟨p, he, -, ⟨hj, -⟩ | ⟨-, hp⟩⟩ := h.coherent.typeOperator_cases o
      · cases h.unfinished.symm.trans hj
      · rw [next_operator, he, Expression.spoiled_append_spaced_iff]
        rcases hp with rfl | ⟨o', ho'⟩
        · exact .inr h.expression
        · rw [← Expression.spoiled_append_spaced_iff p o', ← ho']
          exact h.expression
  · exact ⟨hc, by simpa using h.unfinished, by simpa using h.expression⟩

theorem run (h : c.Spoiled) {ks : List Key} (hk : ∀ k ∈ ks, k.writes = true ∨ k = .sign) :
    (c.run (ks.map .key)).Spoiled := by
  induction ks generalizing c with
  | nil => exact h
  | cons k ks ih => exact ih (h.next (hk k (by simp))) fun j hj => hk j (List.mem_cons_of_mem k hj)

/-- An operator behind an error makes an expression that begins with it. -/
theorem of_display_eq_errorText (h : c.Coherent) (hd : c.display = errorText) (o : Operator) :
    (c.typeOperator o).Spoiled := by
  refine ⟨h.typeOperator o, rfl, ?_⟩
  have hj : c.justComputed = true := by
    rcases h.legible.display with ⟨-, hp⟩ | ⟨hn, -⟩
    · exact h.legible.computed.2 hp
    · exact absurd hd hn.ne_errorText
  rw [typeOperator_eq, operand_of_computed hj, hd]
  exact (Expression.spoiled_append_spaced_iff errorText o).2 (.inr (.inr ⟨errorText, rfl, .inr rfl⟩))

end Spoiled

end Calculator

/-! ## Runs -/

namespace Device

section

variable [HistoryFormat] {σ : Type} [Store σ]

/-- One device shows an error, with the history and the store of another one. -/
structure Failed (d e : Device σ) : Prop where
  display : e.calculator.display = Calculator.errorText
  history : e.calculator.history = d.calculator.history
  store : e.store = d.store

/-- The equals key finds no value in a spoiled expression. -/
theorem failed_step (d : Device σ) (h : d.calculator.Spoiled) : d.Failed (d.step (.key .equals)) := by
  obtain ⟨e, he⟩ := h.expression.exists_evaluate_eq
  have hs : (d.calculator.respond (.key .equals)).saves = false :=
    congrArg Calculator.isValue he
  refine ⟨?_, Calculator.history_respond hs, store_step_of_not_saves hs⟩
  show (d.calculator.showOutcome (Expression.evaluate d.calculator.expression)).display = _
  rw [he]
  rfl

theorem failed_run (d : Device σ) (h : d.calculator.Spoiled) {ks : List Key}
    (hk : ∀ k ∈ ks, k.writes = true ∨ k = .sign) :
    d.Failed (d.run (ks.map .key ++ [.key .equals])) := by
  have hne : ∀ k ∈ ks, k ≠ .equals := fun k hmem => by
    rcases hk k hmem with hw | rfl
    · exact Key.ne_equals_of_writes hw
    · simp
  obtain ⟨hstore, hhistory⟩ := d.run_of_ne_equals hne
  have hspoiled : (d.run (ks.map .key)).calculator.Spoiled := by
    rw [calculator_run]
    exact h.run hk
  have hfailed := failed_step _ hspoiled
  rw [run_append]
  exact ⟨hfailed.display, hfailed.history.trans hhistory, hfailed.store.trans hstore⟩

/-- The keys of some rounds, in each an operator, other keys, and the equals key. -/
def roundInputs (rounds : List (Operator × List Key)) : List Input :=
  rounds.flatMap fun r => .key (.operator r.1) :: r.2.map .key ++ [.key .equals]

/-- Rounds behind an error end with an error. -/
theorem failed_rounds {d : Device σ} (hc : d.calculator.Coherent)
    (hd : d.calculator.display = Calculator.errorText) {rounds : List (Operator × List Key)}
    (hk : ∀ r ∈ rounds, ∀ k ∈ r.2, k.writes = true ∨ k = .sign) :
    d.Failed (d.run (roundInputs rounds)) := by
  induction rounds generalizing d with
  | nil => exact ⟨hd, rfl, rfl⟩
  | cons r rounds ih =>
    -- The operator makes an expression that begins with the error.
    have hround : d.Failed (d.run (.key (.operator r.1) :: r.2.map .key ++ [.key .equals])) := by
      obtain ⟨hdisplay, hhistory, hstore⟩ := failed_run (d.step (.key (.operator r.1)))
        (.of_display_eq_errorText hc hd r.1) (hk r (by simp))
      exact ⟨hdisplay, hhistory, hstore⟩
    have hcoherent : (d.run (.key (.operator r.1) :: r.2.map .key ++
        [.key .equals])).calculator.Coherent := by
      rw [calculator_run]
      exact Calculator.run_induction (fun _ i hc => hc.next i) hc _
    obtain ⟨hdisplay, hhistory, hstore⟩ := ih hcoherent hround.display fun s hs =>
      hk s (List.mem_cons_of_mem r hs)
    rw [roundInputs, List.flatMap_cons, run_append]
    exact ⟨hdisplay, hhistory.trans hround.history, hstore.trans hround.store⟩

/-- Where a run ends with an expression that has a percent mark, or begins with an operator or an
error, and with no result on show: the equals key behind any digits, points, signs, percent keys and
operators shows an error, and leaves the history and the store as they were. Where a run ends with
an error on show, any number of rounds of an operator, such keys and the equals key do the same. -/
theorem spoiled_run (s : σ) (is : List Input) :
    let d := (start s).run is
    (d.calculator.phase ≠ .result → Expression.Spoiled d.calculator.expression →
      ∀ ks : List Key, (∀ k ∈ ks, k.writes = true ∨ k = .sign) →
        d.Failed (d.run (ks.map .key ++ [.key .equals]))) ∧
    (d.calculator.display = Calculator.errorText →
      ∀ rounds : List (Operator × List Key),
        (∀ r ∈ rounds, ∀ k ∈ r.2, k.writes = true ∨ k = .sign) →
        d.Failed (d.run (roundInputs rounds))) := by
  intro d
  have hc : d.calculator.Coherent := coherent_run s is
  refine ⟨fun hp hs ks hk => ?_, fun hd rounds hk => failed_rounds hc hd hk⟩
  exact failed_run d ⟨hc, hc.legible.justComputed_eq_false hp, hs⟩ hk

end

/-- A percent key that is undone on the display, with more keys behind it; and behind the error that
it leads to an operator with a numeral, and one without. -/
theorem spoiled_run_of_percent :
    let five : List Input := [.key (.digit '5'), .key .percent, .key .sign,
      .key (.operator .plus), .key (.digit '2')]
    let d := (start MemoryStore.empty).run five
    let e := (start MemoryStore.empty).run (five ++ [.key .equals])
    let ks : List Key := [.point, .sign, .digit '1']
    let rounds : List (Operator × List Key) := [(.times, [.digit '3', .sign]), (.minus, [])]
    d.calculator.phase ≠ .result ∧ Expression.Spoiled d.calculator.expression ∧
    (∀ k ∈ ks, k.writes = true ∨ k = .sign) ∧
    d.Failed (d.run (ks.map .key ++ [.key .equals])) ∧
    e.calculator.display = Calculator.errorText ∧
    (∀ r ∈ rounds, ∀ k ∈ r.2, k.writes = true ∨ k = .sign) ∧
    e.Failed (e.run (roundInputs rounds)) := by
  intro five d e ks rounds
  have hphase : d.calculator.phase ≠ .result := by decide +kernel
  have hexpression : d.calculator.expression = "5% + 2".toList := by decide +kernel
  have hspoiled : Expression.Spoiled d.calculator.expression :=
    .inl (by rw [hexpression]; decide)
  have hks : ∀ k ∈ ks, k.writes = true ∨ k = .sign := by decide
  have hdisplay : e.calculator.display = Calculator.errorText := by decide +kernel
  have hrounds : ∀ r ∈ rounds, ∀ k ∈ r.2, k.writes = true ∨ k = .sign := by decide
  exact ⟨hphase, hspoiled, hks, (spoiled_run _ five).1 hphase hspoiled ks hks, hdisplay, hrounds,
    (spoiled_run _ (five ++ [.key .equals])).2 hdisplay rounds hrounds⟩

end Device

end PocketCalc
