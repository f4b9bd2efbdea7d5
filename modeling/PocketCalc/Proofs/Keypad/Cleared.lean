import Mathlib.Data.List.DropRight
import Mathlib.Data.List.Induction
import PocketCalc.History.Json
import PocketCalc.Proofs.Keypad.Legible
import PocketCalc.Storage.Memory

/-!
# The cleared calculator

The calculator counts as cleared when it is switched on and behind the clear key, until a key sets
another phase. Of the keys that do not, the percent key alone writes: a zero divided by a hundred
stays a zero on the display, but the expression gets a mark. So a calculator that counts as cleared
is a new one with the same history, but for a mark for each such key.

* `Calculator.Legible.phase_next_eq_cleared_iff`: which inputs lead to the cleared phase.
* `Calculator.next_marked`: what an input does to a cleared calculator that leaves it cleared.
* `Calculator.run_start_eq`: a run that ends in the cleared phase.
* `Device.cleared_run`: when the phase is cleared, and what else there is then.
-/

namespace PocketCalc

/-- Whether an input leaves a cleared calculator in that phase, apart from the clear key. -/
def Input.keepsCleared : Input → Bool
  | .key (.digit d) => !d.isDigit
  | .key .sign | .key .percent | .clearHistory => true
  | .key .point | .key (.operator _) | .key .equals | .key .clear => false

namespace Calculator

/-! ## The phase -/

theorem phase_typeDigit (c : Calculator) (d : Char) : (c.typeDigit d).phase = .typing := by
  unfold typeDigit
  split <;> rfl

theorem phase_flipSign (c : Calculator) : c.flipSign.phase = c.phase := by
  unfold flipSign
  split <;> rfl

theorem phase_takePercent_eq_cleared_iff (c : Calculator) :
    c.takePercent.phase = .cleared ↔ c.phase = .cleared := by
  unfold takePercent
  split
  · rfl
  · dsimp only
    split
    · rename_i hp
      simp [hp]
    · rfl

theorem phase_showOutcome (c : Calculator) (r : Except EvalError Float) :
    (c.showOutcome r).phase = .result := by
  cases r <;> rfl

namespace Legible

variable {c : Calculator}

/-- Behind a point something is typed or a result is shown: there is none on a cleared display. -/
theorem phase_typePoint_ne_cleared (h : c.Legible) : c.typePoint.phase ≠ .cleared := by
  intro hc
  unfold Calculator.typePoint at hc
  split at hc
  · rename_i hd
    rw [h.idle (.inl hc)] at hd
    exact absurd hd (by decide)
  · dsimp only at hc
    split at hc
    · rename_i hj
      cases (h.computed.1 hj).symm.trans hc
    · cases hc

/-- Only the clear key leads to the cleared phase from another one. -/
theorem phase_next_eq_cleared_iff (h : c.Legible) (i : Input) : (c.next i).phase = .cleared ↔
    i = .key .clear ∨ c.phase = .cleared ∧ i.keepsCleared = true := by
  cases i with
  | clearHistory => simp [Calculator.next, Calculator.respond, Input.keepsCleared]
  | key k =>
    cases k with
    | digit d =>
      by_cases hd : d.isDigit = true
      · simp [next_digit c hd, phase_typeDigit, Input.keepsCleared, hd]
      · simp [next_digit_of_not c hd, Input.keepsCleared, hd]
    | point => simp [h.phase_typePoint_ne_cleared, Input.keepsCleared]
    | sign => simp [phase_flipSign, Input.keepsCleared]
    | percent => simp [phase_takePercent_eq_cleared_iff, Input.keepsCleared]
    | operator o => simp [Calculator.typeOperator, Input.keepsCleared]
    | equals => simp [phase_showOutcome, Input.keepsCleared]
    | clear => simp [Calculator.clear, Calculator.start]

end Legible

/-! ## Marks -/

/-- A new calculator but for some percent marks in its expression. -/
def marked (history : History) (n : Nat) : Calculator :=
  { start history with expression := List.replicate n '%' }

theorem takePercent_marked (history : History) (n : Nat) :
    (marked history n).takePercent = marked history (n + 1) := by
  have hread : Numeral.read? zeroText = some 0 := by decide +kernel
  have hmarks : List.replicate n '%' ++ ['%'] = List.replicate (n + 1) '%' :=
    List.replicate_succ'.symm
  unfold takePercent marked start
  dsimp only
  rw [hread]
  simp [Legible.number_hundredth hread, hmarks]

/-- What leaves the phase cleared changes the history at most, and the percent key adds a mark. -/
theorem next_marked (history : History) (n : Nat) {i : Input} (hi : i.keepsCleared = true) :
    (marked history n).next i = marked ((marked history n).next i).history
      (n + if i = .key .percent then 1 else 0) := by
  cases i with
  | clearHistory => rfl
  | key k =>
    cases k with
    | digit d =>
      have hd : ¬ d.isDigit = true := by simpa [Input.keepsCleared] using hi
      rw [next_digit_of_not _ hd]
      rfl
    | sign => rfl
    | percent =>
      rw [next_percent, takePercent_marked]
      rfl
    | _ => cases hi

/-- The inputs of a run behind the last clear key. -/
def sinceClear (is : List Input) : List Input := is.rtakeWhile fun i => decide (i ≠ .key .clear)

theorem sinceClear_append_singleton (is : List Input) (i : Input) :
    sinceClear (is ++ [i]) = if i = .key .clear then [] else sinceClear is ++ [i] := by
  by_cases hi : i = .key .clear <;> simp [sinceClear, hi]

/-! ## Runs -/

/-- The phase is cleared exactly if nothing behind the last clear key set another one. -/
theorem phase_run_start_eq_cleared_iff (history : History) (is : List Input) :
    ((start history).run is).phase = .cleared ↔ ∀ i ∈ sinceClear is, i.keepsCleared = true := by
  induction is using List.reverseRecOn with
  | nil => simp [sinceClear, start]
  | append_singleton is i ih =>
    have hlegible : ((start history).run is).Legible := (Legible.start history).run is
    rw [run_append, run_cons, run_nil, hlegible.phase_next_eq_cleared_iff,
      sinceClear_append_singleton, ih]
    by_cases hi : i = .key .clear
    · simp [hi]
    · simp [hi, or_imp, forall_and]

/-- In the cleared phase there is a mark for each percent key behind the last clear key, and all
else is as in a new calculator. -/
theorem run_start_eq (history : History) {is : List Input}
    (h : ((start history).run is).phase = .cleared) : (start history).run is =
      marked ((start history).run is).history ((sinceClear is).count (.key .percent)) := by
  induction is using List.reverseRecOn with
  | nil => rfl
  | append_singleton is i ih =>
    rw [run_append, run_cons, run_nil] at h ⊢
    rw [sinceClear_append_singleton]
    by_cases hi : i = .key .clear
    · rw [hi]
      rfl
    · have hlegible : ((start history).run is).Legible := (Legible.start history).run is
      obtain ⟨hc, hk⟩ := ((hlegible.phase_next_eq_cleared_iff i).1 h).resolve_left hi
      have hn := next_marked ((start history).run is).history
        ((sinceClear is).count (.key .percent)) hk
      rw [← ih hc] at hn
      simpa only [if_neg hi, List.count_append, List.count_singleton, beq_iff_eq] using hn

theorem marked_eq_start_iff (history : History) (n : Nat) :
    marked history n = start history ↔ n = 0 := by
  simp [marked, start]

end Calculator

namespace Device

/-- After every run the phase is cleared exactly if, since the last clear key or the start, there
were at most signs, percent keys, keys without a digit and clearings of the history. The calculator
then has a lone zero on the display and no result, and its expression is one percent mark for each of
the percent keys: it is a new calculator with the same history exactly if there was none. -/
theorem cleared_run [HistoryFormat] {σ : Type} [Store σ] (s : σ) (is : List Input) :
    let c := ((start s).run is).calculator
    (c.phase = .cleared ↔ ∀ i ∈ Calculator.sinceClear is, i.keepsCleared = true) ∧
    (c.phase = .cleared → c = { Calculator.start c.history with
      expression := List.replicate ((Calculator.sinceClear is).count (.key .percent)) '%' }) ∧
    (c.phase = .cleared →
      (c = Calculator.start c.history ↔ .key .percent ∉ Calculator.sinceClear is)) := by
  intro c
  have hc : c = (Calculator.start (History.load s).1).run is := calculator_run (start s) is
  have hmarked (hp : c.phase = .cleared) : c = Calculator.marked c.history
      ((Calculator.sinceClear is).count (.key .percent)) := by
    rw [hc] at hp ⊢
    exact Calculator.run_start_eq _ hp
  refine ⟨?_, hmarked, fun hp => ?_⟩
  · rw [hc]
    exact Calculator.phase_run_start_eq_cleared_iff _ is
  · rw [← List.count_eq_zero, ← Calculator.marked_eq_start_iff c.history, ← hmarked hp]

/-- A percent key right at the start leaves a mark in an expression that counts as cleared. The
calculator does not go on like a new one: behind the next digit the equals key finds no value. -/
theorem mark_in_cleared_expression :
    let c := ((start MemoryStore.empty).run [.key .percent]).calculator
    let five : List Input := [.key (.digit '5'), .key .equals]
    c.phase = .cleared ∧ c.expression = ['%'] ∧
      ¬ (c.phase = .cleared →
        c.expression = [] ∧ c.display = Calculator.zeroText ∧ c.justComputed = false) ∧
      (c.run five).display = Calculator.errorText ∧
      ((Calculator.start c.history).run five).display = ['5'] := by
  intro c five
  have hp : c.phase = .cleared := by decide +kernel
  have he : c.expression = ['%'] := by decide +kernel
  refine ⟨hp, he, fun h => ?_, by decide +kernel, by decide +kernel⟩
  rw [(h hp).1] at he
  cases he

end Device

end PocketCalc
