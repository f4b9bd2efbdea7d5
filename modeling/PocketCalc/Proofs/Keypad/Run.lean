import PocketCalc.Keypad.Device

/-!
# Runs of the calculator

The calculator of a device goes its own way, whatever the store answers. What holds when it is
switched on and survives each key, and the clearing of the history, holds after every run.

* `Device.calculator_run`: the store has no part in what the calculator does.
* `Calculator.respond_cases`: all that an input can do to the calculator.
* `Calculator.history_respond`: the history only changes where it is to be saved.
* `Device.run_of_ne_equals`: without the equals key the history and the store stay as they are.
* `Device.run_invariant`: an invariant of the keys is an invariant of the runs.
-/

namespace PocketCalc

namespace Calculator

/-- The calculator after an input. -/
def next (c : Calculator) (i : Input) : Calculator := (c.respond i).calculator

/-- The calculator after some inputs. -/
def run (c : Calculator) (is : List Input) : Calculator := is.foldl next c

@[simp] theorem run_nil (c : Calculator) : c.run [] = c := rfl

@[simp] theorem run_cons (c : Calculator) (i : Input) (is : List Input) :
    c.run (i :: is) = (c.next i).run is := rfl

theorem run_append (c : Calculator) (is js : List Input) :
    c.run (is ++ js) = (c.run is).run js := by
  simp [run]

/-- The inputs of a run, each with the calculator that it found. -/
def trace (c : Calculator) : List Input → List (Calculator × Input)
  | [] => []
  | i :: is => (c, i) :: (c.next i).trace is

theorem trace_append (c : Calculator) (is js : List Input) :
    c.trace (is ++ js) = c.trace is ++ (c.run is).trace js := by
  induction is generalizing c with
  | nil => rfl
  | cons i is ih => simp [trace, ih]

/-! ## What an input does -/

@[simp] theorem next_digit (c : Calculator) {d : Char} (hd : d.isDigit = true) :
    c.next (.key (.digit d)) = c.typeDigit d := by
  simp [next, respond, press, hd, shows]

theorem next_digit_of_not (c : Calculator) {d : Char} (hd : ¬ d.isDigit = true) :
    c.next (.key (.digit d)) = c := by
  simp [next, respond, press, hd]

@[simp] theorem next_point (c : Calculator) : c.next (.key .point) = c.typePoint := rfl

@[simp] theorem next_sign (c : Calculator) : c.next (.key .sign) = c.flipSign := rfl

@[simp] theorem next_percent (c : Calculator) : c.next (.key .percent) = c.takePercent := rfl

@[simp] theorem next_operator (c : Calculator) (o : Operator) :
    c.next (.key (.operator o)) = c.typeOperator o := rfl

@[simp] theorem next_equals (c : Calculator) :
    c.next (.key .equals) = c.showOutcome (Expression.evaluate c.expression) := rfl

@[simp] theorem next_clear (c : Calculator) : c.next (.key .clear) = c.clear := rfl

@[simp] theorem justComputed_typePoint (c : Calculator) :
    c.typePoint.justComputed = c.justComputed := by
  unfold typePoint
  split <;> rfl

@[simp] theorem justComputed_takePercent (c : Calculator) :
    c.takePercent.justComputed = c.justComputed := by
  unfold takePercent
  split <;> rfl

@[simp] theorem justComputed_flipSign (c : Calculator) :
    c.flipSign.justComputed = c.justComputed := by
  unfold flipSign
  split <;> rfl

@[simp] theorem expression_flipSign (c : Calculator) : c.flipSign.expression = c.expression := by
  unfold flipSign
  split <;> rfl

@[simp] theorem justComputed_showOutcome (c : Calculator) (r : Except EvalError Float) :
    (c.showOutcome r).justComputed = true := by
  cases r <;> rfl

@[simp] theorem expression_showOutcome (c : Calculator) (r : Except EvalError Float) :
    (c.showOutcome r).expression = c.expression := by
  cases r <;> rfl

/-- All that an input can do, one case for each operation on the calculator. -/
theorem respond_cases {P : Calculator → Prop} (c : Calculator) (i : Input) (same : P c)
    (digit : ∀ d, d.isDigit = true → P (c.typeDigit d)) (point : P c.typePoint)
    (sign : i = .key .sign → P c.flipSign) (percent : i = .key .percent → P c.takePercent)
    (operator : ∀ o, P (c.typeOperator o))
    (equals : P (c.showOutcome (Expression.evaluate c.expression))) (clear : P c.clear)
    (clearHistory : P { c with history := .empty }) : P (c.next i) := by
  cases i with
  | clearHistory => exact clearHistory
  | key k =>
    cases k with
    | digit d =>
      by_cases hd : d.isDigit = true
      · rw [next_digit c hd]
        exact digit d hd
      · rw [next_digit_of_not c hd]
        exact same
    | point => exact point
    | sign => exact sign rfl
    | percent => exact percent rfl
    | operator o => exact operator o
    | equals => exact equals
    | clear => exact clear

/-- The history only changes where it is to be saved. -/
theorem history_respond {c : Calculator} {i : Input} (h : (c.respond i).saves = false) :
    (c.respond i).calculator.history = c.history := by
  cases i with
  | clearHistory => simp [respond] at h
  | key k =>
    cases k with
    | digit d =>
      simp only [respond, press, shows, typeDigit]
      split
      · split <;> rfl
      · rfl
    | point =>
      simp only [respond, press, shows, typePoint]
      split <;> rfl
    | sign =>
      simp only [respond, press, shows, flipSign]
      split <;> rfl
    | percent =>
      simp only [respond, press, shows, takePercent]
      split <;> rfl
    | operator o => rfl
    | clear => rfl
    | equals =>
      simp only [respond, press, shows] at h ⊢
      cases he : Expression.evaluate c.expression with
      | ok v => simp [he, isValue] at h
      | error e => rfl

/-- What each input of a kind preserves is preserved by every run of such inputs. -/
theorem run_induction_of {P : Calculator → Prop} {Q : Input → Prop}
    (step : ∀ c i, Q i → P c → P (c.next i)) {c : Calculator} (h : P c) {is : List Input}
    (his : ∀ i ∈ is, Q i) : P (c.run is) := by
  induction is generalizing c with
  | nil => exact h
  | cons i is ih =>
    exact ih (step c i (his i (by simp)) h) fun j hj => his j (List.mem_cons_of_mem i hj)

/-- What each input preserves is preserved by every run. -/
theorem run_induction {P : Calculator → Prop} (step : ∀ c i, P c → P (c.next i)) {c : Calculator}
    (h : P c) (is : List Input) : P (c.run is) :=
  run_induction_of (Q := fun _ => True) (fun c i _ => step c i) h fun _ _ => trivial

end Calculator

namespace Device

variable [HistoryFormat] {σ : Type} [Store σ]

theorem calculator_run (d : Device σ) (is : List Input) :
    (d.run is).calculator = d.calculator.run is := by
  induction is generalizing d with
  | nil => rfl
  | cons i is ih => exact ih (d.step i)

theorem calculator_start (s : σ) :
    (start s).calculator = Calculator.start (History.load s).1 := rfl

theorem store_step_of_not_saves {d : Device σ} {i : Input}
    (h : (d.calculator.respond i).saves = false) : (d.step i).store = d.store := by
  simp [step, h]

/-- Only the equals key touches the history and its store; all other keys leave both alone. -/
theorem run_of_ne_equals (d : Device σ) {ks : List Key} (hk : ∀ k ∈ ks, k ≠ .equals) :
    (d.run (ks.map .key)).store = d.store ∧
      (d.run (ks.map .key)).calculator.history = d.calculator.history := by
  induction ks generalizing d with
  | nil => exact ⟨rfl, rfl⟩
  | cons k ks ih =>
    have hs : (d.calculator.respond (.key k)).saves = false :=
      eq_false_of_ne_true fun hs => hk k (by simp) ((Calculator.saves_press _ k).1 hs).1
    obtain ⟨hstore, hhistory⟩ := ih (d.step (.key k)) fun j hj => hk j (List.mem_cons_of_mem k hj)
    exact ⟨hstore.trans (store_step_of_not_saves hs),
      hhistory.trans (Calculator.history_respond hs)⟩

/-- What holds of a calculator that is switched on and survives each input holds after every run,
on whatever store. -/
theorem run_invariant {P : Calculator → Prop} (start : ∀ h, P (Calculator.start h))
    (step : ∀ c i, P c → P (c.next i)) (s : σ) (is : List Input) :
    P ((Device.start s).run is).calculator := by
  rw [calculator_run, calculator_start]
  exact Calculator.run_induction step (start _) is

end Device

end PocketCalc
