import PocketCalc.Display
import PocketCalc.Expression.Evaluate
import PocketCalc.History.Basic
import PocketCalc.Keypad.Key

/-!
# The calculator behind the keypad

The calculator holds what is on the display, the expression typed so far, and the history. A key
changes them, shows the new screen to whoever watches, and may ask for the history to be saved.

* `shown_press`: every key shows the screen after it, except a digit key without a digit.
* `saves_press`: only a key that finds a value asks for the history to be saved.
-/

namespace PocketCalc

/-- What the calculator is in the middle of. -/
inductive Phase where
  /-- Just started or cleared. -/
  | cleared
  /-- A numeral is being typed. -/
  | typing
  /-- An operator was typed last. -/
  | operatorPending
  /-- A result or an error is on the display. -/
  | result
deriving DecidableEq

/-- What a watcher sees: the display and the expression. -/
structure Screen where
  display : Text
  expression : Text
deriving DecidableEq

/-- The state of the calculator. -/
structure Calculator where
  display : Text
  expression : Text
  /-- Whether the next digit starts a new calculation. -/
  justComputed : Bool
  phase : Phase
  history : History
deriving DecidableEq

/-- What is done to the calculator. -/
inductive Input where
  | key (k : Key)
  | clearHistory
deriving DecidableEq

/-- What an input brings about. -/
structure Effect where
  /-- The calculator after it. -/
  calculator : Calculator
  /-- The screen that watchers are shown, if they are shown one. -/
  shown : Option Screen
  /-- Whether the history is to be saved. -/
  saves : Bool
deriving DecidableEq

namespace Calculator

/-- What is on the display at the start. -/
def zeroText : Text := ['0']

/-- What is on the display after a failure. -/
def errorText : Text := "Error".toList

/-- What watchers are shown instead of an empty expression. -/
def emptyText : Text := [' ']

/-- A calculator that was just switched on, with a history. -/
def start (history : History) : Calculator := ⟨zeroText, [], false, .cleared, history⟩

/-- What watchers see of the calculator. -/
def screen (c : Calculator) : Screen :=
  ⟨c.display, if c.expression = [] then emptyText else c.expression⟩

/-! ## The keys -/

/-- A digit replaces a result or a lone zero and goes behind anything else. -/
def typeDigit (c : Calculator) (d : Char) : Calculator :=
  if c.justComputed then
    { c with display := [d], expression := [d], justComputed := false, phase := .typing }
  else
    { c with
      display := if c.display = zeroText then [d] else c.display ++ [d]
      expression := c.expression ++ [d]
      phase := .typing }

/-- A point goes behind a display that has none. -/
def typePoint (c : Calculator) : Calculator :=
  if c.display = errorText ∨ '.' ∈ c.display then c
  else
    { c with
      display := c.display ++ ['.']
      expression := c.expression ++ ['.']
      phase := if c.justComputed then c.phase else .typing }

/-- The minus sign in front of a text, put there or taken away. -/
def negated : Text → Text
  | '-' :: t => t
  | t => '-' :: t

/-- The sign of the display changes; the expression is left alone. -/
def flipSign (c : Calculator) : Calculator :=
  if c.display = zeroText ∨ c.display = errorText then c else { c with display := negated c.display }

/-- The number on the display is divided by a hundred; the expression only gets a mark. -/
def takePercent (c : Calculator) : Calculator :=
  match Numeral.read? c.display with
  | none => c
  | some v =>
    { c with
      display := Display.number (v / 100)
      expression := c.expression ++ ['%']
      phase := if c.phase = .operatorPending then .typing else c.phase }

/-- Whether a character can stand for an operator. -/
def isOperatorChar (c : Char) : Bool := (Operator.ofChar? c).isSome

/-- An expression without the operator at its end and the blanks around it. -/
def dropOperator (t : Text) : Text :=
  Text.trimEnd ((Text.trimEnd t).reverse.dropWhile isOperatorChar).reverse

/-- An operator as it stands in an expression. -/
def spaced (o : Operator) : Text := ' ' :: o.symbol ++ [' ']

/-- An operator goes on from a result, takes the place of an operator typed just before, or goes
behind the expression. -/
def typeOperator (c : Calculator) (o : Operator) : Calculator :=
  { c with
    display := zeroText
    expression :=
      if c.justComputed then c.display ++ spaced o
      else if c.phase = .operatorPending then dropOperator c.expression ++ spaced o
      else c.expression ++ spaced o
    justComputed := false
    phase := .operatorPending }

/-- The calculator with the outcome of its expression on the display. -/
def showOutcome (c : Calculator) : Except EvalError Float → Calculator
  | .ok v =>
    { c with
      display := Display.number v
      justComputed := true
      phase := .result
      history := c.history.record ⟨c.expression, Display.number v⟩ }
  | .error _ => { c with display := errorText, justComputed := true, phase := .result }

/-- The display and the expression are emptied; the history stays. -/
def clear (c : Calculator) : Calculator := start c.history

/-- A calculator whose watchers are shown its screen. -/
def shows (c : Calculator) (saves : Bool) : Effect := ⟨c, some c.screen, saves⟩

/-- Whether an outcome is a value. -/
def isValue : Except EvalError Float → Bool
  | .ok _ => true
  | .error _ => false

/-- What pressing a key does. Only a digit can be typed with a digit key. -/
def press (c : Calculator) : Key → Effect
  | .digit d => if d.isDigit then (c.typeDigit d).shows false else ⟨c, none, false⟩
  | .point => c.typePoint.shows false
  | .sign => c.flipSign.shows false
  | .percent => c.takePercent.shows false
  | .operator o => (c.typeOperator o).shows false
  | .equals =>
    let outcome := Expression.evaluate c.expression
    (c.showOutcome outcome).shows (isValue outcome)
  | .clear => c.clear.shows false

/-- What an input does. Clearing the history shows nothing new. -/
def respond (c : Calculator) : Input → Effect
  | .key k => c.press k
  | .clearHistory => ⟨{ c with history := .empty }, none, true⟩

theorem shown_press (c : Calculator) {k : Key} (hk : ∀ d, k = .digit d → d.isDigit = true) :
    (c.press k).shown = some (c.press k).calculator.screen := by
  cases k with
  | digit d => simp [press, shows, hk d rfl]
  | _ => rfl

theorem saves_press (c : Calculator) (k : Key) :
    (c.press k).saves = true ↔ k = .equals ∧ isValue (Expression.evaluate c.expression) = true := by
  cases k with
  | digit d =>
    simp only [press]
    split <;> simp [shows]
  | _ => simp [press, shows]

end Calculator

end PocketCalc
