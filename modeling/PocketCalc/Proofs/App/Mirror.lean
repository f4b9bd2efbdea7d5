import Mathlib.Data.List.Induction
import Mathlib.Data.List.Infix
import PocketCalc.Proofs.App.Restart

/-!
# What watchers are shown

A watcher of the calculator is shown one screen for each keystroke, the one after it, and nothing
for anything else; and what is not shown changes nothing on the screen. So a watcher who keeps the
last screen always has the current one, and the application does just that.

* `Calculator.shown_respond`: what an input shows.
* `Device.notices_eq`: all that is shown in a run.
* `App.Mirrors.step`: the application keeps the screen of its calculator.
* `Session.mirror_run`: both, for every run.
-/

namespace PocketCalc

/-- Whether an input is a keystroke: a key, and with a digit on it if it is a digit key. -/
def Input.isKeystroke : Input → Bool
  | .key (.digit d) => d.isDigit
  | .key .point | .key .sign | .key .percent | .key (.operator _) | .key .equals | .key .clear =>
    true
  | .clearHistory => false

namespace Calculator

/-- A keystroke shows the screen after it, and nothing else shows a screen. -/
theorem shown_respond (c : Calculator) (i : Input) :
    (c.respond i).shown = if i.isKeystroke then some (c.next i).screen else none := by
  cases i with
  | clearHistory => rfl
  | key k =>
    cases k with
    | digit d => cases hd : d.isDigit <;> simp [respond, press, Input.isKeystroke, shows, next, hd]
    | _ => rfl

/-- What is no keystroke changes at most the history. -/
theorem next_of_not_isKeystroke (c : Calculator) {i : Input} (hi : i.isKeystroke = false) :
    c.next i = { c with history := (c.next i).history } := by
  cases i with
  | clearHistory => rfl
  | key k =>
    cases k with
    | digit d =>
      have hd : d.isDigit = false := hi
      rw [next_digit_of_not c (by simp [hd])]
    | _ => cases hi

theorem screen_next_of_not_isKeystroke (c : Calculator) {i : Input} (hi : i.isKeystroke = false) :
    (c.next i).screen = c.screen := by
  rw [next_of_not_isKeystroke c hi]
  rfl

end Calculator

/-! ## A run -/

namespace Device

variable [HistoryFormat] {σ : Type} [Store σ]

/-- The screens that a watcher is shown in a run, in order. -/
def notices (d : Device σ) : List Input → List Screen
  | [] => []
  | i :: is => (d.shown i).toList ++ (d.step i).notices is

theorem notices_append_singleton (d : Device σ) (is : List Input) (i : Input) :
    d.notices (is ++ [i]) = d.notices is ++ ((d.run is).shown i).toList := by
  induction is generalizing d with
  | nil => simp [notices, run]
  | cons j is ih =>
    rw [List.cons_append, notices, notices, ih, List.append_assoc]
    rfl

theorem shown_run (d : Device σ) (is : List Input) (i : Input) : (d.run is).shown i =
    if i.isKeystroke then some (d.run (is ++ [i])).calculator.screen else none := by
  rw [run_append]
  exact Calculator.shown_respond _ i

/-- For each beginning of the run that ends in a keystroke the watcher is shown the screen after
it. -/
theorem notices_eq (d : Device σ) (is : List Input) :
    d.notices is = (is.inits.filter fun js => js.getLast?.any Input.isKeystroke).map fun js =>
      (d.run js).calculator.screen := by
  induction is using List.reverseRecOn with
  | nil => rfl
  | append_singleton is i ih =>
    rw [notices_append_singleton, shown_run, ih, List.inits_append]
    cases hi : i.isKeystroke <;> simp [hi]

theorem length_notices (d : Device σ) (is : List Input) :
    (d.notices is).length = is.countP Input.isKeystroke := by
  induction is using List.reverseRecOn with
  | nil => rfl
  | append_singleton is i ih =>
    rw [notices_append_singleton, shown_run, List.length_append, ih, List.countP_append]
    cases hi : i.isKeystroke <;> simp [hi]

end Device

/-! ## The application -/

namespace App

/-- The screen that the application keeps is that of its calculator. -/
def Mirrors (a : App) : Prop := a.screen = a.calculator.screen

theorem mirrors_start (history : History) (dark : Bool) : (App.start history dark).Mirrors := rfl

variable [HistoryFormat]

theorem Mirrors.absorb {a : App} (h : a.Mirrors) (i : Input) :
    (a.absorb (a.calculator.respond i)).1.Mirrors := by
  show (a.calculator.respond i).shown.getD a.screen = (a.calculator.next i).screen
  rw [Calculator.shown_respond]
  cases hi : i.isKeystroke with
  | true => rfl
  | false => exact h.trans (a.calculator.screen_next_of_not_isKeystroke hi).symm

theorem Mirrors.step {a : App} (h : a.Mirrors) (x : Step) : (a.step x).1.Mirrors := by
  cases x with
  | press k => exact h.absorb (.key k)
  | clearHistory => exact h.absorb .clearHistory
  | _ => exact h

end App

namespace Session

variable [HistoryFormat] {σ : Type} [Store σ]

theorem mirrors_moves {t : Session σ} (h : t.app.Mirrors) (ms : List Move) :
    (t.moves ms).app.Mirrors := by
  induction ms generalizing t with
  | nil => exact h
  | cons m ms ih =>
    refine ih (t := t.move m) ?_
    cases m with
    | step x => exact h.step x
    | relaunch => exact App.mirrors_start _ _

/-- In every run a watcher is shown one screen for each keystroke, in order: the display and the
expression after it, or a blank for an empty expression. Whatever is no keystroke shows nothing and
changes neither of them, nor the phase. And after any moves the application has the display and the
expression of its calculator on its own screen. -/
theorem mirror_run (s : σ) :
    (∀ is, (Device.start s).notices is =
        (is.inits.filter fun js => js.getLast?.any Input.isKeystroke).map fun js =>
          let c := ((Device.start s).run js).calculator
          ⟨c.display, if c.expression = [] then [' '] else c.expression⟩) ∧
    (∀ is, ((Device.start s).notices is).length = is.countP Input.isKeystroke) ∧
    (∀ (c : Calculator) (i : Input), i.isKeystroke = false → (c.respond i).shown = none ∧
      (c.next i).display = c.display ∧ (c.next i).expression = c.expression ∧
      (c.next i).phase = c.phase) ∧
    ∀ ms, let a := ((start s).moves ms).app
      a.screen.display = a.calculator.display ∧ a.screen.expression =
        if a.calculator.expression = [] then [' '] else a.calculator.expression := by
  refine ⟨fun is => (Device.start s).notices_eq is, fun is => (Device.start s).length_notices is,
    fun c i hi => ?_, fun ms => ?_⟩
  · rw [Calculator.shown_respond, hi, c.next_of_not_isKeystroke hi]
    exact ⟨rfl, rfl, rfl, rfl⟩
  · have h : (((start s).moves ms).app).Mirrors := mirrors_moves (App.mirrors_start _ _) ms
    exact ⟨congrArg Screen.display h, congrArg Screen.expression h⟩

end Session

end PocketCalc
