import PocketCalc.App.Form
import PocketCalc.Keypad.Calculator
import PocketCalc.Storage.Basic

/-!
# The application

The calculator with the screen that it last showed, the forms of the other tools, and what is open
and how it looks. A step changes one of these parts and may ask for a text to be stored.

* `screen_step_press`: after a key the screen is what the calculator shows.
-/

namespace PocketCalc

/-- The tools, one of which is in front. -/
inductive Tool where
  | calculator
  | mass
  | loan
  | percentage
  | length
  | temperature
  | time
deriving DecidableEq

namespace Tool

/-- All tools, in the order of the menu. -/
def all : List Tool := [.calculator, .mass, .loan, .percentage, .length, .temperature, .time]

/-- The name of a tool. -/
def title : Tool → Text
  | .calculator => "Calculatrice".toList
  | .mass => "Poids".toList
  | .loan => "Prêt".toList
  | .percentage => "Pourcentage".toList
  | .length => "Longueurs".toList
  | .temperature => "Température".toList
  | .time => "Durées".toList

end Tool

/-- The state of the application. -/
structure App where
  calculator : Calculator
  /-- The screen that the calculator showed last. -/
  screen : Screen
  tool : Tool
  menuOpen : Bool
  historyOpen : Bool
  dark : Bool
  mass : ConversionForm Mass
  length : ConversionForm Length
  temperature : ConversionForm Temperature
  loan : LoanForm
  percentage : PercentageForm
  time : TimeForm

/-- What can be done in the application. -/
inductive Step where
  | press (k : Key)
  | clearHistory
  | toggleTheme
  | chooseTool (t : Tool)
  | toggleMenu
  | toggleHistory
  | mass (s : ConversionStep Mass)
  | length (s : ConversionStep Length)
  | temperature (s : ConversionStep Temperature)
  | loan (s : LoanStep)
  | percentage (s : PercentageStep)
  | time (s : TimeStep)

namespace App

/-- The stored text of a theme. -/
def themeText (dark : Bool) : Text := if dark then "dark".toList else "light".toList

/-- The application at its start, with a history and a theme. -/
def start (history : History) (dark : Bool) : App where
  calculator := .start history
  screen := (Calculator.start history).screen
  tool := .calculator
  menuOpen := false
  historyOpen := false
  dark := dark
  mass := .blank .kilogram .pound
  length := .blank .metre .foot
  temperature := .blank .celsius .fahrenheit
  loan := .blank
  percentage := .blank
  time := .blank

variable [HistoryFormat]

/-- The application after an effect of its calculator, and what is to be stored for the history. -/
def absorb (a : App) (e : Effect) : App × List (Text × Text) :=
  ({ a with calculator := e.calculator, screen := e.shown.getD a.screen },
    if e.saves then [(historyKey, e.calculator.history.toJson)] else [])

/-- The application after a step, and the texts that are to be stored under their keys. -/
def step (a : App) : Step → App × List (Text × Text)
  | .press k => a.absorb (a.calculator.press k)
  | .clearHistory => a.absorb (a.calculator.respond .clearHistory)
  | .toggleTheme => ({ a with dark := !a.dark }, [(themeKey, themeText !a.dark)])
  | .chooseTool t => ({ a with tool := t, menuOpen := false }, [])
  | .toggleMenu => ({ a with menuOpen := !a.menuOpen }, [])
  | .toggleHistory => ({ a with historyOpen := !a.historyOpen }, [])
  | .mass s => ({ a with mass := a.mass.step s }, [])
  | .length s => ({ a with length := a.length.step s }, [])
  | .temperature s => ({ a with temperature := a.temperature.step s }, [])
  | .loan s => ({ a with loan := a.loan.step s }, [])
  | .percentage s => ({ a with percentage := a.percentage.step s }, [])
  | .time s => ({ a with time := a.time.step s }, [])

theorem screen_step_press (a : App) {k : Key} (hk : ∀ d, k = .digit d → d.isDigit = true) :
    (a.step (.press k)).1.screen = (a.step (.press k)).1.calculator.screen := by
  simp only [step, absorb, Calculator.shown_press _ hk, Option.getD_some]

end App

end PocketCalc
