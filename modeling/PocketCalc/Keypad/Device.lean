import PocketCalc.Keypad.Calculator
import PocketCalc.Storage.Basic

/-!
# A calculator on a store

A device reads its history once, when it is switched on, and hands its history over whenever it is
to be saved. What the store answers to that changes nothing but the store.

* `calculator_step`: the calculator after an input does not depend on the store.
-/

namespace PocketCalc

/-- A calculator and the store of its history. -/
structure Device (σ : Type) where
  calculator : Calculator
  store : σ

namespace Device

variable [HistoryFormat] {σ : Type} [Store σ]

/-- A device that is switched on. -/
def start (s : σ) : Device σ :=
  let (history, s) := History.load s
  ⟨.start history, s⟩

/-- The device after an input. -/
def step (d : Device σ) (i : Input) : Device σ :=
  let e := d.calculator.respond i
  ⟨e.calculator, if e.saves then (e.calculator.history.save d.store).2 else d.store⟩

/-- The screen that an input shows. -/
def shown (d : Device σ) (i : Input) : Option Screen := (d.calculator.respond i).shown

/-- The device after some inputs. -/
def run (d : Device σ) (is : List Input) : Device σ := is.foldl step d

theorem calculator_step (d : Device σ) (i : Input) :
    (d.step i).calculator = (d.calculator.respond i).calculator := rfl

theorem run_append (d : Device σ) (is js : List Input) : d.run (is ++ js) = (d.run is).run js := by
  simp [run]

end Device

end PocketCalc
