import Mathlib.Data.List.Induction
import PocketCalc.Proofs.Keypad.Run

/-!
# The history and the log of successes

A log that never forgets has an entry for each equals key that found a value since the history was
last cleared. The history is cut at each step, yet after every run it is no other than the beginning
of that log, followed by what the history held at the start if it was never cleared.

* `Calculator.log_append_singleton`: what one more input does to the log.
* `Calculator.entries_next`: what one more input does to the history.
* `Calculator.entries_run`: the history of a run is the beginning of its log.
* `Device.history_run`: the same on every store, with what follows for each input.
-/

namespace PocketCalc

/-- Cutting a list before more is put in front of it makes no difference to a cut afterwards. -/
theorem take_append_take {α : Type} (n : Nat) (l k : List α) :
    (l ++ k.take n).take n = (l ++ k).take n := by
  rw [List.take_append, List.take_take, Nat.min_eq_left (Nat.sub_le _ _), ← List.take_append]

namespace Calculator

/-- The success of an input, if it is one: the expression of an equals key that finds a value, and
the display just after. -/
def success? (c : Calculator) (i : Input) : Option Entry :=
  if i = .key .equals ∧ isValue (Expression.evaluate c.expression) = true then
    some ⟨c.expression, (c.next i).display⟩
  else none

theorem success?_eq_some_iff {c : Calculator} {i : Input} {e : Entry} : c.success? i = some e ↔
    i = .key .equals ∧ ∃ v, Expression.evaluate c.expression = .ok v ∧
      e = ⟨c.expression, Display.number v⟩ := by
  unfold success?
  cases hv : Expression.evaluate c.expression with
  | error d => simp [isValue]
  | ok v =>
    by_cases hi : i = .key .equals
    · subst hi
      simp [isValue, hv, showOutcome, eq_comm]
    · simp [hi]

/-- The successes of a run since the history was last cleared, newest first. -/
def log (c : Calculator) (is : List Input) : List Entry :=
  ((c.trace is).reverse.takeWhile fun x => decide (x.2 ≠ .clearHistory)).filterMap fun x =>
    x.1.success? x.2

theorem log_append_clearHistory (c : Calculator) (is : List Input) :
    c.log (is ++ [.clearHistory]) = [] := by
  simp [log, trace_append, trace]

theorem log_append_singleton (c : Calculator) (is : List Input) {i : Input}
    (hi : i ≠ .clearHistory) :
    c.log (is ++ [i]) = ((c.run is).success? i).toList ++ c.log is := by
  have hlog : c.log (is ++ [i]) = List.filterMap (fun x => x.1.success? x.2)
      ((c.run is, i) :: (c.trace is).reverse.takeWhile fun x => decide (x.2 ≠ .clearHistory)) := by
    simp [log, trace_append, trace, hi]
  rw [hlog, List.filterMap_cons, log]
  cases (c.run is).success? i <;> rfl

/-- A success is put in front, and the oldest entries go if there is no room. -/
theorem entries_of_success {c : Calculator} {i : Input} {e : Entry} (h : c.success? i = some e) :
    (c.next i).history.entries = (e :: c.history.entries).take History.capacity := by
  obtain ⟨rfl, v, hv, rfl⟩ := success?_eq_some_iff.1 h
  rw [next_equals, hv]
  rfl

/-- Without a success only clearing changes the history. -/
theorem history_of_not_success {c : Calculator} {i : Input} (h : c.success? i = none)
    (hi : i ≠ .clearHistory) : (c.next i).history = c.history := by
  refine history_respond ?_
  cases i with
  | clearHistory => exact absurd rfl hi
  | key k =>
    by_contra hs
    obtain ⟨rfl, hv⟩ := (saves_press c k).1 (eq_true_of_ne_false hs)
    simp [success?, hv] at h

theorem entries_next (c : Calculator) {i : Input} (hi : i ≠ .clearHistory) :
    (c.next i).history.entries =
      ((c.success? i).toList ++ c.history.entries).take History.capacity := by
  cases hs : c.success? i with
  | none =>
    rw [history_of_not_success hs hi]
    exact (List.take_of_length_le c.history.length_le).symm
  | some e => exact entries_of_success hs

/-- The history of a run is the beginning of its log, and of what was there before it. -/
theorem entries_run (c : Calculator) (is : List Input) : (c.run is).history.entries =
    (c.log is ++ if .clearHistory ∈ is then [] else c.history.entries).take History.capacity := by
  -- From the end of the run: the last input is cut off the log, and the cuts before it are one.
  induction is using List.reverseRecOn with
  | nil => exact (List.take_of_length_le c.history.length_le).symm
  | append_singleton is i ih =>
    rw [run_append, run_cons, run_nil]
    by_cases hi : i = .clearHistory
    · subst hi
      rw [log_append_clearHistory, if_pos (by simp)]
      rfl
    · have hmem : .clearHistory ∈ is ++ [i] ↔ .clearHistory ∈ is := by simp [Ne.symm hi]
      rw [entries_next _ hi, ih, take_append_take, log_append_singleton c is hi, List.append_assoc]
      simp only [hmem]

end Calculator

namespace Device

/-- After every run the history is the first ten of all successes since it was last cleared, newest
first, and then of what the store held at the start unless it was cleared. So it has ten entries at
most; an input that is no success leaves it alone unless it clears it; and a success goes in front
of it, where the tenth entry makes room. -/
theorem history_run [HistoryFormat] {σ : Type} [Store σ] (s : σ) (is : List Input) :
    let c := ((start s).run is).calculator
    c.history.entries = ((start s).calculator.log is ++
      if .clearHistory ∈ is then [] else (History.load s).1.entries).take 10 ∧
    c.history.entries.length ≤ 10 ∧
    (∀ i, i ≠ .clearHistory → c.success? i = none → (c.next i).history = c.history) ∧
    (∀ i e, c.success? i = some e →
      (c.next i).history.entries = e :: c.history.entries.take 9) ∧
    (c.next .clearHistory).history.entries = [] := by
  intro c
  refine ⟨?_, c.history.length_le, fun i hi hs => Calculator.history_of_not_success hs hi,
    fun i e hs => Calculator.entries_of_success hs, rfl⟩
  show ((start s).run is).calculator.history.entries = _
  rw [calculator_run]
  exact Calculator.entries_run _ is

end Device

end PocketCalc
