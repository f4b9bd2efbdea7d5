import PocketCalc.Proofs.History.Json
import PocketCalc.Proofs.Keypad.Legible
import PocketCalc.Proofs.Keypad.Log
import PocketCalc.Proofs.Storage.Reliable

/-!
# The history tells the truth

An entry is sound if its expression comes to its result. The expression may be changed behind a
result and evaluated again, but an entry is made from an expression and its value together, and no
entry is ever changed. On a store that works, what is read when the device is switched on again is
what the history was.

* `Calculator.sound_of_success`: what goes into the history is sound.
* `Calculator.Truthful.next`: every input leaves a sound history.
* `Device.InStep.act`: the store holds the history of the device.
* `Device.sound_acts`: the history and what is stored are sound, also when the device is switched
  off and on again.
-/

namespace PocketCalc

namespace Entry

/-- The expression of the entry comes to its result. -/
def Sound (e : Entry) : Prop :=
  ∃ v, Expression.evaluate e.expression = .ok v ∧ e.result = Display.number v

theorem sound_iff (e : Entry) : e.Sound ↔
    match Expression.evaluate e.expression with
    | .ok v => e.result = Display.number v
    | .error _ => False := by
  unfold Sound
  cases Expression.evaluate e.expression <;> simp

instance (e : Entry) : Decidable e.Sound :=
  match h : Expression.evaluate e.expression with
  | .ok v => decidable_of_iff (e.result = Display.number v) (by rw [sound_iff, h])
  | .error _ => isFalse (by rw [sound_iff, h]; exact id)

theorem Sound.expression_ne_nil {e : Entry} (h : e.Sound) : e.expression ≠ [] := by
  obtain ⟨v, hv, -⟩ := h
  intro hnil
  rw [hnil] at hv
  cases hv

/-- The result of a sound entry is a number. -/
theorem Sound.result_ne {e : Entry} (h : e.Sound) {t : Text} (ht : Numeral.hasShape t = false) :
    e.result ≠ t := by
  obtain ⟨v, hv, hr⟩ := h
  obtain ⟨p, hp, -⟩ := Display.exists_parts_number (Expression.isFinite_of_evaluate hv)
  rw [hr, hp]
  exact p.text_ne ht

end Entry

namespace Calculator

/-- All entries of the history are sound. -/
def Truthful (c : Calculator) : Prop := ∀ e ∈ c.history.entries, e.Sound

theorem sound_of_success {c : Calculator} {i : Input} {e : Entry} (h : c.success? i = some e) :
    e.Sound := by
  obtain ⟨-, v, hv, rfl⟩ := success?_eq_some_iff.1 h
  exact ⟨v, hv, rfl⟩

theorem Truthful.next {c : Calculator} (h : c.Truthful) (i : Input) : (c.next i).Truthful := by
  intro e he
  by_cases hi : i = .clearHistory
  · subst hi
    cases he
  · rw [entries_next c hi] at he
    rcases List.mem_append.1 (List.mem_of_mem_take he) with he | he
    · exact sound_of_success (Option.mem_toList.1 he)
    · exact h e he

end Calculator

/-- What is done to a device: an input, or switching it off and on again. -/
inductive Act where
  | input (i : Input)
  | restart

namespace Device

section

variable [HistoryFormat] {σ : Type} [Store σ]

/-- The device after an act. -/
def act (d : Device σ) : Act → Device σ
  | .input i => d.step i
  | .restart => start d.store

/-- The device after some acts. -/
def acts (d : Device σ) (as : List Act) : Device σ := as.foldl act d

/-- The store works, and it holds the history of the calculator. -/
structure InStep (works : σ → Prop) (d : Device σ) : Prop where
  works : works d.store
  history : (History.load d.store).1 = d.calculator.history

variable {works : σ → Prop}

/-- A device that is switched on again loads the history that it had. -/
theorem InStep.truthful {d : Device σ} (h : d.InStep works) (ht : d.calculator.Truthful) (a : Act) :
    (d.act a).calculator.Truthful := by
  cases a with
  | input i => exact ht.next i
  | restart =>
    show ∀ e ∈ (History.load d.store).1.entries, e.Sound
    rw [h.history]
    exact ht

variable [HistoryFormat.ReadsBack] (hr : Store.Reliable works)
include hr

omit [HistoryFormat.ReadsBack] in
theorem inStep_start {s : σ} (hs : works s) : (start s).InStep works where
  works := hr.read_works hs historyKey_mem
  history := hr.load_load hs

theorem InStep.step {d : Device σ} (h : d.InStep works) (i : Input) : (d.step i).InStep works := by
  cases hs : (d.calculator.respond i).saves with
  | false =>
    have hstore : (d.step i).store = d.store := store_step_of_not_saves hs
    refine ⟨by rw [hstore]; exact h.works, ?_⟩
    rw [hstore, h.history, calculator_step, Calculator.history_respond hs]
  | true =>
    have hstore : (d.step i).store = ((d.step i).calculator.history.save d.store).2 := by
      simp [Device.step, hs]
    refine ⟨?_, ?_⟩
    · rw [hstore]
      exact hr.write_works h.works historyKey_mem _
    · rw [hstore]
      exact hr.load_save h.works _

theorem InStep.act {d : Device σ} (h : d.InStep works) (a : Act) : (d.act a).InStep works := by
  cases a with
  | input i => exact h.step hr i
  | restart => exact inStep_start hr h.works

theorem InStep.acts {d : Device σ} (h : d.InStep works) (ht : d.calculator.Truthful)
    (as : List Act) : (d.acts as).InStep works ∧ (d.acts as).calculator.Truthful := by
  induction as generalizing d with
  | nil => exact ⟨h, ht⟩
  | cons a as ih => exact ih (h.act hr a) (h.truthful ht a)

/-- On a store that works, if the history is sound at the start, then after any inputs and restarts
every entry of the history and every entry that is read from the stored text is sound. So none has
an empty expression, and none has an error, an infinity or no number as its result. -/
theorem sound_acts {s : σ} (hs : works s) (h : ∀ e ∈ (History.load s).1.entries, e.Sound)
    (as : List Act) :
    let d := (start s).acts as
    ∀ e, (e ∈ d.calculator.history.entries ∨ ∃ t,
        (Store.read d.store historyKey).1 = .ok (some t) ∧ e ∈ (History.ofJson t).entries) →
      e.Sound ∧ e.expression ≠ [] ∧
        e.result ∉ ["Error".toList, "inf".toList, "NaN".toList] := by
  intro d e he
  obtain ⟨hstep, htruth⟩ := (inStep_start hr hs).acts hr h as
  have hmem : e ∈ d.calculator.history.entries := by
    rcases he with he | ⟨t, ht, he⟩
    · exact he
    · have hload : (History.load d.store).1 = History.ofJson t := congrArg History.ofAnswer ht
      rwa [← hload, hstep.history] at he
  have hsound := htruth e hmem
  refine ⟨hsound, hsound.expression_ne_nil, ?_⟩
  simp only [List.mem_cons, List.not_mem_nil, or_false, not_or]
  exact ⟨hsound.result_ne rfl, hsound.result_ne rfl, hsound.result_ne rfl⟩

end

/-- A store in memory with one sound entry: a number and the same number with a point behind it add
two entries, a percentage that cannot be evaluated adds none, and all three are there after a
restart. -/
theorem sound_acts_of_point :
    let s : MemoryStore := ⟨⟨[(historyKey, History.entriesJson [⟨"1 + 2".toList, ['3']⟩])]⟩⟩
    let d := (start s).acts [.input (.key (.digit '4')), .input (.key .equals),
      .input (.key .point), .input (.key .equals), .input (.key .percent),
      .input (.key .equals), .restart, .input (.key .equals)]
    (∀ e ∈ (History.load s).1.entries, e.Sound) ∧
    d.calculator.history.entries = [⟨"4.".toList, ['4']⟩, ⟨['4'], ['4']⟩, ⟨"1 + 2".toList, ['3']⟩] ∧
    ∀ e, (e ∈ d.calculator.history.entries ∨ ∃ t,
        (Store.read d.store historyKey).1 = .ok (some t) ∧ e ∈ (History.ofJson t).entries) →
      e.Sound ∧ e.expression ≠ [] ∧
        e.result ∉ ["Error".toList, "inf".toList, "NaN".toList] := by
  intro s d
  have hsound : ∀ e ∈ (History.load s).1.entries, e.Sound := by decide +kernel
  have hentries : d.calculator.history.entries =
      [⟨"4.".toList, ['4']⟩, ⟨['4'], ['4']⟩, ⟨"1 + 2".toList, ['3']⟩] := by decide +kernel
  exact ⟨hsound, hentries, sound_acts MemoryStore.reliable trivial hsound _⟩

end Device

end PocketCalc
