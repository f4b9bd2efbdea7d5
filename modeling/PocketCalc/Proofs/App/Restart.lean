import PocketCalc.App.Session
import PocketCalc.Proofs.History.Json
import PocketCalc.Proofs.Keypad.Run
import PocketCalc.Proofs.Storage.Reliable

/-!
# Starting again

Every step that changes the history or the theme asks for it to be stored, and what is stored reads
back. So on a store that works the application can be thrown away at any time: one that is started
on the same store has the same history and the same theme.

* `App.step_cases`: what a step changes and what it stores go together.
* `Session.InStep.move`: the store stays in step with the application.
* `Session.restart_eq`: what is kept when the application is started again.
-/

namespace PocketCalc

/-! ## What is stored -/

namespace App

variable [HistoryFormat]

theorem absorb_cases {a : App} {i : Input} :
    (a.absorb (a.calculator.respond i)).1.dark = a.dark ∧
    ((a.absorb (a.calculator.respond i)).2 = [] ∧
        (a.absorb (a.calculator.respond i)).1.calculator.history = a.calculator.history ∨
      (a.absorb (a.calculator.respond i)).2 = [(historyKey,
        (a.absorb (a.calculator.respond i)).1.calculator.history.toJson)]) := by
  refine ⟨rfl, ?_⟩
  cases hs : (a.calculator.respond i).saves with
  | false => exact .inl ⟨by simp [absorb, hs], Calculator.history_respond hs⟩
  | true => exact .inr (by simp [absorb, hs])

/-- A step leaves the history and the theme alone and stores nothing, or it stores the one of them
that it changes. -/
theorem step_cases (a : App) (x : Step) :
    let b := (a.step x).1
    (a.step x).2 = [] ∧ b.calculator.history = a.calculator.history ∧ b.dark = a.dark ∨
      (a.step x).2 = [(historyKey, b.calculator.history.toJson)] ∧ b.dark = a.dark ∨
      (a.step x).2 = [(themeKey, themeText b.dark)] ∧
        b.calculator.history = a.calculator.history := by
  have habsorb : ∀ i, a.step x = a.absorb (a.calculator.respond i) →
      (a.step x).2 = [] ∧ (a.step x).1.calculator.history = a.calculator.history ∧
          (a.step x).1.dark = a.dark ∨
        (a.step x).2 = [(historyKey, (a.step x).1.calculator.history.toJson)] ∧
          (a.step x).1.dark = a.dark := by
    intro i hi
    rw [hi]
    obtain ⟨hd, ⟨hw, hh⟩ | hw⟩ := absorb_cases (a := a) (i := i)
    · exact .inl ⟨hw, hh, hd⟩
    · exact .inr ⟨hw, hd⟩
  cases x with
  | press k =>
    rcases habsorb (.key k) rfl with h | h
    · exact .inl h
    · exact .inr (.inl h)
  | clearHistory =>
    rcases habsorb .clearHistory rfl with h | h
    · exact .inl h
    · exact .inr (.inl h)
  | toggleTheme => exact .inr (.inr ⟨rfl, rfl⟩)
  | _ => exact .inl ⟨rfl, rfl, rfl⟩

end App

/-! ## The store and the application -/

/-- What the user does to the application: a step, or closing it and starting it again. -/
inductive Move where
  | step (x : Step)
  | relaunch

namespace Session

theorem isDark_eq_true_iff {a : Except StoreError (Option Text)} :
    isDark a = true ↔ a = .ok (some (App.themeText true)) := by
  rcases a with e | _ | t
  · simp [isDark]
  · simp [isDark]
  · simp [isDark]

theorem isDark_themeText (b : Bool) : isDark (.ok (some (App.themeText b))) = b := by
  cases b <;> decide

section

variable [HistoryFormat] {σ : Type} [Store σ]

/-- The session after a move. -/
def move (t : Session σ) : Move → Session σ
  | .step x => t.step x
  | .relaunch => t.restart

/-- The session after some moves. -/
def moves (t : Session σ) (ms : List Move) : Session σ := ms.foldl move t

/-- What a step does to the store goes together with what it changes. -/
theorem step_cases (t : Session σ) (x : Step) :
    let u := t.step x
    u.store = t.store ∧ u.app.calculator.history = t.app.calculator.history ∧
        u.app.dark = t.app.dark ∨
      u.store = (Store.write t.store historyKey u.app.calculator.history.toJson).2 ∧
        u.app.dark = t.app.dark ∨
      u.store = (Store.write t.store themeKey (App.themeText u.app.dark)).2 ∧
        u.app.calculator.history = t.app.calculator.history := by
  have hstore : (t.step x).store = writeAll t.store (t.app.step x).2 := rfl
  obtain ⟨hw, h⟩ | ⟨hw, h⟩ | ⟨hw, h⟩ := App.step_cases t.app x
  · exact .inl ⟨by rw [hstore, hw]; rfl, h⟩
  · exact .inr (.inl ⟨by rw [hstore, hw]; rfl, h⟩)
  · exact .inr (.inr ⟨by rw [hstore, hw]; rfl, h⟩)

/-- The store works, and it holds the history and the theme of the application. -/
structure InStep (works : σ → Prop) (t : Session σ) : Prop where
  works : works t.store
  history : History.ofAnswer (Store.read t.store historyKey).1 = t.app.calculator.history
  dark : isDark (Store.read t.store themeKey).1 = t.app.dark

variable [HistoryFormat.ReadsBack] {works : σ → Prop} (hr : Store.Reliable works)
include hr

omit [HistoryFormat.ReadsBack] in
theorem inStep_start {s : σ} (hs : works s) : (start s).InStep works where
  works := hr.read_works (hr.read_works hs historyKey_mem) themeKey_mem
  history := by
    have h := hr.read_read (hr.read_works hs historyKey_mem) themeKey_mem historyKey_mem
    rw [hr.read_read hs historyKey_mem historyKey_mem] at h
    exact congrArg History.ofAnswer h
  dark := congrArg isDark
    (hr.read_read (hr.read_works hs historyKey_mem) themeKey_mem themeKey_mem)

theorem InStep.step {t : Session σ} (h : t.InStep works) (x : Step) : (t.step x).InStep works := by
  obtain ⟨hs, hh, hd⟩ | ⟨hs, hd⟩ | ⟨hs, hh⟩ := t.step_cases x
  · exact ⟨hs ▸ h.works, by rw [hs, hh]; exact h.history, by rw [hs, hd]; exact h.dark⟩
  · refine ⟨hs ▸ hr.write_works h.works historyKey_mem _, ?_, ?_⟩
    · rw [hs]
      exact hr.load_save h.works _
    · rw [hs, hr.read_write h.works historyKey_mem themeKey_mem, if_neg themeKey_ne_historyKey, hd]
      exact h.dark
  · refine ⟨hs ▸ hr.write_works h.works themeKey_mem _, ?_, ?_⟩
    · rw [hs, hr.read_write h.works themeKey_mem historyKey_mem,
        if_neg themeKey_ne_historyKey.symm, hh]
      exact h.history
    · rw [hs, hr.read_write h.works themeKey_mem themeKey_mem, if_pos rfl, isDark_themeText]

theorem InStep.move {t : Session σ} (h : t.InStep works) (m : Move) : (t.move m).InStep works := by
  cases m with
  | step x => exact h.step hr x
  | relaunch => exact inStep_start hr h.works

theorem InStep.moves {t : Session σ} (h : t.InStep works) (ms : List Move) :
    (t.moves ms).InStep works := by
  induction ms generalizing t with
  | nil => exact h
  | cons m ms ih => exact ih (h.move hr m)

/-- On a store that works, whatever texts it held at first, an application that is started again
after any moves has the history and the theme that it had before: they are what the store holds. -/
theorem restart_eq {s : σ} (hs : works s) (ms : List Move) :
    let t := (start s).moves ms
    t.restart.app.calculator.history = t.app.calculator.history ∧
      t.restart.app.dark = t.app.dark ∧
      (History.load t.store).1 = t.app.calculator.history ∧
      ((Store.read t.store themeKey).1 = .ok (some "dark".toList) ↔ t.app.dark = true) := by
  intro t
  have h : t.InStep works := (inStep_start hr hs).moves hr ms
  refine ⟨h.history, ?_, h.history, ?_⟩
  · show isDark (Store.read (Store.read t.store historyKey).2 themeKey).1 = t.app.dark
    rw [hr.read_read h.works historyKey_mem themeKey_mem]
    exact h.dark
  · rw [← h.dark, isDark_eq_true_iff]
    rfl

end

/-- A store in memory with a history that cannot be read and the dark theme: after a calculation and
a change of the theme, the application starts again with one entry and the light theme. -/
theorem restart_after_seven :
    let s : MemoryStore := ⟨⟨[(historyKey, "[\x7b".toList), (themeKey, "dark".toList)]⟩⟩
    let t := (start s).moves [.step (.press (.digit '7')), .step (.press .equals),
      .step .toggleTheme, .relaunch, .step (.press .percent)]
    t.app.calculator.history.entries = [⟨['7'], ['7']⟩] ∧ t.app.dark = false ∧
      t.restart.app.calculator.history = t.app.calculator.history ∧
      t.restart.app.dark = t.app.dark ∧
      (History.load t.store).1 = t.app.calculator.history ∧
      ((Store.read t.store themeKey).1 = .ok (some "dark".toList) ↔ t.app.dark = true) := by
  intro s t
  have hentries : t.app.calculator.history.entries = [⟨['7'], ['7']⟩] := by decide +kernel
  have hdark : t.app.dark = false := by decide +kernel
  exact ⟨hentries, hdark, restart_eq MemoryStore.reliable trivial _⟩

end Session

end PocketCalc
