import PocketCalc.App.Session
import PocketCalc.History.Json
import PocketCalc.Keypad.Device
import PocketCalc.Storage.Memory

/-!
# A store that fails changes nothing else

What a store answers to a write is forgotten, and it is read only at the start. So two devices, or
two sessions, that start alike go on alike, on stores of whatever kinds that refuse whichever writes
they like: all that can be seen of them is the same, step by step.

* `Device.seen_congr`, `Session.seen_congr`: runs from the same state look the same.
* `History.ofAnswer_eq_empty`: what counts as a store without a history.
* `Session.seen_eq`: what is seen depends on the history and the theme at the start only.
-/

namespace PocketCalc

section

variable [HistoryFormat] {σ τ : Type} [Store σ] [Store τ]

namespace Device

/-- What can be seen of a run: each calculator with the screen that the next input shows, and the
calculator at the end. -/
def seen (d : Device σ) : List Input → List (Calculator × Option Screen)
  | [] => [(d.calculator, none)]
  | i :: is => (d.calculator, d.shown i) :: (d.step i).seen is

theorem step_congr {d : Device σ} {e : Device τ} (h : d.calculator = e.calculator) (i : Input) :
    (d.step i).calculator = (e.step i).calculator ∧ d.shown i = e.shown i := by
  rw [calculator_step, calculator_step, shown, shown, h]
  exact ⟨rfl, rfl⟩

theorem seen_congr {d : Device σ} {e : Device τ} (h : d.calculator = e.calculator)
    (is : List Input) : d.seen is = e.seen is := by
  induction is generalizing d e with
  | nil => rw [seen, seen, h]
  | cons i is ih =>
    obtain ⟨hstep, hshown⟩ := step_congr h i
    rw [seen, seen, h, hshown, ih hstep]

end Device

namespace Session

/-- What can be seen of a run: the application before each step and at the end. -/
def seen (s : Session σ) : List Step → List App
  | [] => [s.app]
  | x :: xs => s.app :: (s.step x).seen xs

theorem step_congr {s : Session σ} {t : Session τ} (h : s.app = t.app) (x : Step) :
    (s.step x).app = (t.step x).app := by
  rw [app_step, app_step, h]

theorem seen_congr {s : Session σ} {t : Session τ} (h : s.app = t.app) (xs : List Step) :
    s.seen xs = t.seen xs := by
  induction xs generalizing s t with
  | nil => rw [seen, seen, h]
  | cons x xs ih => rw [seen, seen, h, ih (step_congr h x)]

/-- An application starts from a history and a theme. -/
theorem app_start (s : σ) : (start s).app = .start (History.load s).1 (start s).app.dark := rfl

end Session

/-- A store that refuses to answer, has no text or has one that cannot be read has no history. -/
theorem History.ofAnswer_eq_empty {a : Except StoreError (Option Text)}
    (h : (∃ e, a = .error e) ∨ a = .ok none ∨ ∃ u, a = .ok (some u) ∧
      HistoryFormat.read? u = none) :
    ofAnswer a = empty := by
  rcases h with ⟨e, rfl⟩ | rfl | ⟨u, rfl, hu⟩
  · rfl
  · rfl
  · exact ofJson_of_read?_eq_none hu

namespace Session

/-- On two stores of whatever kinds that give the same history at the start, devices look the same
at each input of every run, and so do applications that start with the same theme, at each step.
For the history at the start, a refusal, no text and a text that cannot be read are all alike. -/
theorem seen_eq {s : σ} {t : τ} (h : (History.load s).1 = (History.load t).1) :
    (∀ is, (Device.start s).seen is = (Device.start t).seen is) ∧
    ((start s).app.dark = (start t).app.dark → ∀ xs, (start s).seen xs = (start t).seen xs) ∧
    ∀ a, ((∃ e, a = .error e) ∨ a = .ok none ∨
        ∃ u, a = .ok (some u) ∧ HistoryFormat.read? u = none) →
      History.ofAnswer a = .empty := by
  refine ⟨fun is => Device.seen_congr ?_ is, fun hd xs => seen_congr ?_ xs,
    fun a => History.ofAnswer_eq_empty⟩
  · exact congrArg Calculator.start h
  · rw [app_start s, app_start t, h, hd]

end Session

end

namespace Session

/-- A store with a history and the dark theme that refuses all reads and writes, and an empty one
that works. -/
theorem seen_eq_of_faulty :
    let s : FaultyStore := ⟨⟨⟨[(historyKey, History.entriesJson [⟨['1'], ['1']⟩]),
      (themeKey, App.themeText true)]⟩⟩, some (.refused []), some (.unavailable [])⟩
    let t : MemoryStore := .empty
    (History.load s).1 = (History.load t).1 ∧ (start s).app.dark = (start t).app.dark ∧
    (∀ is, (Device.start s).seen is = (Device.start t).seen is) ∧
    ∀ xs, (start s).seen xs = (start t).seen xs := by
  intro s t
  have h : (History.load s).1 = (History.load t).1 := rfl
  have hd : (start s).app.dark = (start t).app.dark := rfl
  obtain ⟨hdevice, hsession, -⟩ := seen_eq h
  exact ⟨h, hd, hdevice, hsession hd⟩

end Session

end PocketCalc
