import PocketCalc.App.State

/-!
# The application on a store

A session starts from what the store holds and hands over every text that a step asks to be stored.
What the store answers to a write changes nothing but the store.

* `app_step`: the application after a step does not depend on the store.
-/

namespace PocketCalc

/-- An application and the store it works on. -/
structure Session (σ : Type) where
  app : App
  store : σ

namespace Session

variable [HistoryFormat] {σ : Type} [Store σ]

/-- Whether what a store answers for the theme asks for the dark one. -/
def isDark : Except StoreError (Option Text) → Bool
  | .ok (some t) => t == App.themeText true
  | .ok none => false
  | .error _ => false

/-- A session that starts from what a store holds. -/
def start (s : σ) : Session σ :=
  let (history, s) := History.load s
  let (answer, s) := Store.read s themeKey
  ⟨App.start history (isDark answer), s⟩

/-- A store after it was asked to keep texts, whatever it answered. -/
def writeAll (s : σ) (writes : List (Text × Text)) : σ :=
  writes.foldl (fun s (key, value) => (Store.write s key value).2) s

/-- The session after a step. -/
def step (s : Session σ) (x : Step) : Session σ :=
  let (app, writes) := s.app.step x
  ⟨app, writeAll s.store writes⟩

/-- The session after some steps. -/
def run (s : Session σ) (xs : List Step) : Session σ := xs.foldl step s

/-- The application thrown away and started again on the same store. -/
def restart (s : Session σ) : Session σ := start s.store

theorem app_step (s : Session σ) (x : Step) : (s.step x).app = (s.app.step x).1 := rfl

theorem run_append (s : Session σ) (xs ys : List Step) :
    s.run (xs ++ ys) = (s.run xs).run ys := by
  simp [run]

end Session

end PocketCalc
