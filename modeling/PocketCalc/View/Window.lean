import PocketCalc.View.Layout

/-!
# The window

In each frame the keyboard is read first, if the calculator is in front and no widget wants the
keys, and then everything is drawn.

* `keyboard_of_other_tool`: behind another tool the keyboard is not read.
-/

namespace PocketCalc

/-- What happens to a window. -/
inductive Event where
  /-- A frame is drawn, with what the user did since the last one. -/
  | frame (ss : List Signal)
  /-- A step of the application is made directly. -/
  | act (s : Step)
  /-- The application is thrown away and started again. -/
  | restart

/-- The keys of the calculator for what the user does on the keyboard. -/
def Signal.keys : Signal → List Key
  | .text t => t.filterMap Key.ofChar?
  | .stroke .enter true => [.equals]
  | .stroke .escape true => [.clear]
  | _ => []

namespace Window

open Drawing

variable [HistoryFormat] {σ γ : Type} [Store σ] [Toolkit γ]

/-- The window of a session that starts on a store. -/
def start (s : σ) : Window σ γ := ⟨.start s, Toolkit.fresh, none⟩

/-- The keyboard is read. -/
def keyboard (ss : List Signal) : Drawing σ γ Unit := do
  onlyIf ((← app).tool = .calculator ∧ !(← wantsKeyboard))
    ((ss.flatMap Signal.keys).forM fun k => act (.press k))

/-- A frame. -/
def update (ss : List Signal) : Drawing σ γ Unit := do
  dress
  keyboard ss
  View.all

/-- The window after a frame, and the texts that were copied. -/
def frame (w : Window σ γ) (ss : List Signal) : Window σ γ × List Text :=
  let f := (update ss ⟨{ w with toolkit := Toolkit.opened ss w.toolkit }, []⟩).2
  ({ f.window with toolkit := Toolkit.closed f.window.toolkit }, f.copied)

/-- The window after an event, and the texts that were copied. -/
def handle (w : Window σ γ) : Event → Window σ γ × List Text
  | .frame ss => w.frame ss
  | .act x => ({ w with session := w.session.step x }, [])
  | .restart => (⟨w.session.restart, Toolkit.fresh, none⟩, [])

/-- The window after some events. -/
def run (w : Window σ γ) (es : List Event) : Window σ γ := es.foldl (fun w e => (w.handle e).1) w

/-- The window after an event and one more frame, in which its effect is drawn everywhere. -/
def settle (w : Window σ γ) (e : Event) : Window σ γ × List Text :=
  let (w, copied) := w.handle e
  let (w, more) := w.frame []
  (w, copied ++ more)

theorem keyboard_of_other_tool {f : Frame σ γ} (h : f.window.session.app.tool ≠ .calculator)
    (ss : List Signal) : keyboard ss f = ((), f) := by
  have hn (b : Bool) : ¬ (f.window.session.app.tool = .calculator ∧ b) := fun hb => h hb.1
  exact congrFun (onlyIf_of_not (hn _) _) f

end Window

end PocketCalc
