import PocketCalc.App.Session
import PocketCalc.View.Toolkit

/-!
# Drawing a frame

A frame is drawn by a program that asks the toolkit for one widget after the other. By the answers
it makes steps of the application, whose effect is there for the rest of the frame, and copies
texts.

* `onlyIf_of_not`: a part that is left out does nothing.
-/

namespace PocketCalc

/-- A session in a window. -/
structure Window (σ γ : Type) where
  session : Session σ
  toolkit : γ
  /-- The theme that the toolkit was told last: whether it is dark. -/
  dressed : Option Bool

/-- A window while a frame is drawn, and the texts that were copied in it. -/
structure Frame (σ γ : Type) where
  window : Window σ γ
  copied : List Text

/-- A program that draws. -/
abbrev Drawing (σ γ α : Type) := StateM (Frame σ γ) α

namespace Drawing

variable {σ γ α : Type}

/-- A part that is drawn in some cases only. -/
def onlyIf (c : Prop) [Decidable c] (m : Drawing σ γ Unit) : Drawing σ γ Unit :=
  if c then m else pure ()

theorem onlyIf_of_not {c : Prop} [Decidable c] (hc : ¬ c) (m : Drawing σ γ Unit) :
    onlyIf c m = pure () := if_neg hc

variable [HistoryFormat] [Store σ] [Toolkit γ]

/-- The application as it is. -/
def app : Drawing σ γ App := fun f => (f.window.session.app, f)

/-- A step of the application. -/
def act (x : Step) : Drawing σ γ Unit :=
  modify fun f => { f with window := { f.window with session := f.window.session.step x } }

/-- A text is copied. -/
def copy (t : Text) : Drawing σ γ Unit := modify fun f => { f with copied := f.copied ++ [t] }

/-- A widget is drawn. -/
def add (w : Widget α) : Drawing σ γ α := fun f =>
  let (answer, toolkit) := Toolkit.add w f.window.toolkit
  (answer, { f with window := { f.window with toolkit := toolkit } })

/-- Whether the keyboard is meant for a widget. -/
def wantsKeyboard : Drawing σ γ Bool := fun f => (Toolkit.wantsKeyboard f.window.toolkit, f)

/-- The toolkit is told the theme if it has changed. -/
def dress : Drawing σ γ Unit := modify fun f =>
  let dark := f.window.session.app.dark
  if f.window.dressed = some dark then f
  else
    { f with
      window := { f.window with
        toolkit := Toolkit.dress dark f.window.toolkit
        dressed := some dark } }

end Drawing

end PocketCalc
