import PocketCalc.Text.Blank

/-!
# The toolkit

What the program asks of the toolkit that draws its window. The window is drawn anew in each frame,
widget by widget, and the toolkit answers at once what the user has just done to the widget. What it
keeps from one frame to the next, and how it gets from what the user does to its answers, is its own
affair: a key that is pressed may be meant for the widget that has the focus.
-/

namespace PocketCalc

/-- A key of the keyboard that is no text. -/
inductive Stroke where
  | enter
  | escape
  | other
deriving DecidableEq

/-- What the user does. -/
inductive Signal where
  /-- A text is typed. -/
  | text (t : Text)
  /-- A key of the keyboard is pressed, or released. -/
  | stroke (k : Stroke) (pressed : Bool)
  /-- The n-th text of a wording that is shown is clicked, counted from the end where n is
  negative. -/
  | click (t : Text) (n : Int)
deriving DecidableEq

/-- Something that is drawn, with the kind of answer that it gives. -/
inductive Widget : Type → Type where
  | label (t : Text) : Widget Unit
  /-- A text for when the pointer rests on the widget drawn last. -/
  | tip (t : Text) : Widget Unit
  /-- A label, and whether it was clicked. -/
  | clickable (t : Text) : Widget Bool
  /-- A button, and whether it was clicked. -/
  | button (t : Text) (enabled : Bool) : Widget Bool
  /-- One of several texts to choose from, whether it is chosen, and whether it was clicked. -/
  | selectable (t : Text) (on : Bool) : Widget Bool
  /-- The same with a round mark. -/
  | radio (t : Text) (on : Bool) : Widget Bool
  /-- A text field, with a hint for when it is empty, and its text after what was typed. -/
  | field (content hint : Text) : Widget Text
  /-- The head of a list of choices, known by a name, and whether the list is open. -/
  | combo (name selected : Text) : Widget Bool
  /-- A choice in the list that is open, whether it is chosen, and whether it was clicked. -/
  | choice (t : Text) (on : Bool) : Widget Bool

/-- A toolkit with its state. -/
class Toolkit (γ : Type) where
  /-- A toolkit that has not drawn anything. -/
  fresh : γ
  /-- A new frame, with what the user did since the last one. -/
  opened : List Signal → γ → γ
  /-- Whether the keyboard is meant for a widget. -/
  wantsKeyboard : γ → Bool
  /-- Dark colours from now on, or light ones. -/
  dress : Bool → γ → γ
  /-- A widget is drawn and answers. -/
  add {α : Type} : Widget α → γ → α × γ
  /-- The end of the frame. -/
  closed : γ → γ

end PocketCalc
