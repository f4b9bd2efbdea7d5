import PocketCalc.View.Window

/-!
# A toolkit of texts

A toolkit that draws nothing but texts, one below the other, with an open list of choices at the
end. It knows a widget by its place among those that a frame draws, and a list by its name.

A click in a text field gives it the focus. The field that has the focus takes the texts that are
typed, until there is a click elsewhere, the enter or escape key is pressed, or the field is no
longer drawn. A click on the head of a list opens or closes the list. An open list closes with a
click anywhere, with the escape key, and when its head is no longer drawn.
-/

namespace PocketCalc

/-- The place of a text: among the widgets, or among the choices of the list that is open. -/
inductive Place where
  | widget (n : Nat)
  | choice (n : Nat)
deriving DecidableEq

/-- What is drawn, and what the user has to do with it. -/
structure Sheet where
  /-- The texts that the last frame drew, with their places. -/
  shown : List (Text × Place)
  /-- The texts that this frame has drawn so far, the last one first. -/
  widgets : List Text
  /-- The choices that this frame has drawn so far, the last one first. -/
  choices : List Text
  /-- Where there was a click. -/
  clicked : Option Place
  /-- What was typed. -/
  typed : List Text
  /-- The field with the focus. -/
  focus : Option Place
  /-- Whether the field with the focus has been drawn and keeps it. -/
  focused : Bool
  /-- The list that is open. -/
  unrolled : Option Text
  /-- Whether the head of the open list has been drawn and keeps it open. -/
  kept : Bool
  /-- Whether there was a click or a key that closes lists. -/
  closing : Bool
  /-- Whether the enter key was pressed. -/
  entered : Bool

namespace Sheet

/-- The n-th of some places, counted from the end where n is negative. -/
def nth? (ps : List Place) (n : Int) : Option Place :=
  match n with
  | .ofNat k => ps[k]?
  | .negSucc k => ps.reverse[k]?

/-- The place of the n-th text of a wording, if there is one. -/
def place? (g : Sheet) (t : Text) (n : Int) : Option Place :=
  nth? ((g.shown.filter fun x => x.1 = t).map Prod.snd) n

/-- The place of a click. -/
def clickPlace? (g : Sheet) : Signal → Option Place
  | .click t n => g.place? t n
  | _ => none

/-- A text that was typed. A line break is a key, not a text. -/
def typedText? : Signal → Option Text
  | .text t => if t = ['\n'] ∨ t = ['\r'] then none else some t
  | _ => none

/-- A new frame. -/
def opened (ss : List Signal) (g : Sheet) : Sheet :=
  let clicked := ss.findSome? g.clickPlace?
  let escaped := ss.contains (.stroke .escape true)
  { g with
    widgets := []
    choices := []
    clicked := clicked
    typed := ss.filterMap typedText?
    focus := if escaped ∨ clicked.isSome then none else g.focus
    focused := false
    kept := false
    closing := clicked.isSome || escaped
    entered := ss.contains (.stroke .enter true) }

/-- A text is drawn, and whether it was clicked. -/
def draw (t : Text) (g : Sheet) : Bool × Sheet :=
  (g.clicked = some (.widget g.widgets.length), { g with widgets := t :: g.widgets })

/-- A choice is drawn, and whether it was clicked. -/
def drawChoice (t : Text) (g : Sheet) : Bool × Sheet :=
  (g.clicked = some (.choice g.choices.length), { g with choices := t :: g.choices })

/-- A text field is drawn, with what was typed into it. -/
def drawField (content hint : Text) (g : Sheet) : Text × Sheet :=
  let place := Place.widget g.widgets.length
  let holds := g.clicked = some place ∨ g.focus = some place
  let content := if holds then content ++ g.typed.flatten else content
  let (_, g) := g.draw (if content = [] then hint else content)
  (content, if holds then { g with focus := some place, focused := !g.entered } else g)

/-- The head of a list of choices is drawn. -/
def drawCombo (name selected : Text) (g : Sheet) : Bool × Sheet :=
  let (hit, g) := g.draw selected
  if hit then
    if g.unrolled = some name then (false, { g with unrolled := none })
    else (true, { g with unrolled := some name, kept := true })
  else if g.unrolled = some name then (true, { g with kept := !g.closing })
  else (false, g)

/-- A widget is drawn. -/
def add {α : Type} : Widget α → Sheet → α × Sheet
  | .label t, g => ((), (g.draw t).2)
  | .tip _, g => ((), g)
  | .clickable t, g => g.draw t
  | .button t enabled, g => let (hit, g) := g.draw t; (hit && enabled, g)
  | .selectable t _, g => g.draw t
  | .radio t _, g => g.draw t
  | .field content hint, g => g.drawField content hint
  | .combo name selected, g => g.drawCombo name selected
  | .choice t _, g => g.drawChoice t

/-- The end of a frame. Empty texts are not seen. -/
def closed (g : Sheet) : Sheet :=
  let widgets := g.widgets.reverse.zipIdx.map fun (t, n) => (t, Place.widget n)
  let choices := g.choices.reverse.zipIdx.map fun (t, n) => (t, Place.choice n)
  { g with
    shown := (widgets ++ choices).filter fun x => x.1 ≠ []
    focus := if g.focused then g.focus else none
    unrolled := if g.kept then g.unrolled else none }

instance : Toolkit Sheet where
  fresh := ⟨[], [], [], none, [], none, false, none, false, false, false⟩
  opened := opened
  wantsKeyboard g := g.focus.isSome
  dress _ g := g
  add := add
  closed := closed

end Sheet

namespace Window

/-- The texts that are shown. -/
def texts {σ : Type} (w : Window σ Sheet) : List Text := w.toolkit.shown.map Prod.fst

end Window

end PocketCalc
