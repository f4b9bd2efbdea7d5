import PocketCalc.View.Drawing

/-!
# What is drawn

The bar at the top, the menu and the history panel where they are open, and the tool in front. Each
widget takes effect as soon as it has answered, so what is drawn behind it shows the effect.
-/

namespace PocketCalc

namespace View

open Drawing

variable [HistoryFormat] {σ γ : Type} [Store σ] [Toolkit γ]

/-- A step for when a widget was clicked. -/
def onClick (w : Widget Bool) (x : Step) : Drawing σ γ Unit := do
  onlyIf (← add w) (act x)

/-- A text field, with a hint while it is empty, and the step that puts a text into it. -/
def input (content : App → Text) (hint : Text) (set : App → Text → Step) : Drawing σ γ Unit := do
  let a ← app
  let t ← add (.field (content a) hint)
  act (set a t)

/-! ## Around the tool -/

/-- The bar at the top. -/
def bar : Drawing σ γ Unit := do
  let clicked ← add (.button "☰".toList true)
  add (.tip "Outils".toList)
  onlyIf clicked (act .toggleMenu)
  let a ← app
  add (.label a.tool.title)
  onlyIf (a.tool = .calculator)
    (onClick (.selectable "Historique".toList a.historyOpen) .toggleHistory)

/-- The menu of tools, with the theme that is not on. -/
def menu : Drawing σ γ Unit := do
  Tool.all.forM fun t => do
    onClick (.selectable t.title ((← app).tool = t)) (.chooseTool t)
  let theme := if (← app).dark then "☀ Mode clair".toList else "🌙 Mode sombre".toList
  onClick (.button theme true) .toggleTheme

/-- An entry of the history. -/
def entry (e : Entry) : Drawing σ γ Unit := do
  add (.label e.expression)
  add (.label ("= ".toList ++ e.result))

/-- The entries of the history. -/
def entries (h : History) : Drawing σ γ Unit :=
  if h.isEmpty then add (.label "Aucun calcul pour l’instant".toList) else h.entries.forM entry

/-- The panel with the history. It can be cleared when there is something in it. -/
def history : Drawing σ γ Unit := do
  add (.label "Historique".toList)
  let h := (← app).calculator.history
  entries h
  onClick (.button "Effacer l’historique".toList (!h.isEmpty)) .clearHistory

/-! ## The calculator -/

/-- The text of a key. -/
def keyText : Key → Text
  | .digit c => [c]
  | .point => ['.']
  | .sign => ['±']
  | .percent => ['%']
  | .operator o => o.symbol
  | .equals => ['=']
  | .clear => ['C']

/-- A key of the keypad. -/
def key (k : Key) : Drawing σ γ Unit := onClick (.button (keyText k) true) (.press k)

/-- The keys, row by row. -/
def keypad : Drawing σ γ Unit := do
  [.clear, .sign, .percent, .operator .over].forM key
  [("789".toList, Operator.times), ("456".toList, .minus), ("123".toList, .plus)].forM
    fun (digits, o) => do
      digits.forM fun d => key (.digit d)
      key (.operator o)
  key (.digit '0')
  key .point
  add (.label [])
  key .equals

/-- The screen of the calculator above its keys. A click on the display copies it. -/
def calculator : Drawing σ γ Unit := do
  let a ← app
  add (.label (if a.calculator.phase = .result then a.screen.expression ++ " =".toList
    else a.screen.expression))
  let clicked ← add (.clickable a.screen.display)
  add (.tip "Cliquer pour copier".toList)
  onlyIf clicked (copy a.screen.display)
  keypad

/-! ## The forms -/

/-- A list of choices, with the one that is made. -/
def choices {U : Type} [DecidableEq U] (name : Text) (all : List U) (label : U → Text)
    (current : App → U) (set : U → Step) : Drawing σ γ Unit := do
  let unrolled ← add (.combo name (label (current (← app))))
  onlyIf unrolled <| all.forM fun u => do
    onClick (.choice (label u) (current (← app) = u)) (set u)

/-- A label with a list of units behind it. -/
def unit {U : Type} [Measure U] [DecidableEq U] (name label : Text) (current : App → U)
    (set : U → Step) : Drawing σ γ Unit := do
  add (.label label)
  choices name Measure.all Measure.label current set

/-- A conversion form. The result is drawn before the new one is there. -/
def conversion {U : Type} [Measure U] [DecidableEq U] (name : Text) (form : App → ConversionForm U)
    (step : ConversionStep U → Step) : Drawing σ γ Unit := do
  add (.label "Valeur :".toList)
  input (fun a => (form a).value) "Entrer une valeur".toList fun _ t => step (.setValue t)
  unit (name ++ "_de".toList) "De :".toList (fun a => (form a).source) fun u => step (.setSource u)
  unit (name ++ "_vers".toList) "Vers :".toList (fun a => (form a).target)
    fun u => step (.setTarget u)
  let clicked ← add (.button "Convertir".toList true)
  (form (← app)).result.forM fun (value, code) => add (.label (value ++ ' ' :: code))
  onlyIf clicked (act (step .convert))

/-- The cost of a loan. -/
def cost (l : Loan) : Drawing σ γ Unit := do
  add (.label "Mensualité :".toList)
  add (.label (Decimal.fixedText 2 l.payment))
  add (.label "Total remboursé :".toList)
  add (.label (Decimal.fixedText 2 l.total))
  add (.label "Intérêts :".toList)
  add (.label (Decimal.fixedText 2 l.interest))

/-- The loan form. -/
def loan : Drawing σ γ Unit := do
  add (.label "Montant :".toList)
  input (fun a => a.loan.amount) [] fun _ t => .loan (.setAmount t)
  add (.label "Taux annuel (%) :".toList)
  input (fun a => a.loan.rate) [] fun _ t => .loan (.setRate t)
  add (.label "Durée (années) :".toList)
  input (fun a => a.loan.years) [] fun _ t => .loan (.setYears t)
  onClick (.button "Calculer".toList true) (.loan .compute)
  (← app).loan.result.forM cost

/-- The percentage form. -/
def percentage : Drawing σ γ Unit := do
  choices "operation_pourcentage".toList Percentage.all Percentage.label
    (fun a => a.percentage.question) fun p => .percentage (.setQuestion p)
  let (first, second) := (← app).percentage.question.fieldLabels
  add (.label (first ++ " :".toList))
  input (fun a => a.percentage.first) [] fun _ t => .percentage (.setFirst t)
  add (.label (second ++ " :".toList))
  input (fun a => a.percentage.second) [] fun _ t => .percentage (.setSecond t)
  onClick (.button "Calculer".toList true) (.percentage .compute)
  (← app).percentage.result.forM fun r => add (.label r)

/-- The three fields of a duration. -/
def clock (fields : App → ClockFields) (set : ClockFields → TimeStep) : Drawing σ γ Unit := do
  input (fun a => (fields a).hours) [] fun a t => .time (set { fields a with hours := t })
  input (fun a => (fields a).minutes) [] fun a t => .time (set { fields a with minutes := t })
  input (fun a => (fields a).seconds) [] fun a t => .time (set { fields a with seconds := t })

/-- The time form. -/
def time : Drawing σ γ Unit := do
  [[], "h".toList, "min".toList, ['s'], "Durée 1".toList].forM fun t => add (.label t)
  clock (fun a => a.time.first) .setFirst
  add (.label "Durée 2".toList)
  clock (fun a => a.time.second) .setSecond
  TimeOperation.all.forM fun op => do
    onClick (.radio op.label ((← app).time.operation = op)) (.time (.setOperation op))
  onClick (.button "Calculer".toList true) (.time .compute)
  (← app).time.result.forM fun r => add (.label r)

/-- The tool in front. -/
def tool : Tool → Drawing σ γ Unit
  | .calculator => calculator
  | .mass => conversion "poids".toList (fun a => a.mass) .mass
  | .loan => loan
  | .percentage => percentage
  | .length => conversion "longueur".toList (fun a => a.length) .length
  | .temperature => conversion "temperature".toList (fun a => a.temperature) .temperature
  | .time => time

/-! ## Everything -/

/-- The bar and the menu. -/
def around : Drawing σ γ Unit := do
  bar
  onlyIf (← app).menuOpen menu

/-- The history panel and the tool. -/
def inside : Drawing σ γ Unit := do
  let a ← app
  onlyIf (a.tool = .calculator ∧ a.historyOpen) history
  tool (← app).tool

/-- All that is drawn. -/
def all : Drawing σ γ Unit := do
  around
  inside

end View

end PocketCalc
