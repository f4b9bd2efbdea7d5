import PocketCalc.History.Json
import PocketCalc.Proofs.App.Component
import PocketCalc.Storage.Memory
import PocketCalc.View.Sheet

/-!
# The calculator behind another tool

While another tool is in front, the keyboard is not read and neither the calculator nor its history
panel is drawn, not even where the panel was left open. So whatever the toolkit answers to the
widgets that are drawn, the calculator, its screen and its stored history stay as they are, and
nothing is copied.

* `Drawing.Does`: what a program that draws may do, whatever the toolkit answers.
* `View.does_form`, `View.does_inside`: a form does steps for the forms only, and what is drawn
  below the bar leaves the tool in front.
* `Window.aside_update`: a frame that finds and leaves another tool in front.
* `Window.frozen_run`: what a run of such frames leaves alone.
-/

namespace PocketCalc

/-! ## What is done in a frame -/

/-- What a program that draws does besides drawing. -/
inductive Deed where
  | step (x : Step)
  | copy (t : Text)

namespace Deed

/-- The step that is made. -/
def step? : Deed → Option Step
  | .step x => some x
  | .copy _ => none

/-- The text that is copied. -/
def text? : Deed → Option Text
  | .step _ => none
  | .copy t => some t

/-- Steps for other parts than the calculator. -/
def IsAside : Deed → Prop
  | .step x => x.component ≠ .calculator
  | .copy _ => False

/-- Deeds that leave the tool in front. -/
def IsStaying : Deed → Prop
  | .step x => x.component ≠ .navigation
  | .copy _ => True

end Deed

/-- Whether a step is for a form. -/
def Step.isForm : Step → Bool
  | .mass _ | .length _ | .temperature _ | .loan _ | .percentage _ | .time _ => true
  | _ => false

theorem Step.component_of_isForm {x : Step} (h : x.isForm = true) :
    x.component ≠ .calculator ∧ x.component ≠ .navigation := by
  cases x with
  | mass | length | temperature | loan | percentage | time => simp [component]
  | _ => cases h

section

variable [HistoryFormat] {σ γ α β : Type} [Store σ]

/-- One frame comes out of another one by deeds of some kind. -/
def Frame.Leads (P : Deed → Prop) (f g : Frame σ γ) : Prop :=
  ∃ ds : List Deed, (∀ d ∈ ds, P d) ∧
    g.window.session = f.window.session.run (ds.filterMap Deed.step?) ∧
    g.copied = f.copied ++ ds.filterMap Deed.text?

namespace Frame

variable {P : Deed → Prop} {f g h : Frame σ γ}

theorem Leads.of_eq (hs : g.window.session = f.window.session) (hc : g.copied = f.copied) :
    f.Leads P g := ⟨[], by simp, hs, by simp [hc]⟩

theorem Leads.trans (hfg : f.Leads P g) (hgh : g.Leads P h) : f.Leads P h := by
  obtain ⟨ds, hds, hs, hc⟩ := hfg
  obtain ⟨es, hes, hs', hc'⟩ := hgh
  refine ⟨ds ++ es, List.forall_mem_append.2 ⟨hds, hes⟩, ?_, ?_⟩
  · rw [hs', hs, List.filterMap_append, Session.run_append]
  · rw [hc', hc, List.filterMap_append, List.append_assoc]

end Frame

/-- Whatever the toolkit answers, the program does deeds of some kind only. -/
def Drawing.Does (P : Deed → Prop) (m : Drawing σ γ α) : Prop :=
  ∀ f : Frame σ γ, f.Leads P (m f).2

namespace Drawing

variable {P : Deed → Prop}

theorem Does.pure (a : α) : Does P (pure a : Drawing σ γ α) := fun _ => .of_eq rfl rfl

theorem Does.bind {m : Drawing σ γ α} {k : α → Drawing σ γ β} (hm : Does P m)
    (hk : ∀ a, Does P (k a)) : Does P (m >>= k) := fun f => (hm f).trans (hk _ _)

theorem Does.ite {c : Prop} [Decidable c] {m n : Drawing σ γ α} (hm : Does P m) (hn : Does P n) :
    Does P (if c then m else n) := by
  split
  · exact hm
  · exact hn

theorem Does.onlyIf {c : Prop} [Decidable c] {m : Drawing σ γ Unit} (hm : Does P m) :
    Does P (onlyIf c m) := .ite hm (.pure _)

theorem Does.forM {l : List β} {k : β → Drawing σ γ PUnit} (hk : ∀ b, Does P (k b)) :
    Does P (l.forM k) := by
  induction l with
  | nil => exact .pure _
  | cons b l ih => exact .bind (hk b) fun _ => ih

theorem Does.forOption {o : Option β} {k : β → Drawing σ γ PUnit} (hk : ∀ b, Does P (k b)) :
    Does P (o.forM k) := by
  cases o with
  | none => exact .pure _
  | some b => exact hk b

theorem Does.app : Does P (app : Drawing σ γ App) := fun _ => .of_eq rfl rfl

theorem Does.add [Toolkit γ] (w : Widget α) : Does P (add w : Drawing σ γ α) :=
  fun _ => .of_eq rfl rfl

theorem Does.act {x : Step} (h : P (.step x)) : Does P (act x : Drawing σ γ Unit) :=
  fun f => ⟨[.step x], by simpa using h, rfl, (List.append_nil f.copied).symm⟩

theorem Does.copy {t : Text} (h : P (.copy t)) : Does P (copy t : Drawing σ γ Unit) :=
  fun _ => ⟨[.copy t], by simpa using h, rfl, rfl⟩

theorem Does.dress [Toolkit γ] : Does P (dress : Drawing σ γ Unit) := by
  intro f
  show f.Leads P (if f.window.dressed = some f.window.session.app.dark then f else _)
  split
  · exact .of_eq rfl rfl
  · exact .of_eq rfl rfl

end Drawing

/-! ## What is drawn

Each proof goes through the program that it is about from the first line to the last: a widget and a
look at the application do nothing, and the steps are those that the hypotheses name. -/

namespace View

open Drawing

variable {P : Deed → Prop} [Toolkit γ]

theorem does_onClick (w : Widget Bool) {x : Step} (h : P (.step x)) :
    Does P (onClick w x : Drawing σ γ Unit) :=
  .bind (.add w) fun _ => .onlyIf (.act h)

theorem does_input (content : App → Text) (hint : Text) {set : App → Text → Step}
    (h : ∀ a t, P (.step (set a t))) : Does P (input content hint set : Drawing σ γ Unit) :=
  .bind .app fun _ => .bind (.add _) fun _ => .act (h _ _)

theorem does_choices {U : Type} [DecidableEq U] (name : Text) (all : List U) (label : U → Text)
    (current : App → U) {set : U → Step} (h : ∀ u, P (.step (set u))) :
    Does P (choices name all label current set : Drawing σ γ Unit) := by
  have hchoice (u : U) : Does P (do
      onClick (.choice (label u) (current (← app) = u)) (set u) : Drawing σ γ Unit) :=
    .bind .app fun _ => does_onClick _ (h u)
  exact .bind .app fun _ => .bind (.add _) fun _ => .onlyIf (.forM hchoice)

theorem does_bar (hmenu : P (.step .toggleMenu)) (hhistory : P (.step .toggleHistory)) :
    Does P (bar : Drawing σ γ Unit) :=
  .bind (.add _) fun _ =>
  .bind (.add _) fun _ =>
  .bind (.onlyIf (.act hmenu)) fun _ =>
  .bind .app fun _ =>
  .bind (.add _) fun _ =>
  .onlyIf (does_onClick _ hhistory)

theorem does_menu (htool : ∀ t, P (.step (.chooseTool t))) (htheme : P (.step .toggleTheme)) :
    Does P (menu : Drawing σ γ Unit) :=
  .bind (.forM fun t => .bind .app fun _ => does_onClick _ (htool t)) fun _ =>
  .bind .app fun _ =>
  does_onClick _ htheme

theorem does_history (hclear : P (.step .clearHistory)) :
    Does P (history : Drawing σ γ Unit) := by
  have hentry (e : Entry) : Does P (entry e : Drawing σ γ Unit) :=
    .bind (.add _) fun _ => .add _
  have hentries (h : History) : Does P (entries h : Drawing σ γ Unit) :=
    .ite (.add _) (.forM hentry)
  exact
    .bind (.add _) fun _ =>
    .bind .app fun _ =>
    .bind (hentries _) fun _ =>
    does_onClick _ hclear

theorem does_keypad (hpress : ∀ k, P (.step (.press k))) :
    Does P (keypad : Drawing σ γ Unit) := by
  have hkey (k : Key) : Does P (key k : Drawing σ γ Unit) := does_onClick _ (hpress k)
  exact
    .bind (.forM hkey) fun _ =>
    .bind (.forM fun _ => .bind (.forM fun _ => hkey _) fun _ => hkey _) fun _ =>
    .bind (hkey _) fun _ =>
    .bind (hkey _) fun _ =>
    .bind (.add _) fun _ =>
    hkey _

theorem does_calculator (hpress : ∀ k, P (.step (.press k))) (hcopy : ∀ t, P (.copy t)) :
    Does P (calculator : Drawing σ γ Unit) :=
  .bind .app fun _ =>
  .bind (.add _) fun _ =>
  .bind (.add _) fun _ =>
  .bind (.add _) fun _ =>
  .bind (.onlyIf (.copy (hcopy _))) fun _ =>
  does_keypad hpress

theorem does_conversion {U : Type} [Measure U] [DecidableEq U] (name : Text)
    (form : App → ConversionForm U) {step : ConversionStep U → Step}
    (h : ∀ s, P (.step (step s))) :
    Does P (conversion name form step : Drawing σ γ Unit) := by
  have hunit (name label : Text) (current : App → U) (set : U → ConversionStep U) :
      Does P (unit name label current fun u => step (set u) : Drawing σ γ Unit) :=
    .bind (.add _) fun _ => does_choices _ _ _ _ fun _ => h _
  exact
    .bind (.add _) fun _ =>
    .bind (does_input _ _ fun _ _ => h _) fun _ =>
    .bind (hunit _ _ _ _) fun _ =>
    .bind (hunit _ _ _ _) fun _ =>
    .bind (.add _) fun _ =>
    .bind .app fun _ =>
    .bind (.forOption fun _ => .add _) fun _ =>
    .onlyIf (.act (h _))

theorem does_loan (h : ∀ s, P (.step (.loan s))) : Does P (loan : Drawing σ γ Unit) := by
  have hcost (l : Loan) : Does P (cost l : Drawing σ γ Unit) :=
    .bind (.add _) fun _ =>
    .bind (.add _) fun _ =>
    .bind (.add _) fun _ =>
    .bind (.add _) fun _ =>
    .bind (.add _) fun _ =>
    .add _
  exact
    .bind (.add _) fun _ =>
    .bind (does_input _ _ fun _ _ => h _) fun _ =>
    .bind (.add _) fun _ =>
    .bind (does_input _ _ fun _ _ => h _) fun _ =>
    .bind (.add _) fun _ =>
    .bind (does_input _ _ fun _ _ => h _) fun _ =>
    .bind (does_onClick _ (h _)) fun _ =>
    .bind .app fun _ =>
    .forOption hcost

theorem does_percentage (h : ∀ s, P (.step (.percentage s))) :
    Does P (percentage : Drawing σ γ Unit) :=
  .bind (does_choices _ _ _ _ fun _ => h _) fun _ =>
  .bind .app fun _ =>
  .bind (.add _) fun _ =>
  .bind (does_input _ _ fun _ _ => h _) fun _ =>
  .bind (.add _) fun _ =>
  .bind (does_input _ _ fun _ _ => h _) fun _ =>
  .bind (does_onClick _ (h _)) fun _ =>
  .bind .app fun _ =>
  .forOption fun _ => .add _

theorem does_time (h : ∀ s, P (.step (.time s))) : Does P (time : Drawing σ γ Unit) := by
  have hclock (fields : App → ClockFields) (set : ClockFields → TimeStep) :
      Does P (clock fields set : Drawing σ γ Unit) :=
    .bind (does_input _ _ fun _ _ => h _) fun _ =>
    .bind (does_input _ _ fun _ _ => h _) fun _ =>
    does_input _ _ fun _ _ => h _
  exact
    .bind (.forM fun _ => .add _) fun _ =>
    .bind (hclock _ _) fun _ =>
    .bind (.add _) fun _ =>
    .bind (hclock _ _) fun _ =>
    .bind (.forM fun _ => .bind .app fun _ => does_onClick _ (h _)) fun _ =>
    .bind (does_onClick _ (h _)) fun _ =>
    .bind .app fun _ =>
    .forOption fun _ => .add _

/-- The form of a tool does steps for the forms only. -/
theorem does_form {t : Tool} (ht : t ≠ .calculator)
    (h : ∀ x : Step, x.isForm = true → P (.step x)) : Does P (tool t : Drawing σ γ Unit) := by
  cases t with
  | calculator => exact absurd rfl ht
  | mass => exact does_conversion _ _ fun s => h (.mass s) rfl
  | loan => exact does_loan fun s => h (.loan s) rfl
  | percentage => exact does_percentage fun s => h (.percentage s) rfl
  | length => exact does_conversion _ _ fun s => h (.length s) rfl
  | temperature => exact does_conversion _ _ fun s => h (.temperature s) rfl
  | time => exact does_time fun s => h (.time s) rfl

theorem does_around : Does Deed.IsAside (around : Drawing σ γ Unit) := by
  have hbar : Does Deed.IsAside (bar : Drawing σ γ Unit) :=
    does_bar nofun nofun
  have hmenu : Does Deed.IsAside (menu : Drawing σ γ Unit) :=
    does_menu nofun nofun
  exact .bind hbar fun _ => .bind .app fun _ => .onlyIf hmenu

theorem does_tool (t : Tool) : Does Deed.IsStaying (tool t : Drawing σ γ Unit) := by
  by_cases ht : t = .calculator
  · subst ht
    exact does_calculator nofun fun _ => trivial
  · exact does_form ht fun _ hx => (Step.component_of_isForm hx).2

theorem does_inside : Does Deed.IsStaying (inside : Drawing σ γ Unit) :=
  .bind .app fun _ =>
    .bind (.onlyIf (does_history nofun)) fun _ => .bind .app fun _ => does_tool _

/-- Behind another tool only the form of that tool is drawn, not the history panel that was left
open. -/
theorem inside_of_other_tool {f : Frame σ γ} (h : f.window.session.app.tool ≠ .calculator) :
    inside f = tool f.window.session.app.tool f := by
  have hn : ¬ (f.window.session.app.tool = .calculator ∧ f.window.session.app.historyOpen) :=
    fun hb => h hb.1
  show (onlyIf _ history >>= fun _ => app >>= fun a => tool a.tool : Drawing σ γ Unit) f = _
  rw [onlyIf_of_not hn]
  rfl

end View

/-! ## One frame -/

theorem Frame.Leads.exists_steps {P : Deed → Prop} {f g : Frame σ γ} (h : f.Leads P g) :
    ∃ xs : List Step, (∀ x ∈ xs, P (.step x)) ∧ g.window.session = f.window.session.run xs := by
  obtain ⟨ds, hds, hs, -⟩ := h
  refine ⟨ds.filterMap Deed.step?, fun x hx => ?_, hs⟩
  obtain ⟨d, hd, hx⟩ := List.mem_filterMap.1 hx
  cases d with
  | step y => cases hx; exact hds _ hd
  | copy t => cases hx

theorem Frame.Leads.tool_eq {f g : Frame σ γ} (h : f.Leads Deed.IsStaying g) :
    g.window.session.app.tool = f.window.session.app.tool := by
  obtain ⟨xs, hxs, hs⟩ := h.exists_steps
  have hpart := (App.run_of_ne (a := f.window.session.app) (k := .navigation) hxs).1
  rw [hs, Session.app_run]
  exact (Prod.mk.inj hpart).1

theorem Frame.Leads.copied_eq {f g : Frame σ γ} (h : f.Leads Deed.IsAside g) :
    g.copied = f.copied := by
  obtain ⟨ds, hds, -, hc⟩ := h
  have hnone : ds.filterMap Deed.text? = [] := by
    refine List.filterMap_eq_nil_iff.2 fun d hd => ?_
    cases d with
    | step x => rfl
    | copy t => exact absurd (hds _ hd) id
  rw [hc, hnone, List.append_nil]

/-- A frame that finds another tool in front and leaves another one there does steps for other parts
only. -/
theorem Window.aside_update [Toolkit γ] {f : Frame σ γ} {ss : List Signal}
    (hf : f.window.session.app.tool ≠ .calculator)
    (hg : (update ss f).2.window.session.app.tool ≠ .calculator) :
    f.Leads Deed.IsAside (update ss f).2 := by
  let f₁ := (Drawing.dress f).2
  let f₂ := (View.around f₁).2
  have hdress : f.Leads Deed.IsAside f₁ := Drawing.Does.dress f
  have hf₁ : f₁.window.session.app.tool ≠ .calculator := by
    have hstays : f.Leads Deed.IsStaying f₁ := Drawing.Does.dress f
    rwa [hstays.tool_eq]
  have hupdate : update ss f = View.inside f₂ := by
    show (do View.all : Drawing σ γ Unit) (keyboard ss f₁).2 = _
    rw [keyboard_of_other_tool hf₁]
    rfl
  rw [hupdate] at hg ⊢
  -- What is drawn inside leaves the tool in front, so that is the one that the frame ends with.
  have hf₂ : f₂.window.session.app.tool ≠ .calculator := by
    rwa [(View.does_inside f₂).tool_eq] at hg
  rw [View.inside_of_other_tool hf₂]
  exact hdress.trans ((View.does_around f₁).trans (View.does_form hf₂
    (fun x hx => (Step.component_of_isForm hx).1) f₂))

end

/-! ## A run -/

namespace Session

variable [HistoryFormat] {σ : Type} [Store σ]

/-- Whether a session comes out of another one by steps for other parts than the calculator. -/
def LeadsAside (t u : Session σ) : Prop :=
  ∃ xs : List Step, (∀ x ∈ xs, x.component ≠ .calculator) ∧ u = t.run xs

theorem LeadsAside.refl (t : Session σ) : t.LeadsAside t := ⟨[], by simp, rfl⟩

theorem LeadsAside.step (t : Session σ) {x : Step} (h : x.component ≠ .calculator) :
    t.LeadsAside (t.step x) := ⟨[x], by simpa using h, rfl⟩

theorem LeadsAside.trans {t u v : Session σ} (htu : t.LeadsAside u) (huv : u.LeadsAside v) :
    t.LeadsAside v := by
  obtain ⟨xs, hxs, rfl⟩ := htu
  obtain ⟨ys, hys, rfl⟩ := huv
  exact ⟨xs ++ ys, List.forall_mem_append.2 ⟨hxs, hys⟩, (t.run_append xs ys).symm⟩

end Session

/-- Whether an event is a frame, with whatever the user did, or a step for another part than the
calculator. -/
def Event.isAside : Event → Bool
  | .frame _ => true
  | .act x => decide (x.component ≠ .calculator)
  | .restart => false

namespace Window

section

variable [HistoryFormat] {σ γ : Type} [Store σ] [Toolkit γ]

/-- An event that finds and leaves another tool in front makes steps for other parts only, and
copies nothing. -/
theorem leadsAside_handle {w : Window σ γ} {e : Event} (he : e.isAside = true)
    (hw : w.session.app.tool ≠ .calculator)
    (hafter : (w.handle e).1.session.app.tool ≠ .calculator) :
    w.session.LeadsAside (w.handle e).1.session ∧ (w.handle e).2 = [] := by
  cases e with
  | frame ss =>
    have h := aside_update (f := ⟨{ w with toolkit := Toolkit.opened ss w.toolkit }, []⟩) hw hafter
    exact ⟨h.exists_steps, h.copied_eq⟩
  | act x => exact ⟨.step _ (of_decide_eq_true he), rfl⟩
  | restart => cases he

/-- The texts that are copied in a run, in order. -/
def copies (w : Window σ γ) : List Event → List Text
  | [] => []
  | e :: es => (w.handle e).2 ++ (w.handle e).1.copies es

theorem leadsAside_run {w : Window σ γ} {es : List Event} (hes : ∀ e ∈ es, e.isAside = true)
    (hw : ∀ n ≤ es.length, (w.run (es.take n)).session.app.tool ≠ .calculator) :
    w.session.LeadsAside (w.run es).session ∧ w.copies es = [] := by
  induction es generalizing w with
  | nil => exact ⟨.refl _, rfl⟩
  | cons e es ih =>
    -- What the run of the tail finds is what the whole run finds one event later.
    have hlater : ∀ n ≤ es.length,
        ((w.handle e).1.run (es.take n)).session.app.tool ≠ .calculator :=
      fun n hn => hw (n + 1) (Nat.succ_le_succ hn)
    have hfirst : w.session.app.tool ≠ .calculator := hw 0 (Nat.zero_le _)
    obtain ⟨hstep, hcopy⟩ :=
      leadsAside_handle (hes e List.mem_cons_self) hfirst (hlater 0 (Nat.zero_le _))
    obtain ⟨hrun, hcopies⟩ := ih (fun f hf => hes f (List.mem_cons_of_mem e hf)) hlater
    exact ⟨hstep.trans hrun, by rw [copies, hcopy, hcopies, List.append_nil]⟩

/-- From every window, with whatever toolkit, in a run of frames and of steps for other parts during
which another tool stays in front, the calculator, its history and its screen stay as they are,
nothing is copied, and the store is asked to keep no text under the key of the history. -/
theorem frozen_run {w : Window σ γ} {es : List Event} (hes : ∀ e ∈ es, e.isAside = true)
    (hw : ∀ n ≤ es.length, (w.run (es.take n)).session.app.tool ≠ .calculator) :
    (w.run es).session.app.calculator = w.session.app.calculator ∧
    (w.run es).session.app.screen = w.session.app.screen ∧
    (∃ writes : List (Text × Text), (∀ x ∈ writes, x.1 ≠ historyKey) ∧
      (w.run es).session.store = Session.writeAll w.session.store writes) ∧
    w.copies es = [] := by
  obtain ⟨⟨xs, hxs, hsession⟩, hcopies⟩ := leadsAside_run hes hw
  obtain ⟨hpart, hstored⟩ := App.run_of_ne (a := w.session.app) hxs
  obtain ⟨hcalculator, hscreen⟩ := Prod.mk.inj hpart
  rw [hsession, Session.app_run]
  refine ⟨hcalculator, hscreen, ⟨w.session.app.writes xs, fun x hx hkey => ?_,
    w.session.store_run xs⟩, hcopies⟩
  have hown : x.1 ∈ Component.calculator.keys := by simp [Component.keys, hkey]
  exact List.filter_eq_nil_iff.1 hstored x hx (decide_eq_true hown)

end

/-- A window whose history panel was left open behind the conversion of masses. A number is typed
into the field there, keys of the calculator behind it, and with the units chosen a conversion is
made; then there is a click where the panel was, and the theme is changed. -/
theorem frozen_run_behind_masses :
    let w := (start (RecordingStore.fresh MemoryStore.empty) : Window _ Sheet).run [.frame [],
      .frame [.text "7=".toList], .frame [.click "Historique".toList 0],
      .frame [.click "☰".toList 0], .frame [], .frame [.click "Poids".toList 0], .frame []]
    let es : List Event := [.frame [.click "Entrer une valeur".toList 0],
      .frame [.text ['3'], .stroke .enter true], .frame [.stroke .enter false],
      .frame [.text "5%=".toList, .stroke .enter true, .stroke .escape true],
      .frame [.click "Kilogrammes (kg)".toList 0], .frame [],
      .frame [.click "Stone".toList (-1)], .frame [.click "Convertir".toList 0],
      .frame [.click "Effacer l’historique".toList 0], .act .toggleMenu, .frame [],
      .frame [.click "🌙 Mode sombre".toList 0]]
    (∀ e ∈ es, e.isAside = true) ∧
    (∀ n ≤ es.length, (w.run (es.take n)).session.app.tool ≠ .calculator) ∧
    w.session.app.historyOpen = true ∧ (w.run (es.take 1)).toolkit.focus.isSome = true ∧
    (w.run es).session.app.mass.result = some ("42.0000".toList, "lbs".toList) ∧
    (w.run es).session.store.writes =
      [(historyKey, "[\x7b\"expression\":\"7\",\"result\":\"7\"\x7d]".toList),
        (themeKey, "dark".toList)] ∧
    (w.run es).session.app.calculator = w.session.app.calculator ∧
    (w.run es).session.app.screen = w.session.app.screen ∧
    (∃ writes : List (Text × Text), (∀ x ∈ writes, x.1 ≠ historyKey) ∧
      (w.run es).session.store = Session.writeAll w.session.store writes) ∧
    w.copies es = [] := by
  intro w es
  have hes : ∀ e ∈ es, e.isAside = true := by decide +kernel
  have hw : ∀ n ≤ es.length, (w.run (es.take n)).session.app.tool ≠ .calculator := by
    decide +kernel
  have hopen : w.session.app.historyOpen = true := by decide +kernel
  have hfocus : (w.run (es.take 1)).toolkit.focus.isSome = true := by decide +kernel
  have hmass : (w.run es).session.app.mass.result = some ("42.0000".toList, "lbs".toList) := by
    decide +kernel
  have hwrites : (w.run es).session.store.writes =
      [(historyKey, "[\x7b\"expression\":\"7\",\"result\":\"7\"\x7d]".toList),
        (themeKey, "dark".toList)] := by decide +kernel
  exact ⟨hes, hw, hopen, hfocus, hmass, hwrites, frozen_run hes hw⟩

end Window

end PocketCalc
