import PocketCalc.App.Session
import PocketCalc.Proofs.Storage.Reliable

/-!
# The parts of the application

Each step is for one part of the application. It changes no other part and stores nothing under the
keys of another part, and what it does depends on its own part only. So a part after a run is what
its own steps alone make of it, and steps for different parts may come in any order.

* `App.part_step_of_ne`, `App.part_step_congr`: what one step changes, and from what.
* `App.run_own`: a part after a run of all steps and after a run of its own.
* `App.step_action`: an action of a form changes at most the result of that form.
* `Session.parts_run`: the parts in the runs of the application on any store.
-/

namespace PocketCalc

/-- The parts of the application: the calculator with its history and its screen, the theme, what is
open, and each form. -/
inductive Component where
  | calculator
  | theme
  | navigation
  | mass
  | length
  | temperature
  | loan
  | percentage
  | time
deriving DecidableEq

/-- The part that a step is for. -/
def Step.component : Step → Component
  | .press _ | .clearHistory => .calculator
  | .toggleTheme => .theme
  | .chooseTool _ | .toggleMenu | .toggleHistory => .navigation
  | .mass _ => .mass
  | .length _ => .length
  | .temperature _ => .temperature
  | .loan _ => .loan
  | .percentage _ => .percentage
  | .time _ => .time

namespace Component

/-- What the application keeps for a part. -/
def Value : Component → Type
  | .calculator => Calculator × Screen
  | .theme => Bool
  | .navigation => Tool × Bool × Bool
  | .mass => ConversionForm Mass
  | .length => ConversionForm Length
  | .temperature => ConversionForm Temperature
  | .loan => LoanForm
  | .percentage => PercentageForm
  | .time => TimeForm

/-- The keys that a part stores its texts under. -/
def keys : Component → List Text
  | .calculator => [historyKey]
  | .theme => [themeKey]
  | _ => []

/-- The steps for a part, in their order. -/
def own (k : Component) (xs : List Step) : List Step := xs.filter fun x => x.component = k

/-- The texts that are stored for a part, in their order. -/
def stored (k : Component) (writes : List (Text × Text)) : List (Text × Text) :=
  writes.filter fun w => w.1 ∈ k.keys

theorem own_cons_of_eq {k : Component} {x : Step} (h : x.component = k) (xs : List Step) :
    k.own (x :: xs) = x :: k.own xs := by
  simp [own, h]

theorem own_cons_of_ne {k : Component} {x : Step} (h : x.component ≠ k) (xs : List Step) :
    k.own (x :: xs) = k.own xs := by
  simp [own, h]

theorem own_eq_nil {k : Component} {xs : List Step} (h : ∀ x ∈ xs, x.component ≠ k) :
    k.own xs = [] :=
  List.filter_eq_nil_iff.2 fun x hx => by simpa using h x hx

theorem stored_append (k : Component) (v w : List (Text × Text)) :
    k.stored (v ++ w) = k.stored v ++ k.stored w :=
  List.filter_append v w

/-- A key has one owner. -/
theorem eq_of_mem_keys {j k : Component} {q : Text} (hj : q ∈ j.keys) (hk : q ∈ k.keys) :
    j = k := by
  have hne := themeKey_ne_historyKey
  cases j <;> cases k <;> simp_all [keys]

end Component

/-! ## One step -/

namespace App

/-- The part of an application. -/
def part (a : App) : (k : Component) → k.Value
  | .calculator => (a.calculator, a.screen)
  | .theme => a.dark
  | .navigation => (a.tool, a.menuOpen, a.historyOpen)
  | .mass => a.mass
  | .length => a.length
  | .temperature => a.temperature
  | .loan => a.loan
  | .percentage => a.percentage
  | .time => a.time

/-- The parts are all there is. -/
theorem eq_of_part {a b : App} (h : ∀ k, a.part k = b.part k) : a = b := by
  obtain ⟨hc, hs⟩ := Prod.mk.inj (h .calculator)
  obtain ⟨ht, hn⟩ := Prod.mk.inj (h .navigation)
  obtain ⟨hm, hh⟩ := Prod.mk.inj hn
  cases a
  cases b
  congr
  · exact h .theme
  · exact h .mass
  · exact h .length
  · exact h .temperature
  · exact h .loan
  · exact h .percentage
  · exact h .time

variable [HistoryFormat]

/-- A step for another part leaves a part as it is. -/
theorem part_step_of_ne (a : App) {x : Step} {k : Component} (h : x.component ≠ k) :
    (a.step x).1.part k = a.part k := by
  -- No step writes a field of a part that it is not for.
  cases x <;> cases k <;> first | rfl | exact absurd rfl h

theorem absorb_congr {a b : App} (h : a.part .calculator = b.part .calculator) (i : Input) :
    (a.absorb (a.calculator.respond i)).1.part .calculator =
        (b.absorb (b.calculator.respond i)).1.part .calculator ∧
      (a.absorb (a.calculator.respond i)).2 = (b.absorb (b.calculator.respond i)).2 := by
  obtain ⟨hc, hs⟩ := Prod.mk.inj h
  rw [hc]
  let e := b.calculator.respond i
  exact ⟨congrArg (fun screen => (e.calculator, e.shown.getD screen)) hs, rfl⟩

/-- What a step makes of its part and what it stores depend on that part only. -/
theorem part_step_congr {a b : App} {x : Step} (h : a.part x.component = b.part x.component) :
    (a.step x).1.part x.component = (b.step x).1.part x.component ∧
      (a.step x).2 = (b.step x).2 := by
  cases x with
  | press key => exact absorb_congr h (.key key)
  | clearHistory => exact absorb_congr h .clearHistory
  | toggleTheme =>
    have h : a.dark = b.dark := h
    exact ⟨congrArg not h, congrArg (fun dark => [(themeKey, themeText !dark)]) h⟩
  | chooseTool t =>
    obtain ⟨-, hn⟩ := Prod.mk.inj h
    exact ⟨congrArg (fun n : Bool × Bool => (t, false, n.2)) hn, rfl⟩
  | toggleMenu => exact ⟨congrArg (fun n : Tool × Bool × Bool => (n.1, !n.2.1, n.2.2)) h, rfl⟩
  | toggleHistory => exact ⟨congrArg (fun n : Tool × Bool × Bool => (n.1, n.2.1, !n.2.2)) h, rfl⟩
  | mass s => exact ⟨congrArg (ConversionForm.step · s) h, rfl⟩
  | length s => exact ⟨congrArg (ConversionForm.step · s) h, rfl⟩
  | temperature s => exact ⟨congrArg (ConversionForm.step · s) h, rfl⟩
  | loan s => exact ⟨congrArg (LoanForm.step · s) h, rfl⟩
  | percentage s => exact ⟨congrArg (PercentageForm.step · s) h, rfl⟩
  | time s => exact ⟨congrArg (TimeForm.step · s) h, rfl⟩

theorem key_mem_of_mem_absorb {a : App} {e : Effect} {w : Text × Text} (h : w ∈ (a.absorb e).2) :
    w.1 ∈ Component.calculator.keys := by
  cases hs : e.saves with
  | false => simp [absorb, hs] at h
  | true =>
    have hw : w = (historyKey, e.calculator.history.toJson) := by simpa [absorb, hs] using h
    simp [hw, Component.keys]

/-- A step stores its texts under the keys of its part. -/
theorem key_mem_of_mem_step {a : App} {x : Step} {w : Text × Text} (h : w ∈ (a.step x).2) :
    w.1 ∈ x.component.keys := by
  cases x with
  | press key => exact key_mem_of_mem_absorb h
  | clearHistory => exact key_mem_of_mem_absorb h
  | toggleTheme =>
    have hw : w = (themeKey, themeText !a.dark) := List.mem_singleton.1 h
    simp [hw, Step.component, Component.keys]
  | _ => cases h

theorem stored_step_self (a : App) (x : Step) :
    x.component.stored (a.step x).2 = (a.step x).2 :=
  List.filter_eq_self.2 fun _ hw => decide_eq_true (key_mem_of_mem_step hw)

theorem stored_step_of_ne (a : App) {x : Step} {k : Component} (h : x.component ≠ k) :
    k.stored (a.step x).2 = [] :=
  List.filter_eq_nil_iff.2 fun _ hw hk =>
    h (Component.eq_of_mem_keys (key_mem_of_mem_step hw) (of_decide_eq_true hk))

/-! ## A run -/

/-- The application after some steps. -/
def run (a : App) (xs : List Step) : App := xs.foldl (fun a x => (a.step x).1) a

/-- The texts that are to be stored in a run, in their order. -/
def writes (a : App) : List Step → List (Text × Text)
  | [] => []
  | x :: xs => (a.step x).2 ++ (a.step x).1.writes xs

theorem run_cons (a : App) (x : Step) (xs : List Step) :
    a.run (x :: xs) = (a.step x).1.run xs := rfl

/-- A run of all steps and a run of the steps for one part, from applications that agree on that
part, go on agreeing on it and store the same for it. -/
theorem run_own {a b : App} {k : Component} (h : a.part k = b.part k) (xs : List Step) :
    (a.run xs).part k = (b.run (k.own xs)).part k ∧
      k.stored (a.writes xs) = b.writes (k.own xs) := by
  induction xs generalizing a b with
  | nil => exact ⟨h, rfl⟩
  | cons x xs ih =>
    rw [run_cons, writes, Component.stored_append]
    by_cases hx : x.component = k
    · subst hx
      obtain ⟨hpart, hwrites⟩ := part_step_congr h
      obtain ⟨ihpart, ihwrites⟩ := ih hpart
      rw [Component.own_cons_of_eq rfl, run_cons, writes, stored_step_self, hwrites, ihwrites]
      exact ⟨ihpart, rfl⟩
    · have hpart : (a.step x).1.part k = b.part k := (a.part_step_of_ne hx).trans h
      rw [Component.own_cons_of_ne hx, stored_step_of_ne a hx, List.nil_append]
      exact ih hpart

/-- Steps for other parts leave a part as it is and store nothing for it. -/
theorem run_of_ne {a : App} {k : Component} {xs : List Step} (h : ∀ x ∈ xs, x.component ≠ k) :
    (a.run xs).part k = a.part k ∧ k.stored (a.writes xs) = [] := by
  have hown := run_own (a := a) (b := a) (k := k) rfl xs
  rwa [Component.own_eq_nil h] at hown

/-- Runs with the same steps for each part, however they are mixed, end in the same application. -/
theorem run_eq_of_own {xs ys : List Step} (h : ∀ k : Component, k.own xs = k.own ys) (a : App) :
    a.run xs = a.run ys := by
  apply eq_of_part
  intro k
  calc (a.run xs).part k = (a.run (k.own xs)).part k := (run_own rfl xs).1
    _ = (a.run (k.own ys)).part k := by rw [h k]
    _ = (a.run ys).part k := (run_own rfl ys).1.symm

end App

/-! ## Results -/

/-- Whether a step asks a form for a result. -/
def Step.isAction : Step → Bool
  | .mass .convert | .length .convert | .temperature .convert => true
  | .loan .compute | .percentage .compute | .time .compute => true
  | _ => false

theorem ConversionForm.convert_cases {U : Type} [Measure U] (f : ConversionForm U) :
    f.convert = f ∨ ∃ r, f.convert = { f with result := some r } := by
  cases h : f.outcome? with
  | none => exact .inl (convert_of_none h)
  | some r => exact .inr ⟨r, by simp only [convert, h]⟩

theorem LoanForm.compute_cases (f : LoanForm) :
    f.compute = f ∨ ∃ r, f.compute = { f with result := some r } := by
  cases h : f.outcome? with
  | none => exact .inl (compute_of_none h)
  | some r => exact .inr ⟨r, by simp only [compute, h]⟩

theorem PercentageForm.compute_cases (f : PercentageForm) :
    f.compute = f ∨ ∃ r, f.compute = { f with result := some r } := by
  cases h : f.outcome? with
  | none => exact .inl (compute_of_none h)
  | some r => exact .inr ⟨r, by simp only [compute, h]⟩

theorem TimeForm.compute_cases (f : TimeForm) :
    f.compute = f ∨ ∃ r, f.compute = { f with result := some r } := by
  cases h : f.outcome? with
  | none => exact .inl (compute_of_none h)
  | some r => exact .inr ⟨r, by simp only [compute, h]⟩

namespace App

/-- An application and the same one but for a result in one form. -/
inductive NewResult (a : App) : Component → App → Prop where
  | mass (r : Text × Text) :
    NewResult a .mass { a with mass := { a.mass with result := some r } }
  | length (r : Text × Text) :
    NewResult a .length { a with length := { a.length with result := some r } }
  | temperature (r : Text × Text) :
    NewResult a .temperature { a with temperature := { a.temperature with result := some r } }
  | loan (r : Loan) :
    NewResult a .loan { a with loan := { a.loan with result := some r } }
  | percentage (r : Text) :
    NewResult a .percentage { a with percentage := { a.percentage with result := some r } }
  | time (r : Text) :
    NewResult a .time { a with time := { a.time with result := some r } }

/-- Whether a part is a form that shows a result. -/
def showsResult (a : App) : Component → Bool
  | .calculator | .theme | .navigation => false
  | .mass => a.mass.result.isSome
  | .length => a.length.result.isSome
  | .temperature => a.temperature.result.isSome
  | .loan => a.loan.result.isSome
  | .percentage => a.percentage.result.isSome
  | .time => a.time.result.isSome

/-- Putting a form in its place that is the old one or the old one with a new result. -/
theorem eq_or_newResult {F R : Type} {f g : F} {renewed : R → F} {a : App} {k : Component}
    (put : F → App) (hg : g = f ∨ ∃ r, g = renewed r) (hold : put f = a)
    (hnew : ∀ r, a.NewResult k (put (renewed r))) : put g = a ∨ a.NewResult k (put g) := by
  obtain rfl | ⟨r, rfl⟩ := hg
  · exact .inl hold
  · exact .inr (hnew r)

variable [HistoryFormat]

/-- An action leaves everything as it is, or its form gets a new result. -/
theorem step_action (a : App) {x : Step} (h : x.isAction = true) :
    (a.step x).1 = a ∨ a.NewResult x.component (a.step x).1 := by
  cases x with
  | mass s =>
    cases s with
    | convert =>
      exact eq_or_newResult ({ a with mass := · }) a.mass.convert_cases rfl .mass
    | _ => cases h
  | length s =>
    cases s with
    | convert =>
      exact eq_or_newResult ({ a with length := · }) a.length.convert_cases rfl .length
    | _ => cases h
  | temperature s =>
    cases s with
    | convert =>
      exact eq_or_newResult ({ a with temperature := · }) a.temperature.convert_cases rfl
        .temperature
    | _ => cases h
  | loan s =>
    cases s with
    | compute => exact eq_or_newResult ({ a with loan := · }) a.loan.compute_cases rfl .loan
    | _ => cases h
  | percentage s =>
    cases s with
    | compute =>
      exact eq_or_newResult ({ a with percentage := · }) a.percentage.compute_cases rfl .percentage
    | _ => cases h
  | time s =>
    cases s with
    | compute => exact eq_or_newResult ({ a with time := · }) a.time.compute_cases rfl .time
    | _ => cases h
  | _ => cases h

omit [HistoryFormat] in
theorem NewResult.showsResult {a b : App} {j k : Component} (hb : a.NewResult j b)
    (h : a.showsResult k = true) : b.showsResult k = true := by
  cases hb <;> cases k <;> first | exact h | rfl

/-- What is no action leaves all results as they are. -/
theorem showsResult_step_of_not_isAction (a : App) {x : Step} (hx : x.isAction = false)
    (k : Component) : (a.step x).1.showsResult k = a.showsResult k := by
  cases x with
  | mass s | length s | temperature s =>
    cases s with
    | convert => cases hx
    | _ => cases k <;> rfl
  | loan s | percentage s | time s =>
    cases s with
    | compute => cases hx
    | _ => cases k <;> rfl
  | _ => cases k <;> rfl

theorem showsResult_step {a : App} {k : Component} (h : a.showsResult k = true) (x : Step) :
    (a.step x).1.showsResult k = true := by
  cases hx : x.isAction with
  | false => rw [showsResult_step_of_not_isAction a hx, h]
  | true =>
    obtain ha | ha := a.step_action hx
    · rw [ha, h]
    · exact ha.showsResult h

theorem showsResult_run {a : App} {k : Component} (h : a.showsResult k = true) (xs : List Step) :
    (a.run xs).showsResult k = true := by
  induction xs generalizing a with
  | nil => exact h
  | cons x xs ih => exact ih (showsResult_step h x)

theorem writes_step_of_isAction (a : App) {x : Step} (h : x.isAction = true) :
    (a.step x).2 = [] := by
  cases x with
  | press | clearHistory | toggleTheme => cases h
  | _ => rfl

end App

/-! ## Sessions -/

namespace Session

variable [HistoryFormat] {σ : Type} [Store σ]

theorem app_run (t : Session σ) (xs : List Step) : (t.run xs).app = t.app.run xs := by
  induction xs generalizing t with
  | nil => rfl
  | cons x xs ih => exact ih (t.step x)

omit [HistoryFormat] in
theorem writes_writeAll (s : RecordingStore σ) (writes : List (Text × Text)) :
    (writeAll s writes).writes = s.writes ++ writes := by
  induction writes generalizing s with
  | nil => exact (List.append_nil _).symm
  | cons w writes ih =>
    show (writeAll (Store.write s w.1 w.2).2 writes).writes = _
    rw [ih]
    exact List.append_assoc s.writes [w] writes

theorem store_run (t : Session σ) (xs : List Step) :
    (t.run xs).store = writeAll t.store (t.app.writes xs) := by
  induction xs generalizing t with
  | nil => rfl
  | cons x xs ih =>
    calc ((t.step x).run xs).store
      _ = writeAll (writeAll t.store (t.app.step x).2) ((t.step x).app.writes xs) := ih (t.step x)
      _ = writeAll t.store (t.app.writes (x :: xs)) := List.foldl_append.symm

/-- What a store is asked to keep in a run, granted or not. -/
theorem writes_run (t : Session (RecordingStore σ)) (xs : List Step) :
    (t.run xs).store.writes = t.store.writes ++ t.app.writes xs := by
  rw [store_run, writes_writeAll]

/-- In every run on any store each part ends as it does in the run of its own steps alone, and what
is stored under its keys is what that run stores. So runs that have the same steps for each part,
however these are mixed, end in the same application and store the same under each part's keys. An
action of a form stores nothing and changes nothing but the result of its form, which is a new one
then; and a result that a form shows never goes away. -/
theorem parts_run (s : σ) :
    (∀ (k : Component) xs,
      ((start s).run xs).app.part k = ((start s).run (k.own xs)).app.part k) ∧
    (∀ (k : Component) xs, let r := start (RecordingStore.fresh s)
      k.stored (r.run xs).store.writes = (r.run (k.own xs)).store.writes) ∧
    (∀ xs ys, (∀ k : Component, k.own xs = k.own ys) →
      ((start s).run xs).app = ((start s).run ys).app ∧
      let r := start (RecordingStore.fresh s)
      ∀ k : Component, k.stored (r.run xs).store.writes = k.stored (r.run ys).store.writes) ∧
    (∀ (a : App) x, x.isAction = true →
      (a.step x).2 = [] ∧ ((a.step x).1 = a ∨ a.NewResult x.component (a.step x).1)) ∧
    ∀ (k : Component) xs ys, ((start s).run xs).app.showsResult k = true →
      ((start s).run (xs ++ ys)).app.showsResult k = true := by
  let r := start (RecordingStore.fresh s)
  have hwrites : ∀ xs, (r.run xs).store.writes = r.app.writes xs := fun xs => writes_run r xs
  have hown : ∀ (k : Component) xs, k.stored (r.run xs).store.writes =
      (r.run (k.own xs)).store.writes := by
    intro k xs
    rw [hwrites, hwrites]
    exact (App.run_own rfl xs).2
  refine ⟨fun k xs => ?_, hown, fun xs ys h => ⟨?_, fun k => ?_⟩,
    fun a x hx => ⟨a.writes_step_of_isAction hx, a.step_action hx⟩, fun k xs ys h => ?_⟩
  · rw [app_run, app_run]
    exact (App.run_own rfl xs).1
  · rw [app_run, app_run]
    exact App.run_eq_of_own h _
  · rw [hown, hown, h]
  · rw [run_append, app_run]
    exact App.showsResult_run h ys

end Session

end PocketCalc
