import PocketCalc.Proofs.App.Component
import PocketCalc.Proofs.App.Restart

/-!
# What the store is asked

The application reads its two texts when it starts and never again. It asks for a text to be stored
after an equals key that finds a value, when the history is cleared and when the theme changes, each
time the text as it is then, whatever became of the texts before it. So a store that takes every
text holds for the history what it held at first, or the history as it is.

* `App.writes_step`: what one step asks to be stored.
* `Session.moves_recorded`: all that is asked in a run, with the starts in it.
* `Session.Kept.step`: what a store that takes every text holds for the history.
* `Session.traffic_moves`: both, for every run.
-/

namespace PocketCalc

namespace App

variable [HistoryFormat]

/-- The text that a step asks to be stored under its key, if it asks for one. -/
def request? (a : App) : Step → Option (Text × Text)
  | .press .equals =>
    if Calculator.isValue (Expression.evaluate a.calculator.expression) then
      some (historyKey, (a.step (.press .equals)).1.calculator.history.toJson)
    else none
  | .clearHistory => some (historyKey, "[]".toList)
  | .toggleTheme =>
    some (themeKey, if (a.step .toggleTheme).1.dark then "dark".toList else "light".toList)
  | _ => none

theorem request?_press_of_not_saves {a : App} {k : Key} (h : (a.calculator.press k).saves = false) :
    a.request? (.press k) = none := by
  cases k with
  | equals =>
    have hv : Calculator.isValue (Expression.evaluate a.calculator.expression) = false := h
    simp [request?, hv]
  | _ => rfl

theorem writes_step [HistoryFormat.IsJson] (a : App) (x : Step) :
    (a.step x).2 = (a.request? x).toList := by
  cases x with
  | press k =>
    cases hs : (a.calculator.press k).saves with
    | false =>
      rw [request?_press_of_not_saves hs]
      simp [step, absorb, hs]
    | true =>
      obtain ⟨rfl, hv⟩ := (Calculator.saves_press _ _).1 hs
      simp [step, absorb, request?, hs, hv]
  | clearHistory => exact congrArg (fun t => [(historyKey, t)]) HistoryFormat.write_nil
  | toggleTheme => rfl
  | _ => rfl

end App

/-- The keys that a move reads. -/
def Move.reads : Move → List Text
  | .step _ => []
  | .relaunch => programKeys

namespace Session

section

variable [HistoryFormat] {σ : Type} [Store σ]

/-! ## A record of a run -/

/-- A session whose store has a record of what it was asked. -/
def recorded (t : Session σ) (reads : List Text) (writes : List (Text × Text)) :
    Session (RecordingStore σ) :=
  ⟨t.app, ⟨t.store, reads, writes⟩⟩

theorem start_recorded (s : σ) (reads : List Text) (writes : List (Text × Text)) :
    start (⟨s, reads, writes⟩ : RecordingStore σ) =
      (start s).recorded (reads ++ programKeys) writes := by
  have hreads : reads ++ [historyKey] ++ [themeKey] = reads ++ programKeys :=
    List.append_assoc reads [historyKey] [themeKey]
  rw [← hreads]
  rfl

omit [HistoryFormat] in
theorem writeAll_recorded (s : σ) (reads : List Text) (writes more : List (Text × Text)) :
    writeAll (⟨s, reads, writes⟩ : RecordingStore σ) more =
      ⟨writeAll s more, reads, writes ++ more⟩ := by
  induction more generalizing s writes with
  | nil => rw [List.append_nil]; rfl
  | cons w more ih =>
    have hwrites : writes ++ w :: more = writes ++ [w] ++ more := by simp
    rw [hwrites]
    exact ih (Store.write s w.1 w.2).2 (writes ++ [w])

theorem step_recorded [HistoryFormat.IsJson] (t : Session σ) (reads : List Text)
    (writes : List (Text × Text)) (x : Step) :
    (t.recorded reads writes).step x =
      (t.step x).recorded reads (writes ++ (t.app.request? x).toList) := by
  rw [← App.writes_step]
  exact congrArg (Session.mk (t.app.step x).1) (writeAll_recorded t.store reads writes _)

/-- The steps among some moves, each with the application that it found. -/
def trace (t : Session σ) : List Move → List (App × Step)
  | [] => []
  | .step x :: ms => (t.app, x) :: (t.step x).trace ms
  | .relaunch :: ms => t.restart.trace ms

theorem moves_recorded [HistoryFormat.IsJson] (t : Session σ) (reads : List Text)
    (writes : List (Text × Text)) (ms : List Move) : (t.recorded reads writes).moves ms =
      (t.moves ms).recorded (reads ++ ms.flatMap Move.reads)
        (writes ++ (t.trace ms).filterMap fun y => y.1.request? y.2) := by
  induction ms generalizing t reads writes with
  | nil => simp [moves, trace]
  | cons m ms ih =>
    cases m with
    | step x =>
      have hstep : (t.recorded reads writes).moves (.step x :: ms) =
          ((t.recorded reads writes).step x).moves ms := rfl
      rw [hstep, step_recorded, ih, List.append_assoc]
      congr 1
      rw [trace, List.filterMap_cons]
      cases t.app.request? x <;> rfl
    | relaunch =>
      have hstart : (t.recorded reads writes).moves (.relaunch :: ms) =
          (start (⟨t.store, reads, writes⟩ : RecordingStore σ)).moves ms := rfl
      rw [hstart, start_recorded, ih, List.append_assoc]
      rfl

end

end Session

/-! ## What the store holds -/

/-- Stores of a kind that take every text and hold what they took last under its key, whether or not
they can be read. -/
structure Store.Holds {σ : Type} [Store σ] (works : σ → Prop) (held : σ → Text → Option Text) :
    Prop where
  /-- No write is refused. -/
  write_ok {s : σ} {k : Text} (hs : works s) (hk : k ∈ programKeys) (v : Text) :
    (Store.write s k v).1 = .ok ()
  /-- A store still works after a write. -/
  write_works {s : σ} {k : Text} (hs : works s) (hk : k ∈ programKeys) (v : Text) :
    works (Store.write s k v).2
  /-- A store still works after a read. -/
  read_works {s : σ} {k : Text} (hs : works s) (hk : k ∈ programKeys) : works (Store.read s k).2
  /-- A text that is taken is held, and the other texts stay. -/
  held_write {s : σ} {k q v : Text} (hs : works s) (hk : k ∈ programKeys) (hq : q ∈ programKeys)
    (hv : (Store.write s k v).1 = .ok ()) :
    held (Store.write s k v).2 q = if q = k then some v else held s q
  /-- A read leaves the texts as they are. -/
  held_read {s : σ} {k q : Text} (hs : works s) (hk : k ∈ programKeys) (hq : q ∈ programKeys) :
    held (Store.read s k).2 q = held s q

/-- A store in memory of which no write fails, whatever its reads do. -/
theorem FaultyStore.holds : Store.Holds (fun s : FaultyStore => s.writeFault = none)
    fun s => s.memory.find? where
  write_ok {s k} hs hk v := by
    show (Store.write s k v).1 = _
    simp [Store.write, hs]
  write_works {s k} hs hk v := by simp [Store.write, hs]
  read_works {s k} hs hk := by
    simp only [Store.read]
    split <;> exact hs
  held_write {s k q v} hs hk hq hv := by
    simp [Store.write, hs, MemoryStore.find?, MemoryStore.put, Table.find?_put]
  held_read {s k q} hs hk hq := by
    simp only [Store.read]
    split <;> rfl

namespace Session

section

variable [HistoryFormat] {σ : Type} [Store σ] {works : σ → Prop} {held : σ → Text → Option Text}

/-- The store works, and it holds for the history what it held at first or the history of the
application. -/
structure Kept (works : σ → Prop) (held : σ → Text → Option Text) (first : Option Text)
    (t : Session σ) : Prop where
  works : works t.store
  text : held t.store historyKey = first ∨
    held t.store historyKey = some t.app.calculator.history.toJson

variable (hh : Store.Holds works held)
include hh

theorem held_start {s : σ} (hs : works s) :
    held (start s).store historyKey = held s historyKey := by
  show held (Store.read (Store.read s historyKey).2 themeKey).2 historyKey = _
  rw [hh.held_read (hh.read_works hs historyKey_mem) themeKey_mem historyKey_mem,
    hh.held_read hs historyKey_mem historyKey_mem]

theorem works_start {s : σ} (hs : works s) : works (start s).store :=
  hh.read_works (hh.read_works hs historyKey_mem) themeKey_mem

theorem Kept.step {first : Option Text} {t : Session σ} (h : t.Kept works held first) (x : Step) :
    (t.step x).Kept works held first := by
  obtain ⟨hs, hhist, -⟩ | ⟨hs, -⟩ | ⟨hs, hhist⟩ := t.step_cases x
  · exact ⟨hs ▸ h.works, by rw [hs, hhist]; exact h.text⟩
  · refine ⟨hs ▸ hh.write_works h.works historyKey_mem _, .inr ?_⟩
    rw [hs, hh.held_write h.works historyKey_mem historyKey_mem
      (hh.write_ok h.works historyKey_mem _), if_pos rfl]
  · refine ⟨hs ▸ hh.write_works h.works themeKey_mem _, ?_⟩
    rw [hs, hh.held_write h.works themeKey_mem historyKey_mem (hh.write_ok h.works themeKey_mem _),
      if_neg themeKey_ne_historyKey.symm, hhist]
    exact h.text

/-- A start that can read what the store holds finds the history that was stored. -/
theorem Kept.restart [HistoryFormat.ReadsBack] {first : Option Text} {t : Session σ}
    (h : t.Kept works held first)
    (hread : (Store.read t.store historyKey).1 = .ok (held t.store historyKey)) :
    t.restart.Kept works held first := by
  refine ⟨works_start hh h.works, ?_⟩
  have hheld : held t.restart.store historyKey = held t.store historyKey := held_start hh h.works
  have hhistory : t.restart.app.calculator.history =
      History.ofAnswer (.ok (held t.store historyKey)) := congrArg History.ofAnswer hread
  rw [hheld, hhistory]
  obtain hfirst | htext := h.text
  · exact .inl hfirst
  · right
    rw [htext]
    exact congrArg (fun g : History => some g.toJson) (History.ofJson_toJson _).symm

theorem Kept.moves [HistoryFormat.ReadsBack] {first : Option Text} {t : Session σ}
    (h : t.Kept works held first) {ms : List Move} (hread : .relaunch ∉ ms ∨
      ∀ s, works s → (Store.read s historyKey).1 = .ok (held s historyKey)) :
    (t.moves ms).Kept works held first := by
  induction ms generalizing t with
  | nil => exact h
  | cons m ms ih =>
    have hmore := hread.imp_left fun hm hmem => hm (List.mem_cons_of_mem m hmem)
    cases m with
    | step x => exact ih (h.step hh x) hmore
    | relaunch =>
      obtain hm | hr := hread
      · exact absurd List.mem_cons_self hm
      · exact ih (h.restart hh (hr _ h.works)) hmore

end

/-- On every store, whatever it answers, the texts that a run asks to be stored are, in order: for
each equals key that finds a value the history just after it, for each clearing of the history an
empty list, for each change of the theme the new one; and nothing else. Each start reads the two
keys, and nothing else reads. So on a store that takes every text, what it holds for the history is
what it held at first or the history as it is; with starts in between, if they can read it. -/
theorem traffic_moves [HistoryFormat] [HistoryFormat.IsJson] {σ : Type} [Store σ] (s : σ)
    (ms : List Move) :
    let r := (start (RecordingStore.fresh s)).moves ms
    let t := (start s).moves ms
    r.app = t.app ∧ r.store.store = t.store ∧
    r.store.writes = ((start s).trace ms).filterMap (fun y => y.1.request? y.2) ∧
    r.store.reads = [historyKey, themeKey] ++ ms.flatMap Move.reads ∧
    ∀ (works : σ → Prop) (held : σ → Text → Option Text), Store.Holds works held → works s →
      (.relaunch ∉ ms ∨ ∀ s, works s → (Store.read s historyKey).1 = .ok (held s historyKey)) →
      held t.store historyKey = held s historyKey ∨
        held t.store historyKey = some t.app.calculator.history.toJson := by
  intro r t
  have hr : r = t.recorded ([historyKey, themeKey] ++ ms.flatMap Move.reads)
      (((start s).trace ms).filterMap fun y => y.1.request? y.2) := by
    have hstart := start_recorded s [] []
    calc r = ((start s).recorded programKeys []).moves ms := congrArg (moves · ms) hstart
      _ = _ := moves_recorded (start s) programKeys [] ms
  refine ⟨congrArg Session.app hr, congrArg (fun x => x.store.store) hr,
    congrArg (fun x => x.store.writes) hr, congrArg (fun x => x.store.reads) hr, ?_⟩
  intro works held hh hs hread
  have hstart : (start s).Kept works held (held s historyKey) :=
    ⟨works_start hh hs, .inl (held_start hh hs)⟩
  exact (hstart.moves hh hread).text

/-- A store that refuses all reads, with a text for the history that is no history. -/
theorem traffic_moves_of_unreadable :
    let s : FaultyStore := ⟨⟨⟨[(historyKey, "[".toList)]⟩⟩, some (.refused []), none⟩
    let ms := [.step (.press (.digit '7')), .step (.press .equals), .step (.press .point),
      .step (.press .equals), .step .toggleTheme, .step (.press (.operator .over)),
      .step (.press .equals)]
    let r := (start (RecordingStore.fresh s)).moves ms
    let t := (start s).moves ms
    Store.Holds (fun s : FaultyStore => s.writeFault = none) (fun s => s.memory.find?) ∧
    s.writeFault = none ∧ .relaunch ∉ ms ∧
    r.store.reads = [historyKey, themeKey] ∧
    r.store.writes = [(historyKey, "[\x7b\"expression\":\"7\",\"result\":\"7\"\x7d]".toList),
      (historyKey, ("[\x7b\"expression\":\"7.\",\"result\":\"7\"\x7d," ++
        "\x7b\"expression\":\"7\",\"result\":\"7\"\x7d]").toList), (themeKey, "dark".toList)] ∧
    (t.store.memory.find? historyKey = s.memory.find? historyKey ∨
      t.store.memory.find? historyKey = some t.app.calculator.history.toJson) := by
  intro s ms r t
  have hms : .relaunch ∉ ms := by simp [ms]
  have hreads : r.store.reads = [historyKey, themeKey] := (traffic_moves s ms).2.2.2.1
  have hwrites : r.store.writes =
      [(historyKey, "[\x7b\"expression\":\"7\",\"result\":\"7\"\x7d]".toList),
        (historyKey, ("[\x7b\"expression\":\"7.\",\"result\":\"7\"\x7d," ++
          "\x7b\"expression\":\"7\",\"result\":\"7\"\x7d]").toList),
        (themeKey, "dark".toList)] := by decide +kernel
  have hheld := (traffic_moves s ms).2.2.2.2 (fun s : FaultyStore => s.writeFault = none)
    (fun s => s.memory.find?) FaultyStore.holds rfl (.inl hms)
  exact ⟨FaultyStore.holds, rfl, hms, hreads, hwrites, hheld⟩

end Session

end PocketCalc
