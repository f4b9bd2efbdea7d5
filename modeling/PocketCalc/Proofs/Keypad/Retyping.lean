import Mathlib.Data.List.Induction
import PocketCalc.History.Json
import PocketCalc.Proofs.Keypad.Replacing
import PocketCalc.Storage.Memory

/-!
# The expression as a record of its keys

A key that writes either changes nothing at all or leaves its characters in the expression, and an
operator takes the place of one that is pending as if that had never been typed. So behind the clear
key the expression has all that matters of the keys: typed again, character by character, it gives
the same calculator.

* `Calculator.next_of_writes`: all that a key that writes can do.
* `Calculator.Recorded.next`: what each of these keys preserves.
* `Device.retyped_run`: an expression that is typed again.
-/

namespace PocketCalc

namespace Key

/-- Whether a key writes into the expression. -/
def writes : Key → Bool
  | .digit _ | .point | .percent | .operator _ => true
  | .sign | .equals | .clear => false

theorem ne_equals_of_writes {k : Key} (h : k.writes = true) : k ≠ .equals := by
  rintro rfl
  simp [writes] at h

/-- The keys that the characters of a text stand for. -/
def ofText (t : Text) : List Key := t.filterMap ofChar?

theorem ofText_append_char (t : Text) {x : Char} {k : Key} (h : ofChar? x = some k) :
    ofText (t ++ [x]) = ofText t ++ [k] := by
  simp [ofText, h]

/-- Blanks are no keys. -/
theorem ofText_append_spaced (t : Text) (o : Operator) :
    ofText (t ++ Calculator.spaced o) = ofText t ++ [.operator o] := by
  have hblank : ofChar? ' ' = none := by decide
  simp [ofText, Calculator.spaced, Operator.symbol, hblank, ofChar?_operator]

end Key

namespace Calculator

/-! ## What a key that writes can do -/

/-- While no result is shown, a key that writes changes nothing, puts its character behind the
expression, or is an operator. -/
theorem next_of_writes {c : Calculator} (hj : c.justComputed = false) {k : Key}
    (hk : k.writes = true) :
    c.next (.key k) = c ∨
    (∃ x, IsOperandEnd x ∧ Key.ofChar? x = some k ∧
      (c.next (.key k)).expression = c.expression ++ [x] ∧
      (c.next (.key k)).justComputed = false) ∨
    ∃ o, k = .operator o := by
  cases k with
  | digit d =>
    by_cases hd : d.isDigit = true
    · have hn : (c.next (.key (.digit d))).expression = c.expression ++ [d] ∧
          (c.next (.key (.digit d))).justComputed = false := by
        simp [next_digit c hd, typeDigit, hj]
      exact .inr (.inl ⟨d, .inl hd, Key.ofChar?_digit hd, hn⟩)
    · exact .inl (next_digit_of_not c hd)
  | point =>
    rw [next_point, typePoint]
    split
    · exact .inl rfl
    · exact .inr (.inl ⟨'.', .inr (.inl rfl), rfl, rfl, hj⟩)
  | percent =>
    rw [next_percent, takePercent]
    split
    · exact .inl rfl
    · exact .inr (.inl ⟨'%', .inr (.inr rfl), rfl, rfl, hj⟩)
  | operator o => exact .inr (.inr ⟨o, rfl⟩)
  | sign | equals | clear => simp [Key.writes] at hk

/-! ## Typing again -/

/-- A calculator that was just switched on becomes this one when the expression is typed. -/
structure Recorded (history : History) (c : Calculator) : Prop where
  coherent : c.Coherent
  unfinished : c.justComputed = false
  writes : ∀ k ∈ Key.ofText c.expression, k.writes = true
  retyped : (Calculator.start history).run ((Key.ofText c.expression).map .key) = c

namespace Recorded

variable {history : History} {c : Calculator}

theorem start (history : History) : (Calculator.start history).Recorded history where
  coherent := .start history
  unfinished := rfl
  writes := by simp [Calculator.start, Key.ofText]
  retyped := rfl

theorem append_char (h : c.Recorded history) {k : Key} (hk : k.writes = true) {x : Char}
    (hx : Key.ofChar? x = some k) (he : (c.next (.key k)).expression = c.expression ++ [x])
    (hj : (c.next (.key k)).justComputed = false) : (c.next (.key k)).Recorded history where
  coherent := h.coherent.next _
  unfinished := hj
  writes := by
    rw [he, Key.ofText_append_char _ hx, List.forall_mem_append]
    exact ⟨h.writes, by simpa using hk⟩
  retyped := by
    rw [he, Key.ofText_append_char _ hx, List.map_append, run_append, h.retyped]
    rfl

/-- The operand may be typed again in the place of the expression: the keys of a pending operator
leave no trace behind the next one. -/
theorem retyped_operand (h : c.Recorded history) (o : Operator) :
    (∀ k ∈ Key.ofText c.operand, k.writes = true) ∧
    ((Calculator.start history).run ((Key.ofText c.operand).map .key)).typeOperator o =
      c.typeOperator o := by
  by_cases hp : c.phase = .operatorPending
  · obtain ⟨p, o', he, hop⟩ := h.coherent.pending hp
    have hw := h.writes
    have hr := h.retyped
    rw [he, Key.ofText_append_spaced] at hw hr
    rw [List.map_append, run_append] at hr
    rw [operand_of_pending h.unfinished hp he hop]
    refine ⟨fun k hk => hw k (List.mem_append_left _ hk), ?_⟩
    have hcoherent : ((Calculator.start history).run ((Key.ofText p).map .key)).Coherent :=
      run_induction (fun _ i hc => hc.next i) (.start history) _
    exact (hcoherent.typeOperator_typeOperator o' o).symm.trans (congrArg (typeOperator · o) hr)
  · rw [operand_of_not_pending h.unfinished hp, h.retyped]
    exact ⟨h.writes, rfl⟩

theorem typeOperator (h : c.Recorded history) (o : Operator) :
    (c.typeOperator o).Recorded history := by
  obtain ⟨hw, hr⟩ := h.retyped_operand o
  have hkeys : Key.ofText (c.typeOperator o).expression = Key.ofText c.operand ++ [.operator o] := by
    rw [typeOperator_eq, Key.ofText_append_spaced]
  refine ⟨h.coherent.typeOperator o, rfl, ?_, ?_⟩
  · rw [hkeys, List.forall_mem_append]
    exact ⟨hw, by simp [Key.writes]⟩
  · rw [hkeys, List.map_append, run_append]
    exact hr

/-- Every key that writes keeps the expression a record of the keys. -/
theorem next (h : c.Recorded history) {k : Key} (hk : k.writes = true) :
    (c.next (.key k)).Recorded history := by
  rcases next_of_writes h.unfinished hk with hsame | ⟨x, -, hx, he, hj⟩ | ⟨o, rfl⟩
  · rwa [hsame]
  · exact h.append_char hk hx he hj
  · exact h.typeOperator o

end Recorded

theorem recorded_run (history : History) {ks : List Key} (hk : ∀ k ∈ ks, k.writes = true) :
    ((Calculator.start history).run (ks.map .key)).Recorded history := by
  induction ks using List.reverseRecOn with
  | nil => exact .start history
  | append_singleton ks k ih =>
    rw [List.forall_mem_append] at hk
    rw [List.map_append, run_append]
    exact (ih hk.1).next (hk.2 k (by simp))

end Calculator

/-! ## Runs -/

namespace Device

/-- Behind the clear key and any digits, points, percent keys and operators, the clear key and the
characters of the expression, as far as they stand for keys, give the same device again. -/
theorem retyped_run [HistoryFormat] {σ : Type} [Store σ] (d : Device σ) (ks : List Key)
    (hk : ∀ k ∈ ks, k.writes = true) :
    let e := d.run (.key .clear :: ks.map .key)
    e.run (.key .clear :: (e.calculator.expression.filterMap Key.ofChar?).map .key) = e := by
  intro e
  have hclear : ∀ {js : List Key}, (∀ k ∈ js, k.writes = true) → ∀ k ∈ .clear :: js, k ≠ .equals :=
    fun hjs => List.forall_mem_cons.2 ⟨by simp, fun k hk => Key.ne_equals_of_writes (hjs k hk)⟩
  have he : e.calculator = (Calculator.start d.calculator.history).run (ks.map .key) :=
    calculator_run d _
  have hhistory : e.calculator.history = d.calculator.history := (d.run_of_ne_equals (hclear hk)).2
  have hrecorded : e.calculator.Recorded d.calculator.history :=
    he ▸ Calculator.recorded_run d.calculator.history hk
  have hstore := (e.run_of_ne_equals (hclear hrecorded.writes)).1
  have hcalculator : (e.run (.key .clear ::
      (Key.ofText e.calculator.expression).map .key)).calculator = e.calculator := by
    rw [calculator_run, Calculator.run_cons, Calculator.next_clear, Calculator.clear, hhistory]
    exact hrecorded.retyped
  exact congrArg₂ Device.mk hcalculator hstore

/-- A second point and all but the last of three operators left no mark. -/
theorem retyped_run_of_repeated :
    let d : Device MemoryStore := (start MemoryStore.empty).run [.key (.digit '8'), .key .equals]
    let ks : List Key := [.digit '0', .digit '7', .point, .point, .percent, .operator .minus,
      .operator .over, .operator .times, .percent, .digit '5']
    let e := d.run (.key .clear :: ks.map .key)
    (∀ k ∈ ks, k.writes = true) ∧ e.calculator.expression = "07.% × %5".toList ∧
    e.calculator.display = ['5'] ∧
    e.run (.key .clear :: (e.calculator.expression.filterMap Key.ofChar?).map .key) = e := by
  intro d ks e
  have hk : ∀ k ∈ ks, k.writes = true := by decide
  have he : e.calculator.expression = "07.% × %5".toList := by decide +kernel
  have hd : e.calculator.display = ['5'] := by decide +kernel
  exact ⟨hk, he, hd, retyped_run d ks hk⟩

end Device

end PocketCalc
