import PocketCalc.Proofs.Keypad.Points

/-!
# What is typed and what is shown

The display and the last word of the expression are written by different rules: a digit takes the
place of a lone zero on the display, and goes behind it in the expression. Without sign and percent
keys the display is the last word all the same, but for zeros in front, and both stand for the
same number.

* `Numeral.read?_shown`: leading zeros do not change the number.
* `Calculator.Echoes.next`: what each key but those two preserves.
* `Device.echo_run`: what is on the display while a numeral is typed.
-/

namespace PocketCalc

/-! ## Leading zeros -/

namespace Text

/-- A row of digits without the zeros in front, but with one digit at least. -/
def stripped : Text → Text
  | [] => ['0']
  | c :: cs => if c = '0' then stripped cs else c :: cs

/-- A typed word as the display shows it: its whole part loses the zeros in front. -/
def shown (w : Text) : Text := stripped (w.takeWhile (· != '.')) ++ w.dropWhile (· != '.')

theorem stripped_ne_nil (ds : Text) : stripped ds ≠ [] := by
  induction ds with
  | nil => simp [stripped]
  | cons c ds ih =>
    unfold stripped
    split
    · exact ih
    · simp

theorem mem_stripped {ds : Text} {c : Char} (hc : c ∈ stripped ds) : c ∈ ds ∨ c = '0' := by
  induction ds with
  | nil => exact .inr (List.mem_singleton.1 hc)
  | cons d ds ih =>
    unfold stripped at hc
    split at hc
    · exact (ih hc).imp_left (List.mem_cons_of_mem _)
    · exact .inl hc

theorem isDigit_of_mem_stripped {ds : Text} (h : ∀ c ∈ ds, c.isDigit = true) :
    ∀ c ∈ stripped ds, c.isDigit = true := by
  intro c hc
  rcases mem_stripped hc with hc | rfl
  · exact h c hc
  · rfl

/-- A digit takes the place of a lone zero and goes behind anything else. -/
theorem stripped_append_singleton (ds : Text) (d : Char) :
    stripped (ds ++ [d]) = if stripped ds = ['0'] then [d] else stripped ds ++ [d] := by
  induction ds with
  | nil => by_cases hd : d = '0' <;> simp [stripped, hd]
  | cons c ds ih => by_cases hc : c = '0' <;> simp [stripped, hc, ih]

theorem ofDigits_stripped (ds : Text) : Decimal.ofDigits (stripped ds) = Decimal.ofDigits ds := by
  induction ds with
  | nil => rfl
  | cons c ds ih =>
    unfold stripped
    split
    · rename_i hc
      subst hc
      exact ih
    · rfl

theorem ofDigits_stripped_append (ds fs : Text) :
    Decimal.ofDigits (stripped ds ++ fs) = Decimal.ofDigits (ds ++ fs) := by
  have h := ofDigits_stripped ds
  unfold Decimal.ofDigits at h ⊢
  rw [Nat.ofDigitChars_append, h, Nat.ofDigitChars_append]

theorem shown_ne_nil (w : Text) : shown w ≠ [] :=
  List.append_ne_nil_of_left_ne_nil (stripped_ne_nil _) _

theorem shown_of_not_mem {w : Text} (h : '.' ∉ w) : shown w = stripped w := by
  have hw : ∀ c ∈ w, (c != '.') = true := fun c hc => bne_iff_ne.2 fun he => h (he ▸ hc)
  rw [shown, List.takeWhile_eq_self_iff.2 hw, List.dropWhile_eq_nil_iff.2 hw, List.append_nil]

theorem shown_append_point {ds : Text} (h : '.' ∉ ds) (fs : Text) :
    shown (ds ++ '.' :: fs) = stripped ds ++ '.' :: fs := by
  have hds : ∀ c ∈ ds, (c != '.') = true := fun c hc => bne_iff_ne.2 fun he => h (he ▸ hc)
  rw [shown, List.takeWhile_append_of_pos hds, List.dropWhile_append_of_pos hds]
  simp

theorem point_mem_shown_iff (w : Text) : '.' ∈ shown w ↔ '.' ∈ w := by
  by_cases h : '.' ∈ w
  · obtain ⟨ds, fs, rfl, hds⟩ := List.eq_append_cons_of_mem h
    simp [shown_append_point hds]
  · rw [shown_of_not_mem h]
    exact iff_of_false (fun hm => (mem_stripped hm).elim h (by decide)) h

/-- A digit behind a word does to its shown text what the display does. -/
theorem shown_append_digit {w : Text} {d : Char} (hd : d ≠ '.') :
    shown (w ++ [d]) = if shown w = ['0'] then [d] else shown w ++ [d] := by
  by_cases h : '.' ∈ w
  · have hne : shown w ≠ ['0'] := fun he => by
      have := (point_mem_shown_iff w).2 h
      simp [he] at this
    obtain ⟨ds, fs, rfl, hds⟩ := List.eq_append_cons_of_mem h
    rw [if_neg hne, List.append_assoc, List.cons_append, shown_append_point hds,
      shown_append_point hds, List.append_assoc, List.cons_append]
  · rw [shown_of_not_mem h, shown_of_not_mem (by simp [h, hd.symm]), stripped_append_singleton]

end Text

/-! ## Reading -/

namespace Numeral

/-- The characters of a typed word. -/
def IsTyped (w : Text) : Prop := ∀ c ∈ w, c.isDigit = true ∨ c = '.'

/-- A typed word has no sign, no commas and no exponent. -/
theorem read?_of_isTyped {w : Text} (hw : IsTyped w) (hne : w ≠ []) :
    read? w = ((Decimal.unsigned? w).map Decimal.toFloat).filter Float.isFinite := by
  have hcomma : w.filter (· != ',') = w := List.filter_eq_self.2 fun c hc => by
    rcases hw c hc with h | rfl
    · exact bne_iff_ne.2 (Text.ne_of_isDigit h rfl)
    · rfl
  obtain ⟨c, rest, rfl⟩ := List.exists_cons_of_ne_nil hne
  have hparts : ∀ x ∈ c :: rest, isPart x = true := fun x hx => by
    rcases hw x hx with h | rfl
    · simp [isPart, h]
    · rfl
  have hminus : c ≠ '-' ∧ c ≠ '+' := by
    rcases hw c (by simp) with h | rfl
    · exact ⟨Text.ne_of_isDigit h rfl, Text.ne_of_isDigit h rfl⟩
    · decide
  have hshape : hasShape (c :: rest) = true := by
    have hbody : body (c :: rest) = c :: rest := by simp [body, hminus.1]
    rw [hasShape, hbody]
    simp only [Bool.and_eq_true, List.all_eq_true, Bool.or_eq_true, beq_iff_eq]
    exact ⟨hw c (by simp), hparts⟩
  have hfloat : Decimal.float? (c :: rest) =
      (Decimal.unsigned? (c :: rest)).map Decimal.toFloat := by
    simp [Decimal.float?, hminus.1, hminus.2]
  rw [read?, if_pos hshape, hcomma, hfloat]

theorem IsTyped.shown {w : Text} (hw : IsTyped w) : IsTyped (Text.shown w) := by
  intro c hc
  rcases List.mem_append.1 hc with hc | hc
  · rcases Text.mem_stripped hc with hc | rfl
    · exact hw c ((List.takeWhile_sublist _).subset hc)
    · exact .inl rfl
  · exact hw c ((List.dropWhile_sublist _).subset hc)

/-- Leading zeros do not change the number that a word stands for, nor whether there is one. -/
theorem read?_shown {w : Text} (hw : IsTyped w) (hp : w.count '.' ≤ 1)
    (hd : ∃ c ∈ w, c.isDigit = true) : read? (Text.shown w) = read? w := by
  obtain ⟨x, hx, hdigit⟩ := hd
  rw [read?_of_isTyped hw (List.ne_nil_of_mem hx), read?_of_isTyped hw.shown (Text.shown_ne_nil w)]
  congr 2
  by_cases h : '.' ∈ w
  · obtain ⟨ds, fs, rfl, hds⟩ := List.eq_append_cons_of_mem h
    have hfs : '.' ∉ fs := by
      rw [List.count_append, List.count_cons_self] at hp
      exact List.count_eq_zero.1 (by omega)
    have hds' : ∀ c ∈ ds, c.isDigit = true := fun c hc =>
      (hw c (by simp [hc])).resolve_right fun he => hds (he ▸ hc)
    have hfs' : ∀ c ∈ fs, c.isDigit = true := fun c hc =>
      (hw c (by simp [hc])).resolve_right fun he => hfs (he ▸ hc)
    have hne : ds ++ fs ≠ [] := by
      have hpoint : x ≠ '.' := Text.ne_of_isDigit hdigit rfl
      have hmem : x ∈ ds ++ fs := by simpa [hpoint] using hx
      exact List.ne_nil_of_mem hmem
    have hne' : Text.stripped ds ++ fs ≠ [] :=
      List.append_ne_nil_of_left_ne_nil (Text.stripped_ne_nil ds) fs
    rw [Text.shown_append_point hds, Decimal.unsigned?_append_point_digits hne hds' hfs',
      Decimal.unsigned?_append_point_digits hne' (Text.isDigit_of_mem_stripped hds') hfs',
      Text.ofDigits_stripped_append]
  · have hw' : ∀ c ∈ w, c.isDigit = true := fun c hc =>
      (hw c hc).resolve_right fun he => h (he ▸ hc)
    rw [Text.shown_of_not_mem h, Decimal.unsigned?_digits (List.ne_nil_of_mem hx) hw',
      Decimal.unsigned?_digits (Text.stripped_ne_nil w) (Text.isDigit_of_mem_stripped hw'),
      Text.ofDigits_stripped]

end Numeral

/-! ## What every key preserves -/

namespace Calculator

open Numeral (IsTyped)

/-- While no result is shown, the part of the expression behind the last blank is typed, and the
display shows it. -/
structure Echoes (c : Calculator) : Prop where
  guarded : c.Guarded
  typed : c.justComputed = false → IsTyped (Text.ending c.expression)
  display : c.justComputed = false → c.display = Text.shown (Text.ending c.expression)

namespace Echoes

variable {c : Calculator}

/-- Behind a blank nothing has been typed yet. -/
theorem of_ending_nil (h : c.Guarded) (he : Text.ending c.expression = [])
    (hd : c.display = zeroText) : c.Echoes where
  guarded := h
  typed := by simp [he, IsTyped]
  display := by simp [he, hd, Text.shown, Text.stripped, zeroText]

theorem start (history : History) : (Calculator.start history).Echoes :=
  of_ending_nil (.start history) rfl rfl

/-- A result is not watched. -/
theorem of_computed (h : c.Guarded) (hj : c.justComputed = true) : c.Echoes where
  guarded := h
  typed := by simp [hj]
  display := by simp [hj]

/-- A character behind the expression and what it does to the display. -/
theorem append_char {x : Char} (h : c.Echoes) (hj : c.justComputed = false)
    (hx : x.isDigit = true ∨ x = '.') {c' : Calculator} (hg : c'.Guarded)
    (he : c'.expression = c.expression ++ [x])
    (hd : c'.display = Text.shown (Text.ending c.expression ++ [x])) : c'.Echoes := by
  have hb : Text.isBlank x = false := by
    rcases hx with hx | rfl
    · exact (Expression.isOperandChar_of_isDigit hx).1
    · rfl
  refine ⟨hg, fun _ => ?_, fun _ => ?_⟩
  · rw [he, Text.ending_append_char hb]
    intro y hy
    rcases List.mem_append.1 hy with hy | hy
    · exact h.typed hj y hy
    · rwa [List.mem_singleton.1 hy]
  · rw [he, Text.ending_append_char hb, hd]

theorem typeDigit (h : c.Echoes) {d : Char} (hd : d.isDigit = true) : (c.typeDigit d).Echoes := by
  have hg := h.guarded.typeDigit hd
  have hp : d ≠ '.' := Text.ne_of_isDigit hd rfl
  unfold Calculator.typeDigit at hg ⊢
  split at hg
  · rename_i hj
    rw [if_pos hj]
    -- Behind a result the digit is typed as if nothing had been typed before.
    refine append_char (start c.history) rfl (.inl hd) hg rfl ?_
    rw [Text.shown_append_digit hp]
    rfl
  · rename_i hj
    rw [if_neg hj]
    have hfalse := eq_false_of_ne_true hj
    refine h.append_char hfalse (.inl hd) hg rfl ?_
    rw [Text.shown_append_digit hp, ← h.display hfalse]
    rfl

theorem typePoint (h : c.Echoes) : c.typePoint.Echoes := by
  have hg := h.guarded.typePoint
  cases hj : c.justComputed with
  | true => exact of_computed hg (by simp [hj])
  | false =>
    unfold Calculator.typePoint at hg ⊢
    split
    · exact h
    · rename_i hp
      rw [if_neg hp] at hg
      -- The display has a point exactly where the last word has one.
      rw [not_or, h.display hj, Text.point_mem_shown_iff] at hp
      refine h.append_char hj (.inr rfl) hg rfl ?_
      rw [Text.shown_append_point hp.2, ← Text.shown_of_not_mem hp.2, ← h.display hj]

theorem typeOperator (h : c.Echoes) (o : Operator) : (c.typeOperator o).Echoes := by
  obtain ⟨p, he, -⟩ := h.guarded.coherent.typeOperator_cases o
  exact of_ending_nil (h.guarded.typeOperator o) (by rw [he, Expression.ending_append_spaced]) rfl

/-- Every key but the sign key and the percent key keeps the display and the last word together. -/
theorem next (h : c.Echoes) {i : Input} (hs : i ≠ .key .sign) (hp : i ≠ .key .percent) :
    (c.next i).Echoes :=
  respond_cases c i h (fun _ => h.typeDigit) h.typePoint (fun he => absurd he hs)
    (fun he => absurd he hp) h.typeOperator
    (of_computed (h.guarded.showOutcome fun _ => Expression.isFinite_of_evaluate) (by simp))
    (start _) ⟨h.guarded.next .clearHistory, h.typed, h.display⟩

/-- While a numeral is typed there is something behind the last blank. -/
theorem ending_ne_nil (h : c.Echoes) (hc : c.phase = .typing) : Text.ending c.expression ≠ [] := by
  obtain ⟨t, x, ht, hx⟩ := h.guarded.coherent.typing hc
  rw [ht, Text.ending_append_char hx.isOperandChar.1]
  simp

end Echoes

end Calculator

/-! ## Runs -/

namespace Device

theorem echoes_run [HistoryFormat] {σ : Type} [Store σ] (s : σ) {is : List Input}
    (hs : .key .sign ∉ is) (hp : .key .percent ∉ is) : ((start s).run is).calculator.Echoes := by
  rw [calculator_run, calculator_start]
  exact Calculator.run_induction_of
    (Q := fun i => i ≠ .key .sign ∧ i ≠ .key .percent) (fun _ _ hi h => h.next hi.1 hi.2)
    (.start _) fun i hi => ⟨fun h => hs (h ▸ hi), fun h => hp (h ▸ hi)⟩

/-- After a run without sign and percent keys, while a numeral is typed: the last word is made of
digits and one point at most, the display is that word without the leading zeros of its whole part,
and unless the word is a bare point both stand for the same number or both for none. -/
theorem echo_run [HistoryFormat] {σ : Type} [Store σ] (s : σ) (is : List Input)
    (hs : .key .sign ∉ is) (hp : .key .percent ∉ is) :
    let c := ((start s).run is).calculator
    c.phase = .typing → ∃ w, c.expression.words.getLast? = some w ∧
      (∀ x ∈ w, x.isDigit = true ∨ x = '.') ∧ w.count '.' ≤ 1 ∧ c.display = Text.shown w ∧
      ((∃ x ∈ w, x.isDigit = true) → Numeral.read? c.display = Numeral.read? w) := by
  intro c hc
  have h : c.Echoes := echoes_run s hs hp
  have hj : c.justComputed = false :=
    h.guarded.coherent.legible.justComputed_eq_false (by simp [hc])
  have hwords := Text.words_of_ending (h.ending_ne_nil hc)
  have htyped := h.typed hj
  have hpercent : '%' ∉ Text.ending c.expression := fun hm => by
    have := htyped '%' hm
    simp at this
  have hpoints := h.guarded.words hj (Text.ending c.expression) (by simp [hwords]) hpercent
  refine ⟨Text.ending c.expression, by simp [hwords], htyped, hpoints, h.display hj, fun hd => ?_⟩
  rw [h.display hj, Numeral.read?_shown htyped hpoints hd]

/-- A numeral with two zeros in front. -/
theorem echo_run_of_zeros :
    let is : List Input := [.key (.digit '4'), .key .equals, .key (.operator .plus),
      .key (.digit '0'), .key (.digit '0'), .key (.digit '7'), .key .point, .key (.digit '5')]
    let c := ((start MemoryStore.empty).run is).calculator
    .key .sign ∉ is ∧ .key .percent ∉ is ∧ c.phase = .typing ∧
    c.expression = "4 + 007.5".toList ∧ ∃ w, c.expression.words.getLast? = some w ∧
      (∀ x ∈ w, x.isDigit = true ∨ x = '.') ∧ w.count '.' ≤ 1 ∧ c.display = Text.shown w ∧
      ((∃ x ∈ w, x.isDigit = true) → Numeral.read? c.display = Numeral.read? w) := by
  intro is c
  have hs : .key .sign ∉ is := by decide
  have hp : .key .percent ∉ is := by decide
  have hc : c.phase = .typing := by decide +kernel
  have he : c.expression = "4 + 007.5".toList := by decide +kernel
  exact ⟨hs, hp, hc, he, echo_run MemoryStore.empty is hs hp hc⟩

end Device

end PocketCalc
