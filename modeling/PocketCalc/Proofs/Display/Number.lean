import PocketCalc.Display
import PocketCalc.Proofs.Decimal.Exact
import PocketCalc.Proofs.Decimal.Layout
import PocketCalc.Proofs.Display.Parts

/-!
# The text of a number

What the display shows of a finite number is a number of the display: its parts stand for the
shortest decimal, or for the one with six digits where there is no room for that. Both are read as
finite doubles again, and zero has no sign.

* `exists_parts_of_short`, `exists_parts_of_long`: the two layouts.
* `exists_parts_number`: the text of a finite number reads back, and is not a signed zero.
-/

namespace PocketCalc

namespace Display

/-! ## Groups -/

theorem mem_groupDigits {ds : Text} {c : Char} (hc : c ∈ groupDigits ds) : c ∈ ds ∨ c = ',' := by
  induction ds with
  | nil => exact .inl hc
  | cons d rest ih =>
    cases rest with
    | nil => exact .inl hc
    | cons e rest =>
      rw [groupDigits_cons d (List.cons_ne_nil e rest)] at hc
      split at hc
      · simp only [List.mem_cons] at hc ih ⊢
        tauto
      · simp only [List.mem_cons] at hc ih ⊢
        tauto

theorem exists_groupDigits_cons (d : Char) (rest : Text) :
    ∃ t, groupDigits (d :: rest) = d :: t := by
  cases rest with
  | nil => exact ⟨[], rfl⟩
  | cons e rest =>
    rw [groupDigits_cons d (List.cons_ne_nil e rest)]
    split
    · exact ⟨_, rfl⟩
    · exact ⟨_, rfl⟩

theorem endsIn_groupDigits {p : Char → Prop} {ds : Text} (hne : ds ≠ []) (h : ∀ c ∈ ds, p c) :
    (groupDigits ds).EndsIn p := by
  induction ds with
  | nil => exact absurd rfl hne
  | cons d rest ih =>
    cases rest with
    | nil => exact ⟨[], d, rfl, h d (by simp)⟩
    | cons e rest =>
      have hrest := ih (by simp) fun c hc => h c (List.mem_cons_of_mem _ hc)
      rw [groupDigits_cons d (List.cons_ne_nil e rest)]
      split
      · exact hrest.append [d, ',']
      · exact hrest.append [d]

/-! ## Exponents -/

theorem markExponent_append {ds : Text} (h : ∀ c ∈ ds, c ≠ 'e') (t : Text) :
    markExponent (ds ++ t) = ds ++ markExponent t := by
  induction ds with
  | nil => rfl
  | cons c ds ih =>
    have hc := h c (by simp)
    have := ih fun d hd => h d (List.mem_cons_of_mem _ hd)
    simp [markExponent, hc, this]

/-- An exponent is shown with its sign. -/
theorem markExponent_intText (x : Int) : markExponent ('e' :: Decimal.intText x) =
    'e' :: (if x < 0 then '-' else '+') :: Decimal.digits x.natAbs := by
  cases x with
  | ofNat k =>
    have hdigit := fun c => Decimal.isDigit_of_mem_digits (n := k) (c := c)
    obtain ⟨c, t, ht⟩ := List.exists_cons_of_ne_nil (Decimal.digits_ne_nil k)
    have hc : c ≠ '-' := Text.ne_of_isDigit (hdigit c (by simp [ht])) rfl
    simp [Decimal.intText, ht, markExponent, hc]
  | negSucc k =>
    rw [if_pos (Int.negSucc_lt_zero k)]
    rfl

/-- One digit, the others behind the point, and an exponent that gets its sign. -/
theorem exists_markExponent_eq {places : Nat} (hp : 0 < places) {d : Decimal}
    (hd : d.coefficient < 10 ^ (places + 1)) : ∃ (c : Char) (fs : Text) (x : Int),
    fs.length = places ∧ (∀ y ∈ c :: fs, y.isDigit = true) ∧
    Decimal.ofDigits (c :: fs) = d.coefficient ∧ x = d.exponent + places ∧
    d.scientificTo places = c :: '.' :: fs ++ 'e' :: Decimal.intText x ∧
    markExponent (d.scientificTo places) =
      c :: '.' :: fs ++ 'e' :: (if x < 0 then '-' else '+') :: Decimal.digits x.natAbs := by
  obtain ⟨c, fs, hlen, hdigits, hvalue, htext⟩ := Decimal.exists_scientificTo_eq hp hd
  refine ⟨c, fs, _, hlen, hdigits, hvalue, rfl, htext, ?_⟩
  rw [htext, markExponent_append, markExponent_intText]
  intro y hy
  rcases List.mem_cons.1 hy with rfl | hy
  · exact Text.ne_of_isDigit (hdigits y (by simp)) rfl
  · rcases List.mem_cons.1 hy with rfl | hy
    · decide
    · exact Text.ne_of_isDigit (hdigits y (List.mem_cons_of_mem _ hy)) rfl

/-! ## Parts from digits -/

/-- A text of digits behind an optional minus sign. -/
def signed (negative : Bool) (t : Text) : Text := if negative then '-' :: t else t

/-- Digits in groups, and the digits behind a point if there are any. -/
def Parts.grouped (negative : Bool) {ds fs : Text} (hne : ds ≠ [])
    (hds : ∀ c ∈ ds, c.isDigit = true) (hfs : ∀ c ∈ fs, c.isDigit = true) : Parts where
  negative := negative
  whole := groupDigits ds
  fraction := if fs = [] then none else some fs
  exponent := none
  first := by
    obtain ⟨c, rest, hc⟩ := List.exists_cons_of_ne_nil hne
    obtain ⟨t, ht⟩ := exists_groupDigits_cons c rest
    exact ⟨c, t, by rw [hc, ht], hds c (by simp [hc])⟩
  last := endsIn_groupDigits hne hds
  commas := fun _ hc => (mem_groupDigits hc).imp_left (hds _)
  digits := by
    intro t ht
    by_cases hf : fs = []
    · simp [hf] at ht
    · rw [if_neg hf] at ht
      rwa [← Option.mem_some_iff.1 ht]
  power := by simp
  behind := by simp

/-- One digit, the digits behind the point, and an exponent. -/
def Parts.powered (negative : Bool) {c : Char} {fs : Text} (hc : c.isDigit = true)
    (hfs : ∀ x ∈ fs, x.isDigit = true) (n : Bool) {t : Text} (hne : t ≠ [])
    (ht : ∀ x ∈ t, x.isDigit = true) : Parts where
  negative := negative
  whole := [c]
  fraction := some fs
  exponent := some (n, t)
  first := ⟨c, [], rfl, hc⟩
  last := ⟨[], c, rfl, hc⟩
  commas := fun _ hx => .inl (by rwa [List.mem_singleton.1 hx])
  digits := by
    intro u hu
    rwa [← Option.mem_some_iff.1 hu]
  power := by
    intro x hx
    rw [← Option.mem_some_iff.1 hx]
    exact ⟨hne, ht⟩
  behind := fun _ => rfl

theorem Parts.text_grouped (negative : Bool) {ds fs : Text} (hne : ds ≠ [])
    (hds : ∀ c ∈ ds, c.isDigit = true) (hfs : ∀ c ∈ fs, c.isDigit = true) :
    (grouped negative hne hds hfs).text =
      signed negative (groupDigits ds ++ Decimal.pointed fs) := by
  unfold text body signText pointText powerText grouped signed Decimal.pointed
  by_cases hf : fs = []
  · cases negative <;> simp [hf]
  · cases negative <;> simp [hf]

theorem Parts.decimal_grouped (negative : Bool) {ds fs : Text} (hne : ds ≠ [])
    (hds : ∀ c ∈ ds, c.isDigit = true) (hfs : ∀ c ∈ fs, c.isDigit = true) :
    (grouped negative hne hds hfs).decimal =
      ⟨Decimal.ofDigits (ds ++ fs), -(fs.length : Int)⟩ := by
  have hfilter : (groupDigits ds).filter (· != ',') = ds :=
    filter_groupDigits fun c hc => Text.ne_of_isDigit (hds c hc) rfl
  have hfd : (if fs = [] then none else some fs).getD [] = fs := by
    split
    · rename_i h
      exact h.symm
    · rfl
  simp only [decimal, wholeDigits, fractionDigits, scale, grouped, hfilter, hfd, zero_sub]

/-! ## The two layouts -/

/-- Behind a row of digits, a point and what follows it are left as they are. -/
theorem groupUnsigned_behind {ds : Text} (hds : ∀ c ∈ ds, c.isDigit = true) {t : Text}
    (ht : t = [] ∨ ∃ fs, t = '.' :: fs) :
    group.groupUnsigned (ds ++ t) = groupDigits ds ++ t := by
  have hpoint : ∀ c ∈ ds, (c != '.') = true := fun c hc =>
    bne_iff_ne.2 (Text.ne_of_isDigit (hds c hc) rfl)
  rw [group.groupUnsigned, List.takeWhile_append_of_pos hpoint, List.dropWhile_append_of_pos hpoint]
  rcases ht with rfl | ⟨fs, rfl⟩
  · simp
  · simp

theorem groupUnsigned_append {ds : Text} (hds : ∀ c ∈ ds, c.isDigit = true) (fs : Text) :
    group.groupUnsigned (ds ++ Decimal.pointed fs) = groupDigits ds ++ Decimal.pointed fs := by
  refine groupUnsigned_behind hds ?_
  unfold Decimal.pointed
  split
  · exact .inl rfl
  · exact .inr ⟨fs, rfl⟩

theorem group_signed (negative : Bool) {ds : Text} (hne : ds ≠ [])
    (hds : ∀ c ∈ ds, c.isDigit = true) (t : Text) :
    group (signed negative (ds ++ t)) = signed negative (group.groupUnsigned (ds ++ t)) := by
  cases negative with
  | true => rfl
  | false =>
    obtain ⟨c, rest, rfl⟩ := List.exists_cons_of_ne_nil hne
    have hminus : c ≠ '-' := Text.ne_of_isDigit (hds c (by simp)) rfl
    simp [signed, group, hminus]

theorem markExponent_signed (negative : Bool) (t : Text) :
    markExponent (signed negative t) = signed negative (markExponent t) := by
  cases negative with
  | true => exact markExponent_append (show ∀ c ∈ ['-'], c ≠ 'e' by simp) t
  | false => rfl

/-- Grouped digits are the parts of the same decimal. -/
theorem exists_parts_plain (negative : Bool) {d : Decimal} (hd : d.exponent ≤ 0) : ∃ p : Parts,
    p.text = group (signed negative d.plain) ∧ p.negative = negative ∧ p.decimal = d := by
  obtain ⟨ds, fs, hne, hdigits, hvalue, hexp, hplain⟩ := Decimal.exists_plain_eq hd
  have hds : ∀ c ∈ ds, c.isDigit = true := fun c hc => hdigits c (List.mem_append_left _ hc)
  have hfs : ∀ c ∈ fs, c.isDigit = true := fun c hc => hdigits c (List.mem_append_right _ hc)
  refine ⟨.grouped negative hne hds hfs, ?_, rfl, ?_⟩
  · rw [Parts.text_grouped, hplain, group_signed negative hne hds, groupUnsigned_append hds]
  · rw [Parts.decimal_grouped, hvalue, ← hexp]

/-- Digits with an exponent are the parts of the same decimal. -/
theorem exists_parts_scientific (negative : Bool) {places : Nat} (hp : 0 < places) {d : Decimal}
    (hd : d.coefficient < 10 ^ (places + 1)) : ∃ p : Parts,
    p.text = markExponent (signed negative (d.scientificTo places)) ∧ p.negative = negative ∧
      p.decimal = d ∧ p.fraction.isSome = true := by
  obtain ⟨c, fs, x, hlen, hdigits, hvalue, hx, -, hmark⟩ := exists_markExponent_eq hp hd
  have hc := hdigits c (by simp)
  have hfs : ∀ y ∈ fs, y.isDigit = true := fun y hy => hdigits y (List.mem_cons_of_mem _ hy)
  have hscale : (if decide (x < 0) then -(Decimal.ofDigits (Decimal.digits x.natAbs) : Int)
      else Decimal.ofDigits (Decimal.digits x.natAbs)) = x := by
    rw [Decimal.ofDigits_digits]
    simp only [decide_eq_true_eq]
    omega
  refine ⟨.powered negative hc hfs (decide (x < 0)) (Decimal.digits_ne_nil x.natAbs)
    fun _ => Decimal.isDigit_of_mem_digits, ?_, rfl, ?_, rfl⟩
  · rw [markExponent_signed, hmark]
    unfold Parts.text Parts.body Parts.signText Parts.pointText Parts.powerText Parts.powered signed
    cases negative <;> simp
  · have hcomma : c ≠ ',' := Text.ne_of_isDigit hc rfl
    simp only [Parts.decimal, Parts.wholeDigits, Parts.fractionDigits, Parts.scale, Parts.powered,
      hscale]
    simp [hcomma, hvalue, hlen, hx]

/-! ## Numbers -/

theorem signedText_eq {v : Float} {negative : Bool} {m : Magnitude}
    (h : Reading.ofFloat v = .finite negative m) (f : Magnitude → Text) :
    Decimal.signedText v f = signed negative (f m) := by
  rw [Decimal.signedText, h]
  rfl

/-- A finite number without a sign on its zero. -/
theorem exists_reading_unsignedZero {v : Float} (hv : v.isFinite = true) : ∃ negative m,
    Reading.ofFloat (unsignedZero v) = .finite negative m ∧
      (m.mantissa = 0 → negative = false) := by
  by_cases h0 : (v == 0) = true
  · refine ⟨false, ⟨0, -1074⟩, ?_, fun _ => rfl⟩
    rw [unsignedZero, if_pos h0]
    decide +kernel
  · obtain ⟨negative, m, hm⟩ := Double.isFinite_iff_reading.1 hv
    refine ⟨negative, m, by rw [unsignedZero, if_neg h0, hm], fun hz => absurd ?_ h0⟩
    exact Double.beq_zero_iff_reading.2 ⟨negative, m, hm, hz⟩

/-- The positional text of a number stands for its shortest decimal. -/
theorem exists_parts_of_short {v : Float} {negative : Bool} {m : Magnitude} (hv : v.isFinite = true)
    (hm : Reading.ofFloat (unsignedZero v) = .finite negative m)
    (h : (Decimal.plainText (unsignedZero v)).length ≤ room) : ∃ p : Parts,
    number v = p.text ∧ p.negative = negative ∧ p.decimal = m.shortest := by
  obtain ⟨p, ht, hn, hd⟩ := exists_parts_plain negative m.exponent_shortest_nonpos
  refine ⟨p, ?_, hn, hd⟩
  rw [number_of_short hv h, Decimal.plainText, signedText_eq hm, ht]

/-- Six digits of a number with a long text, and none of them too many. -/
theorem significant_of_long {v : Float} {negative : Bool} {m : Magnitude}
    (hm : Reading.ofFloat (unsignedZero v) = .finite negative m)
    (h : room < (Decimal.plainText (unsignedZero v)).length) :
    (m.significant places).coefficient < 10 ^ (places + 1) ∧
      (m.significant places).value < Double.largest := by
  obtain ⟨hlt, -, he⟩ := Double.bounds_of_reading hm
  refine Magnitude.significant_bounds (fun h0 => ?_) (Magnitude.value_le_largest hlt he)
  rw [Decimal.plainText, signedText_eq hm, Magnitude.shortest, if_pos h0] at h
  cases negative <;> exact absurd h (by decide)

theorem number_of_long_eq {v : Float} {negative : Bool} {m : Magnitude} (hv : v.isFinite = true)
    (hm : Reading.ofFloat (unsignedZero v) = .finite negative m)
    (h : room < (Decimal.plainText (unsignedZero v)).length) :
    number v = markExponent (signed negative ((m.significant places).scientificTo places)) := by
  rw [number_of_long hv h, exponential, Decimal.scientificText, signedText_eq hm]

/-- The text of a number with an exponent stands for the number rounded to six digits. -/
theorem exists_parts_of_long {v : Float} {negative : Bool} {m : Magnitude} (hv : v.isFinite = true)
    (hm : Reading.ofFloat (unsignedZero v) = .finite negative m)
    (h : room < (Decimal.plainText (unsignedZero v)).length) : ∃ p : Parts,
    number v = p.text ∧ p.negative = negative ∧ p.decimal = m.significant places ∧
      p.fraction.isSome = true := by
  obtain ⟨p, ht, hrest⟩ :=
    exists_parts_scientific negative (show 0 < places by decide) (significant_of_long hm h).1
  exact ⟨p, (number_of_long_eq hv hm h).trans ht.symm, hrest⟩

/-- The text of a finite number reads back as a finite number, and it is not a signed zero. -/
theorem exists_parts_number {v : Float} (hv : v.isFinite = true) : ∃ p : Parts,
    number v = p.text ∧ p.value.isFinite = true ∧ p.text ≠ ['-', '0'] := by
  obtain ⟨negative, m, hm, hzero⟩ := exists_reading_unsignedZero hv
  by_cases h : (Decimal.plainText (unsignedZero v)).length ≤ room
  · obtain ⟨p, ht, hn, hd⟩ := exists_parts_of_short hv hm h
    refine ⟨p, ht, ?_, fun h0 => ?_⟩
    · rw [p.isFinite_value, hd]
      exact Double.isFinite_iff_reading.2 ⟨false, m, Magnitude.readsBack_shortest hm⟩
    · have hbody : p.body = ['0'] ∧ p.negative = true := by
        rcases p.text_eq with ⟨ht, -⟩ | ⟨ht, hn⟩
        · obtain ⟨d, rest, hb, hd⟩ := p.exists_body_eq
          rw [ht, hb] at h0
          cases h0
          cases hd
        · rw [ht] at h0
          exact ⟨List.tail_eq_of_cons_eq h0, hn⟩
      have hread := p.unsigned?_filter_body
      rw [hbody.1] at hread
      have hdec : p.decimal = ⟨0, 0⟩ := Option.some.inj (hread.symm.trans rfl)
      refine Magnitude.shortest_ne_zero hm (fun h0 => ?_) (hd.symm.trans hdec)
      have := hn.symm.trans hbody.2
      rw [hzero h0] at this
      cases this
  · obtain ⟨p, ht, -, hd, hf⟩ := exists_parts_of_long hv hm (Nat.lt_of_not_le h)
    refine ⟨p, ht, ?_, fun h0 => ?_⟩
    · rw [p.isFinite_value, hd]
      exact Decimal.isFinite_toFloat (significant_of_long hm (Nat.lt_of_not_le h)).2
    · have := p.point_mem_text.2 hf
      rw [h0] at this
      exact absurd this (by decide)

end Display

end PocketCalc
