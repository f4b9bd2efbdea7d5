import PocketCalc.Proofs.Display.Number

/-!
# Reading what is shown

A finite number that the display has room for is read as the number itself. One that it has no room
for is read as the double that its rounded text stands for: the sign of the exponent and the commas
change nothing.

* `number_reads_back`: what reading makes of the text of a finite number.
-/

namespace PocketCalc

namespace Decimal

/-- The layout with an exponent reads as the double nearest to the decimal, with its sign. -/
theorem float?_scientificTo (negative : Bool) {places : Nat} (hp : 0 < places) {d : Decimal}
    (hd : d.coefficient < 10 ^ (places + 1)) :
    float? (Display.signed negative (d.scientificTo places)) =
      some (if negative then -d.toFloat else d.toFloat) :=
  float?_of_unsigned? negative (unsigned?_scientificTo hp hd)

end Decimal

namespace Display

variable {v : Float}

theorem signed_append (negative : Bool) (s t : Text) :
    signed negative (s ++ t) = signed negative s ++ t := by
  cases negative <;> rfl

theorem unsignedZero_of_ne (h : v ≠ -0) : unsignedZero v = v := by
  unfold unsignedZero
  split
  · rename_i h0
    exact ((Double.beq_zero_iff.1 h0).resolve_right h).symm
  · rfl

/-- A number with a long text is not zero. -/
theorem unsignedZero_of_long (h : room < (Decimal.plainText (unsignedZero v)).length) :
    unsignedZero v = v := by
  refine if_neg fun h0 => ?_
  rw [unsignedZero, if_pos h0] at h
  exact absurd h (by decide +kernel)

/-- A number that the display has room for is read as itself. -/
theorem read?_number_of_short (hv : v.isFinite = true)
    (h : (Decimal.plainText (unsignedZero v)).length ≤ room) :
    Numeral.read? (number v) = some (unsignedZero v) := by
  obtain ⟨negative, m, hm, -⟩ := exists_reading_unsignedZero hv
  obtain ⟨p, htext, hn, hd⟩ := exists_parts_of_short hv hm h
  have hvalue : p.value = unsignedZero v := by
    rw [Parts.value, hn, hd, Magnitude.signed_shortest hm]
  have hfinite : (unsignedZero v).isFinite = true := Double.isFinite_iff_reading.2 ⟨_, _, hm⟩
  rw [htext, p.read?_text, hvalue, if_pos hfinite]

/-- A number that the display has no room for is read as what its text with six digits stands
for, with or without a plus sign in the exponent. -/
theorem read?_number_of_long (hv : v.isFinite = true)
    (h : room < (Decimal.plainText (unsignedZero v)).length) : ∃ r : Float, r.isFinite = true ∧
    Decimal.float? (Decimal.scientificText places v) = some r ∧
      Numeral.read? (number v) = some r := by
  obtain ⟨negative, m, hm, -⟩ := exists_reading_unsignedZero hv
  obtain ⟨p, htext, hn, hd, -⟩ := exists_parts_of_long hv hm h
  obtain ⟨hc, hlt⟩ := significant_of_long hm h
  have hfinite : p.value.isFinite = true := by
    rw [p.isFinite_value, hd]
    exact Decimal.isFinite_toFloat hlt
  refine ⟨p.value, hfinite, ?_, by rw [htext, p.read?_text, if_pos hfinite]⟩
  rw [unsignedZero_of_long h] at hm
  rw [Decimal.scientificText, signedText_eq hm, Decimal.float?_scientificTo negative (by decide) hc,
    Parts.value, hn, hd]

/-- The text with an exponent differs from what is shown in the sign of the exponent alone. -/
theorem exists_number_of_long (hv : v.isFinite = true)
    (h : room < (Decimal.plainText (unsignedZero v)).length) : ∃ (t : Text) (x : Int), 'e' ∉ t ∧
    Decimal.scientificText places v = t ++ 'e' :: Decimal.intText x ∧
    number v = t ++ 'e' :: (if x < 0 then '-' else '+') :: Decimal.digits x.natAbs := by
  obtain ⟨negative, m, hm, -⟩ := exists_reading_unsignedZero hv
  obtain ⟨c, fs, x, -, hdigits, -, -, htext, hmark⟩ :=
    exists_markExponent_eq (show 0 < places by decide) (significant_of_long hm h).1
  refine ⟨signed negative (c :: '.' :: fs), x, ?_, ?_, ?_⟩
  · have hc : c ≠ 'e' := Text.ne_of_isDigit (hdigits c (by simp)) rfl
    have hfs : 'e' ∉ fs := Text.not_mem_of_digits (fun x hx => hdigits x (List.mem_cons_of_mem _ hx)) rfl
    cases negative <;> simp [signed, hc.symm, hfs]
  · rw [unsignedZero_of_long h] at hm
    rw [Decimal.scientificText, signedText_eq hm, htext, signed_append]
  · rw [number_of_long_eq hv hm h, markExponent_signed, hmark, signed_append]

/-- What reading makes of the text of a finite number: the number itself, without the sign of a
zero, where its positional text has at most ten characters; else what its text with six digits
stands for, which differs from the shown one in the sign of the exponent alone. -/
theorem number_reads_back (hv : v.isFinite = true) :
    ((Decimal.plainText (unsignedZero v)).length ≤ 10 →
      (v ≠ -0 → Numeral.read? (number v) = some v) ∧
      (v = -0 → Numeral.read? (number v) = some 0)) ∧
    (10 < (Decimal.plainText (unsignedZero v)).length →
      (∃ (t : Text) (x : Int), 'e' ∉ t ∧
        Decimal.scientificText 5 v = t ++ 'e' :: Decimal.intText x ∧
        number v = t ++ 'e' :: (if x < 0 then '-' else '+') :: Decimal.digits x.natAbs) ∧
      ∃ r : Float, r.isFinite = true ∧ Decimal.float? (Decimal.scientificText 5 v) = some r ∧
        Numeral.read? (number v) = some r) := by
  refine ⟨fun h => ?_, fun h => ⟨exists_number_of_long hv h, read?_number_of_long hv h⟩⟩
  have hread := read?_number_of_short hv h
  refine ⟨fun hne => ?_, fun h0 => ?_⟩
  · rw [hread, unsignedZero_of_ne hne]
  · rw [hread, unsignedZero, if_pos (Double.beq_zero_iff.2 (.inr h0))]

/-- The text of a number with groups, and the text of one that needs an exponent. -/
theorem number_reads_back_groups_and_exponent :
    (-1234.5 : Float).isFinite = true ∧
    Numeral.read? (number (-1234.5)) = some (-1234.5) ∧
    (2 / 3 : Float).isFinite = true ∧ ∃ r : Float, r.isFinite = true ∧
      Decimal.float? "6.66667e-1".toList = some r ∧ Numeral.read? (number (2 / 3)) = some r := by
  have hgroups : (-1234.5 : Float).isFinite = true := by decide +kernel
  have hexponent : (2 / 3 : Float).isFinite = true := by decide +kernel
  have htext : Decimal.scientificText 5 (2 / 3) = "6.66667e-1".toList := by decide +kernel
  refine ⟨hgroups, ((number_reads_back hgroups).1 (by decide +kernel)).1 (by decide +kernel),
    hexponent, ?_⟩
  rw [← htext]
  exact ((number_reads_back hexponent).2 (by decide +kernel)).2

end Display

end PocketCalc
