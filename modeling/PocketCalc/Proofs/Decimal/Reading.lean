import PocketCalc.Decimal.Grammar
import PocketCalc.Proofs.Decimal.Layout
import PocketCalc.Proofs.Text.Words

/-!
# Reading rows of digits

A number text without a sign is a row of digits, or two rows with a point between them, and an
exponent. It stands for the value of the digits and the scale that the point and the exponent give.

* `unsigned?_digits`, `unsigned?_append_point`: what the two forms read as.
* `unsigned?_plain`, `unsigned?_scientificTo`: a decimal in either layout reads back.
* `float?_of_unsigned?`: what a sign adds to that.
-/

namespace PocketCalc

namespace Decimal

variable {ds fs tail : Text} {e : Int}

theorem whole?_of_digits (hne : ds ≠ []) (hds : ∀ c ∈ ds, c.isDigit = true) :
    whole? ds = some (ofDigits ds) := by
  rw [whole?, if_pos ⟨hne, List.all_eq_true.2 hds⟩]

theorem exponent?_of_digits (hne : ds ≠ []) (hds : ∀ c ∈ ds, c.isDigit = true) :
    exponent? ds = some (ofDigits ds : Int) := by
  have hread := whole?_of_digits hne hds
  obtain ⟨c, t, rfl⟩ := List.exists_cons_of_ne_nil hne
  have hplus : c ≠ '+' := Text.ne_of_isDigit (hds c (by simp)) rfl
  have hminus : c ≠ '-' := Text.ne_of_isDigit (hds c (by simp)) rfl
  simp [exponent?, hplus, hminus, hread]

theorem exponent?_minus (hne : ds ≠ []) (hds : ∀ c ∈ ds, c.isDigit = true) :
    exponent? ('-' :: ds) = some (-(ofDigits ds : Int)) := by
  rw [exponent?, whole?_of_digits hne hds]
  rfl

theorem exponent?_intText (x : Int) : exponent? (intText x) = some x := by
  have hdigits (n : Nat) : ∀ c ∈ digits n, c.isDigit = true := fun c hc => isDigit_of_mem_digits hc
  cases x with
  | ofNat n =>
    rw [intText, exponent?_of_digits (digits_ne_nil n) (hdigits n), ofDigits_digits]
    rfl
  | negSucc n =>
    rw [intText, exponent?_minus (digits_ne_nil _) (hdigits _), ofDigits_digits]
    rfl

/-- The digits of a row end where the exponent begins. -/
theorem span_append (hds : ∀ c ∈ ds, c.isDigit = true) (h : scale? tail = some e) :
    (ds ++ tail).takeWhile Char.isDigit = ds ∧ (ds ++ tail).dropWhile Char.isDigit = tail := by
  rw [List.takeWhile_append_of_pos hds, List.dropWhile_append_of_pos hds]
  cases tail with
  | nil => simp
  | cons c t =>
    have hmark : c = 'e' ∨ c = 'E' := by
      by_contra hne
      rw [scale?, if_neg hne] at h
      cases h
    have hc : c.isDigit = false := by
      rcases hmark with rfl | rfl <;> rfl
    simp [hc]

theorem unsigned?_append (hne : ds ≠ []) (hds : ∀ c ∈ ds, c.isDigit = true)
    (h : scale? tail = some e) : unsigned? (ds ++ tail) = some ⟨ofDigits ds, e⟩ := by
  obtain ⟨htake, hdrop⟩ := span_append hds h
  rw [unsigned?]
  simp only [htake, hdrop]
  split
  · simp [scale?] at h
  · rw [if_neg hne, h]
    rfl

theorem unsigned?_digits (hne : ds ≠ []) (hds : ∀ c ∈ ds, c.isDigit = true) :
    unsigned? ds = some ⟨ofDigits ds, 0⟩ := by
  simpa using unsigned?_append hne hds (show scale? [] = some 0 from rfl)

theorem unsigned?_append_point (hne : ds ++ fs ≠ []) (hds : ∀ c ∈ ds, c.isDigit = true)
    (hfs : ∀ c ∈ fs, c.isDigit = true) (h : scale? tail = some e) :
    unsigned? (ds ++ '.' :: (fs ++ tail)) = some ⟨ofDigits (ds ++ fs), e - fs.length⟩ := by
  have hpoint : Char.isDigit '.' = false := rfl
  obtain ⟨htake, hdrop⟩ := span_append hfs h
  rw [unsigned?, List.takeWhile_append_of_pos hds, List.dropWhile_append_of_pos hds,
    List.takeWhile_cons_of_neg (by simp [hpoint]), List.dropWhile_cons_of_neg (by simp [hpoint]),
    List.append_nil]
  simp only [htake, hdrop, h, if_neg hne, Option.map_some]

theorem unsigned?_append_point_digits (hne : ds ++ fs ≠ []) (hds : ∀ c ∈ ds, c.isDigit = true)
    (hfs : ∀ c ∈ fs, c.isDigit = true) :
    unsigned? (ds ++ '.' :: fs) = some ⟨ofDigits (ds ++ fs), -(fs.length : Int)⟩ := by
  simpa using unsigned?_append_point hne hds hfs (show scale? [] = some 0 from rfl)

/-- The positional layout reads as the decimal that it lays out. -/
theorem unsigned?_plain {d : Decimal} (hd : d.exponent ≤ 0) : unsigned? d.plain = some d := by
  obtain ⟨ds, fs, hne, hdigits, hvalue, hexp, hplain⟩ := exists_plain_eq hd
  have hds : ∀ c ∈ ds, c.isDigit = true := fun c hc => hdigits c (List.mem_append_left _ hc)
  have hfs : ∀ c ∈ fs, c.isDigit = true := fun c hc => hdigits c (List.mem_append_right _ hc)
  have hd : d = ⟨ofDigits (ds ++ fs), -(fs.length : Int)⟩ := by rw [hvalue, ← hexp]
  rw [hplain, hd, pointed]
  by_cases hf : fs = []
  · simpa [hf] using unsigned?_digits hne hds
  · rw [if_neg hf]
    exact unsigned?_append_point_digits (by simp [hne]) hds hfs

/-- The layout with an exponent reads as the decimal that it lays out. -/
theorem unsigned?_scientificTo {places : Nat} (hp : 0 < places) {d : Decimal}
    (hd : d.coefficient < 10 ^ (places + 1)) : unsigned? (d.scientificTo places) = some d := by
  obtain ⟨c, fs, hlen, hdigits, hvalue, htext⟩ := exists_scientificTo_eq hp hd
  have hc : ∀ x ∈ [c], x.isDigit = true := by simpa using hdigits c (by simp)
  have hfs : ∀ x ∈ fs, x.isDigit = true := fun x hx => hdigits x (List.mem_cons_of_mem _ hx)
  have hscale : scale? ('e' :: intText (d.exponent + places)) = some (d.exponent + places) := by
    rw [scale?, if_pos (.inl rfl), exponent?_intText]
  have hread := unsigned?_append_point (by simp) hc hfs hscale
  rw [htext]
  refine hread.trans ?_
  simp [hvalue, hlen]

/-- A minus sign in front of a number without a sign negates what it reads as. -/
theorem float?_of_unsigned? (negative : Bool) {t : Text} {d : Decimal}
    (h : unsigned? t = some d) :
    float? (if negative then '-' :: t else t) =
      some (if negative then -d.toFloat else d.toFloat) := by
  cases negative with
  | true =>
    change (unsigned? t).map _ = _
    rw [h]
    rfl
  | false =>
    -- no number without a sign begins with one
    change float? t = some d.toFloat
    unfold float?
    split
    · simp [unsigned?] at h
    · simp [unsigned?] at h
    · rw [h]
      rfl

end Decimal

end PocketCalc
