import PocketCalc.App.Form
import PocketCalc.Proofs.Tool.Duration

/-!
# Durations that are too large

A result that does not fit into 64 bits is never shown, and neither is one of durations that do not.
The reader of a field comes first, though: a number that is too large for it is read as zero, like a
field without digits, so the checks behind the reader never see it.

* `Field.toInt_readInteger`: what is read in a field.
* `TimeForm.compute_of_not_fits`: a form that computes what does not fit stays as it was.
* `TimeForm.oversized_hours_read_as_zero`: a field that is too large for the reader.
-/

namespace PocketCalc

namespace Field

/-- The whole number at the beginning of a field, with its sign and however large, zero where there
is no digit. -/
def wholeNumber (t : Text) : Int :=
  match t.trim with
  | '-' :: rest => -(Decimal.ofDigits (rest.takeWhile Char.isDigit) : Int)
  | '+' :: rest => Decimal.ofDigits (rest.takeWhile Char.isDigit)
  | rest => Decimal.ofDigits (rest.takeWhile Char.isDigit)

/-- Whether the number in a field has more than 64 bits can hold, apart from its sign. -/
def IsOversized (t : Text) : Prop := Int64.maxValue.toInt < (wholeNumber t).natAbs

instance (t : Text) : Decidable (IsOversized t) := inferInstanceAs (Decidable (_ < _))

/-- The number that a field counts for. -/
def countedNumber (t : Text) : Int := if IsOversized t then 0 else wholeNumber t

/-- A number without its sign is read as it is or as zero. -/
theorem leadingWhole_eq (t : Text) : leadingWhole t =
    if Int64.maxValue.toInt < Decimal.ofDigits (t.takeWhile Char.isDigit) then 0
    else (Decimal.ofDigits (t.takeWhile Char.isDigit) : Int) := by
  unfold leadingWhole
  dsimp only
  split <;> split <;> omega

theorem fitsWord_leadingWhole (t : Text) :
    FitsWord (leadingWhole t) ∧ FitsWord (-leadingWhole t) := by
  have hmin : Int64.minValue.toInt = -Int64.maxValue.toInt - 1 := by decide
  have hmax : 0 ≤ Int64.maxValue.toInt := by decide
  rw [leadingWhole_eq, FitsWord, FitsWord]
  split <;> omega

/-- The digits that are read stand behind a minus sign or not. -/
theorem wholeNumber_cases (t : Text) : ∃ rest,
    readInteger t = Int64.ofInt (-leadingWhole rest) ∧
        wholeNumber t = -(Decimal.ofDigits (rest.takeWhile Char.isDigit) : Int) ∨
      readInteger t = Int64.ofInt (leadingWhole rest) ∧
        wholeNumber t = Decimal.ofDigits (rest.takeWhile Char.isDigit) := by
  unfold readInteger wholeNumber
  generalize t.trim = u
  rcases u with - | ⟨c, u⟩
  · exact ⟨[], .inr ⟨rfl, rfl⟩⟩
  · by_cases hminus : c = '-'
    · subst hminus
      exact ⟨u, .inl ⟨rfl, rfl⟩⟩
    · by_cases hplus : c = '+'
      · subst hplus
        exact ⟨u, .inr ⟨rfl, rfl⟩⟩
      · exact ⟨c :: u, .inr ⟨by simp [hminus, hplus], by simp [hminus, hplus]⟩⟩

theorem toInt_readInteger (t : Text) : (readInteger t).toInt = countedNumber t := by
  obtain ⟨rest, ⟨hr, hw⟩ | ⟨hr, hw⟩⟩ := wholeNumber_cases t
  · rw [hr, toInt_ofInt_of_fitsWord (fitsWord_leadingWhole rest).2, leadingWhole_eq]
    simp only [countedNumber, IsOversized, hw, Int.natAbs_neg, Int.natAbs_natCast]
    split <;> simp
  · rw [hr, toInt_ofInt_of_fitsWord (fitsWord_leadingWhole rest).1, leadingWhole_eq]
    simp only [countedNumber, IsOversized, hw, Int.natAbs_natCast]

end Field

namespace ClockFields

/-- The texts in the fields. -/
def texts (f : ClockFields) : List Text := [f.hours, f.minutes, f.seconds]

/-- The length in seconds of what is in the fields, each of them read in the given way. -/
def length (read : Text → Int) (f : ClockFields) : Int :=
  3600 * read f.hours + 60 * read f.minutes + read f.seconds

theorem length_duration (f : ClockFields) : f.duration.length = f.length Field.countedNumber := by
  simp [Duration.length, duration, length, Field.toInt_readInteger]

theorem length_congr {read read' : Text → Int} {f : ClockFields}
    (h : ∀ t ∈ f.texts, read t = read' t) : f.length read = f.length read' := by
  simp [length, h _ (show f.hours ∈ f.texts by simp [texts]),
    h _ (show f.minutes ∈ f.texts by simp [texts]),
    h _ (show f.seconds ∈ f.texts by simp [texts])]

end ClockFields

namespace TimeForm

/-- The texts in the six fields. -/
def texts (f : TimeForm) : List Text := f.first.texts ++ f.second.texts

/-- What the operation gives for what is in the fields, each of them read in the given way. -/
def amount (read : Text → Int) (f : TimeForm) : Int :=
  f.operation.apply (f.first.length read) (f.second.length read)

/-- Both lengths and what the operation gives for them fit into 64 bits. -/
structure Fits (read : Text → Int) (f : TimeForm) : Prop where
  first : FitsWord (f.first.length read)
  second : FitsWord (f.second.length read)
  amount : FitsWord (f.amount read)

theorem fits_congr {read read' : Text → Int} {f : TimeForm}
    (h : ∀ t ∈ f.texts, read t = read' t) : f.Fits read ↔ f.Fits read' := by
  obtain ⟨h₁, h₂⟩ := List.forall_mem_append.1 h
  have hfirst := ClockFields.length_congr h₁
  have hsecond := ClockFields.length_congr h₂
  have hamount : f.amount read = f.amount read' := by rw [amount, amount, hfirst, hsecond]
  constructor
  · rintro ⟨ha, hb, hr⟩
    exact ⟨hfirst ▸ ha, hsecond ▸ hb, hamount ▸ hr⟩
  · rintro ⟨ha, hb, hr⟩
    exact ⟨hfirst ▸ ha, hsecond ▸ hb, hamount ▸ hr⟩

/-- A form stays as it was, or everything fits and it shows the exact result, where each field counts
for what is read in it. -/
theorem compute_eq_or (f : TimeForm) : f.compute = f ∨ f.Fits Field.countedNumber ∧
    f.compute = { f with result := some (Duration.clockText (f.amount Field.countedNumber)) } := by
  have hcases := Duration.resultText?_cases f.operation f.first.duration f.second.duration
  rw [ClockFields.length_duration, ClockFields.length_duration] at hcases
  rcases hcases with hnone | ⟨⟨ha, hb, hr⟩, hsome⟩
  · exact .inl (compute_of_none hnone)
  · refine .inr ⟨⟨ha, hb, hr⟩, ?_⟩
    rw [compute, outcome?, hsome]
    rfl

/-- Where no field is too large for the reader, a form stays as it was if one of the lengths or the
result does not fit into 64 bits. In general a form stays as it was, or everything fits and the exact
result is shown, where a field that is too large for the reader counts for zero. -/
theorem compute_of_not_fits (f : TimeForm) :
    ((∀ t ∈ f.texts, ¬ Field.IsOversized t) → ¬ f.Fits Field.wholeNumber → f.compute = f) ∧
    (f.compute = f ∨ f.Fits Field.countedNumber ∧
      f.compute = { f with result := some (Duration.clockText (f.amount Field.countedNumber)) }) := by
  refine ⟨fun hsize hfits => ?_, f.compute_eq_or⟩
  have hread : ∀ t ∈ f.texts, Field.countedNumber t = Field.wholeNumber t := fun t ht =>
    if_neg (hsize t ht)
  exact f.compute_eq_or.resolve_right fun h => hfits ((fits_congr hread).1 h.1)

/-- Hours that are one more than 64 bits can hold are read as none, and no time is shown as the
result. -/
theorem oversized_hours_read_as_zero :
    let f : TimeForm := { blank with first := ⟨"9223372036854775808".toList, [], []⟩ }
    ¬ f.Fits Field.wholeNumber ∧ f.result = none ∧ f.compute.result = some "00:00:00".toList ∧
      ¬ ∀ f : TimeForm, ¬ f.Fits Field.wholeNumber → f.compute.result = f.result := by
  intro f
  have hfits : ¬ f.Fits Field.wholeNumber := fun h => absurd h.first (by decide +kernel)
  have hresult : f.compute.result = some "00:00:00".toList := by decide +kernel
  refine ⟨hfits, rfl, hresult, fun h => ?_⟩
  cases hresult.symm.trans (h f hfits)

end TimeForm

end PocketCalc
