import PocketCalc.Decimal.Print
import PocketCalc.Tool.Duration
import PocketCalc.Tool.Field
import PocketCalc.Tool.Loan
import PocketCalc.Tool.Measure
import PocketCalc.Tool.Percentage

/-!
# The forms of the tools

A form has fields that are filled in and a result that stays until another one takes its place:
fields that cannot be read, or numbers without a result, leave it as it was.

* `ConversionForm.convert_of_none`, `LoanForm.compute_of_none`, `PercentageForm.compute_of_none`,
  `TimeForm.compute_of_none`: without a new result the form does not change.
-/

namespace PocketCalc

/-- The number in a field that is of no use when it is zero. -/
def Field.readNonzero? (t : Text) : Option Float := (readNumber? t).filter fun v => v != 0

/-! ## Conversions -/

/-- A value and its unit, the unit wanted, and the last result with its unit sign. -/
structure ConversionForm (U : Type) where
  value : Text
  source : U
  target : U
  result : Option (Text × Text)

/-- What can be done to a conversion form. -/
inductive ConversionStep (U : Type) where
  | setValue (t : Text)
  | setSource (u : U)
  | setTarget (u : U)
  | convert

namespace ConversionForm

variable {U : Type}

/-- A form that was not touched. -/
def blank (source target : U) : ConversionForm U := ⟨[], source, target, none⟩

variable [Measure U]

/-- The result for what is in the fields. -/
def outcome? (f : ConversionForm U) : Option (Text × Text) :=
  let value? :=
    if Measure.acceptsZero U then Field.readNumber? f.value else Field.readNonzero? f.value
  value?.map fun v =>
    (Decimal.fixedText (Measure.places U) (Measure.convert v f.source f.target),
      Measure.code f.target)

/-- The form with its new result, if there is one. -/
def convert (f : ConversionForm U) : ConversionForm U :=
  match f.outcome? with
  | some r => { f with result := some r }
  | none => f

/-- The form after a step. -/
def step (f : ConversionForm U) : ConversionStep U → ConversionForm U
  | .setValue t => { f with value := t }
  | .setSource u => { f with source := u }
  | .setTarget u => { f with target := u }
  | .convert => f.convert

theorem convert_of_none {f : ConversionForm U} (h : f.outcome? = none) : f.convert = f := by
  simp [convert, h]

end ConversionForm

/-! ## Loans -/

/-- The amount, yearly rate and years of a loan, and its last cost. -/
structure LoanForm where
  amount : Text
  rate : Text
  years : Text
  result : Option Loan

/-- What can be done to a loan form. -/
inductive LoanStep where
  | setAmount (t : Text)
  | setRate (t : Text)
  | setYears (t : Text)
  | compute

namespace LoanForm

/-- A form that was not touched. -/
def blank : LoanForm := ⟨[], [], [], none⟩

/-- The cost for what is in the fields. -/
def outcome? (f : LoanForm) : Option Loan := do
  let amount ← Field.readNonzero? f.amount
  let rate ← Field.readNumber? f.rate
  let years ← Field.readNonzero? f.years
  Loan.quote? amount rate years

/-- The form with its new result, if there is one. -/
def compute (f : LoanForm) : LoanForm :=
  match f.outcome? with
  | some r => { f with result := some r }
  | none => f

/-- The form after a step. -/
def step (f : LoanForm) : LoanStep → LoanForm
  | .setAmount t => { f with amount := t }
  | .setRate t => { f with rate := t }
  | .setYears t => { f with years := t }
  | .compute => f.compute

theorem compute_of_none {f : LoanForm} (h : f.outcome? = none) : f.compute = f := by
  simp [compute, h]

end LoanForm

/-! ## Percentages -/

/-- A question about two numbers, and the last answer. -/
structure PercentageForm where
  question : Percentage
  first : Text
  second : Text
  result : Option Text

/-- What can be done to a percentage form. -/
inductive PercentageStep where
  | setQuestion (p : Percentage)
  | setFirst (t : Text)
  | setSecond (t : Text)
  | compute

namespace PercentageForm

/-- A form that was not touched. -/
def blank : PercentageForm := ⟨.share, [], [], none⟩

/-- The answer for what is in the fields. -/
def outcome? (f : PercentageForm) : Option Text := do
  let x ← Field.readNonzero? f.first
  let y ← Field.readNonzero? f.second
  let r ← f.question.answer? x y
  return f.question.answerText r

/-- The form with its new result, if there is one. -/
def compute (f : PercentageForm) : PercentageForm :=
  match f.outcome? with
  | some r => { f with result := some r }
  | none => f

/-- The form after a step. -/
def step (f : PercentageForm) : PercentageStep → PercentageForm
  | .setQuestion p => { f with question := p }
  | .setFirst t => { f with first := t }
  | .setSecond t => { f with second := t }
  | .compute => f.compute

theorem compute_of_none {f : PercentageForm} (h : f.outcome? = none) : f.compute = f := by
  simp [compute, h]

end PercentageForm

/-! ## Durations -/

/-- The three fields of a duration. -/
structure ClockFields where
  hours : Text
  minutes : Text
  seconds : Text

/-- The duration in three fields; a field that cannot be read is zero. -/
def ClockFields.duration (f : ClockFields) : Duration :=
  ⟨Field.readInteger f.hours, Field.readInteger f.minutes, Field.readInteger f.seconds⟩

/-- Two durations, what is asked of them, and the last result. -/
structure TimeForm where
  first : ClockFields
  second : ClockFields
  operation : TimeOperation
  result : Option Text

/-- What can be done to a time form. -/
inductive TimeStep where
  | setFirst (f : ClockFields)
  | setSecond (f : ClockFields)
  | setOperation (op : TimeOperation)
  | compute

namespace TimeForm

/-- A form that was not touched. -/
def blank : TimeForm := ⟨⟨[], [], []⟩, ⟨[], [], []⟩, .sum, none⟩

/-- The result for what is in the fields. -/
def outcome? (f : TimeForm) : Option Text :=
  Duration.resultText? f.operation f.first.duration f.second.duration

/-- The form with its new result, if there is one. -/
def compute (f : TimeForm) : TimeForm :=
  match f.outcome? with
  | some r => { f with result := some r }
  | none => f

/-- The form after a step. -/
def step (f : TimeForm) : TimeStep → TimeForm
  | .setFirst fields => { f with first := fields }
  | .setSecond fields => { f with second := fields }
  | .setOperation op => { f with operation := op }
  | .compute => f.compute

theorem compute_of_none {f : TimeForm} (h : f.outcome? = none) : f.compute = f := by
  simp [compute, h]

end TimeForm

end PocketCalc
