import PocketCalc.Decimal.Print

/-!
# Numbers on the display

The display has room for ten characters of a positional text. A number that needs no more is shown
with commas between groups of three digits, any other with an exponent that has a sign.

* `filter_groupDigits`: grouping only puts commas in.
* `number_of_short`, `number_of_long`: which of the two texts is shown.
-/

namespace PocketCalc

namespace Display

/-- The longest positional text that is shown as it is. -/
def room : Nat := 10

/-- The number of digits behind the point where an exponent is shown. -/
def places : Nat := 5

/-! ## Groups of digits -/

/-- A row of digits with a comma in front of each group of three, counted from the end. -/
def groupDigits : Text → Text
  | [] => []
  | [d] => [d]
  | d :: rest =>
    if rest.length % 3 = 0 then d :: ',' :: groupDigits rest else d :: groupDigits rest

/-- A comma stands in front of digits whose number is a multiple of three. -/
theorem groupDigits_cons (d : Char) {ds : Text} (hne : ds ≠ []) : groupDigits (d :: ds) =
    if ds.length % 3 = 0 then d :: ',' :: groupDigits ds else d :: groupDigits ds := by
  obtain ⟨e, es, rfl⟩ := List.exists_cons_of_ne_nil hne
  rfl

/-- A positional text with its whole part in groups. -/
def group : Text → Text
  | '-' :: t => '-' :: groupUnsigned t
  | t => groupUnsigned t
where
  groupUnsigned (t : Text) : Text :=
    groupDigits (t.takeWhile (· != '.')) ++ t.dropWhile (· != '.')

theorem filter_groupDigits {ds : Text} (h : ∀ d ∈ ds, d ≠ ',') :
    (groupDigits ds).filter (· != ',') = ds := by
  induction ds with
  | nil => rfl
  | cons d rest ih =>
    have hd : d ≠ ',' := h d (by simp)
    have hr := ih fun x hx => h x (List.mem_cons_of_mem _ hx)
    cases rest with
    | nil => simp [groupDigits, hd]
    | cons e rest =>
      rw [groupDigits_cons d (List.cons_ne_nil e rest)]
      split <;> simp [hd, hr]

/-! ## Exponents -/

/-- A text with an exponent, where an exponent without a minus sign gets a plus sign. -/
def markExponent : Text → Text
  | [] => []
  | 'e' :: '-' :: t => 'e' :: '-' :: t
  | 'e' :: t => 'e' :: '+' :: t
  | c :: t => c :: markExponent t

/-- A number with an exponent and the given number of digits behind the point. -/
def exponential (places : Nat) (v : Float) : Text := markExponent (Decimal.scientificText places v)

/-! ## Numbers -/

/-- The number itself, but a zero without its sign. -/
def unsignedZero (v : Float) : Float := if v == 0 then 0 else v

/-- The text of a number on the display. -/
def number (v : Float) : Text :=
  if v.isFinite then
    let plain := Decimal.plainText (unsignedZero v)
    if room < plain.length then exponential places (unsignedZero v) else group plain
  else Decimal.plainText v

theorem number_of_short {v : Float} (hv : v.isFinite = true)
    (h : (Decimal.plainText (unsignedZero v)).length ≤ room) :
    number v = group (Decimal.plainText (unsignedZero v)) := by
  simp [number, hv, Nat.not_lt.2 h]

theorem number_of_long {v : Float} (hv : v.isFinite = true)
    (h : room < (Decimal.plainText (unsignedZero v)).length) :
    number v = exponential places (unsignedZero v) := by
  simp [number, hv, h]

end Display

end PocketCalc
