import PocketCalc.Proofs.Decimal.Correct
import PocketCalc.Proofs.Decimal.Reading

/-!
# The grammar of number texts

A number text is taken apart into its sign, the digits on both sides of the point and the power of
ten behind them: `[+-]? (D+ ('.' D*)? | '.' D+) ([eE] [+-]? D+)?`. The texts that are read are those
of the grammar, and each is read as the double that its value is rounded to.

* `NumberText.value`: the number that is written; `value_decimal` is the form the reader has it in.
* `NumberText.unsigned?_magnitude`, `NumberText.exists_of_unsigned?`: the reader finds the parts.
* `NumberText.float?_eq_some_iff`: which texts are read, and as what.
* `NumberText.mem_text`, `NumberText.count_point`, `NumberText.noDoubleMinus_text`: what may stand in
  a number text, and how often.
-/

namespace PocketCalc

/-- The sign in front of a number or of an exponent. -/
inductive SignMark where
  | absent
  | plus
  | minus
deriving DecidableEq

/-- How the sign is written. -/
def SignMark.text : SignMark → Text
  | absent => []
  | plus => ['+']
  | minus => ['-']

/-- An exponent with its mark: `[eE] [+-]? D+`. -/
structure Power where
  mark : Char
  sign : SignMark
  digits : Text
  mark_eq : mark = 'e' ∨ mark = 'E'
  digits_ne_nil : digits ≠ []
  isDigit : ∀ c ∈ digits, c.isDigit = true

namespace Power

/-- How the exponent is written. -/
def text (p : Power) : Text := p.mark :: (p.sign.text ++ p.digits)

/-- The exponent itself. -/
def scale (p : Power) : Int :=
  match p.sign with
  | .minus => -(Decimal.ofDigits p.digits : Int)
  | _ => Decimal.ofDigits p.digits

end Power

/-- A number text, part by part. There is a digit before the point or behind it. -/
structure NumberText where
  sign : SignMark
  whole : Text
  fraction : Option Text
  power : Option Power
  digits_ne_nil : whole ++ fraction.getD [] ≠ []
  isDigit_whole : ∀ c ∈ whole, c.isDigit = true
  isDigit_fraction : ∀ fs ∈ fraction, ∀ c ∈ fs, c.isDigit = true

namespace NumberText

/-- The digits behind the point. -/
def fractionDigits (n : NumberText) : Text := n.fraction.getD []

/-- How the digits behind the point are written, with the point. -/
def places (n : NumberText) : Text :=
  match n.fraction with
  | none => []
  | some fs => '.' :: fs

/-- How the power of ten is written. -/
def ending (n : NumberText) : Text :=
  match n.power with
  | none => []
  | some p => p.text

/-- The number text without its sign. -/
def magnitude (n : NumberText) : Text := n.whole ++ (n.places ++ n.ending)

/-- The number text. -/
def text (n : NumberText) : Text := n.sign.text ++ n.magnitude

/-- The exponent that is written. -/
def scale (n : NumberText) : Int :=
  match n.power with
  | none => 0
  | some p => p.scale

/-- The number without its sign: the digits in front of the point, those behind it as a fraction, and
the power of ten. -/
def value (n : NumberText) : ℚ :=
  (Decimal.ofDigits n.whole + Decimal.ofDigits n.fractionDigits / 10 ^ n.fractionDigits.length) *
    10 ^ n.scale

/-- The same number as the reader has it: all digits as one number, and the power of ten that the
point and the exponent give it. -/
def decimal (n : NumberText) : Decimal :=
  ⟨Decimal.ofDigits (n.whole ++ n.fractionDigits), n.scale - n.fractionDigits.length⟩

/-- Whether a minus sign stands in front. -/
def isNegative (n : NumberText) : Bool := n.sign = .minus

/-- The double is the one that the number is rounded to. -/
def RoundsTo (n : NumberText) (v : Float) : Prop :=
  Double.IsRounding v n.isNegative n.value

theorem RoundsTo.unique {n : NumberText} {v w : Float} (hv : n.RoundsTo v) (hw : n.RoundsTo w) :
    v = w :=
  Double.IsRounding.unique hv hw

end NumberText

/-! ## Reading a number text -/

namespace Power

open Decimal

theorem scale?_text (p : Power) : scale? p.text = some p.scale := by
  have hread : exponent? (p.sign.text ++ p.digits) = some p.scale := by
    unfold scale
    cases p.sign with
    | absent => exact exponent?_of_digits p.digits_ne_nil p.isDigit
    | minus => exact exponent?_minus p.digits_ne_nil p.isDigit
    | plus =>
      change (whole? p.digits).map Int.ofNat = _
      rw [whole?_of_digits p.digits_ne_nil p.isDigit]
      rfl
  rw [text, scale?, if_pos p.mark_eq, hread]

/-- What is read as digits consists of digits. -/
theorem of_whole? {t : Text} (h : whole? t ≠ none) : t ≠ [] ∧ ∀ c ∈ t, c.isDigit = true := by
  unfold whole? at h
  split at h
  · rename_i ht
    exact ⟨ht.1, List.all_eq_true.1 ht.2⟩
  · exact absurd rfl h

theorem exists_of_exponent? {t : Text} (h : exponent? t ≠ none) : ∃ (s : SignMark) (ds : Text),
    t = s.text ++ ds ∧ ds ≠ [] ∧ ∀ c ∈ ds, c.isDigit = true := by
  unfold exponent? at h
  split at h
  · exact ⟨.plus, _, rfl, of_whole? fun hn => h (by rw [hn]; rfl)⟩
  · exact ⟨.minus, _, rfl, of_whole? fun hn => h (by rw [hn]; rfl)⟩
  · exact ⟨.absent, t, rfl, of_whole? fun hn => h (by rw [hn]; rfl)⟩

end Power

namespace NumberText

open Decimal

theorem scale?_ending (n : NumberText) : scale? n.ending = some n.scale := by
  unfold ending scale
  cases n.power with
  | none => rfl
  | some p => exact p.scale?_text

/-- What may stand behind the digits is nothing or an exponent. -/
theorem exists_of_scale? {t : Text} (h : scale? t ≠ none) : ∃ p : Option Power, t =
    match p with
    | none => []
    | some p => p.text := by
  cases t with
  | nil => exact ⟨none, rfl⟩
  | cons c t =>
    rw [scale?] at h
    split at h
    · rename_i hmark
      obtain ⟨s, ds, ht, hne, hds⟩ := Power.exists_of_exponent? h
      exact ⟨some ⟨c, s, ds, hmark, hne, hds⟩, by rw [ht]; rfl⟩
    · exact absurd rfl h

theorem value_decimal (n : NumberText) : n.decimal.value = n.value := by
  have hdigits : ofDigits (n.whole ++ n.fractionDigits) =
      10 ^ n.fractionDigits.length * ofDigits n.whole + ofDigits n.fractionDigits := by
    rw [ofDigits, Nat.ofDigitChars_append, Nat.ofDigitChars_eq_ofDigitChars_zero]
    rfl
  rw [Decimal.value, decimal, value, hdigits, zpow_sub₀ (by norm_num), zpow_natCast]
  push_cast
  field_simp

/-- The reader finds the parts of a number text. -/
theorem unsigned?_magnitude (n : NumberText) : unsigned? n.magnitude = some n.decimal := by
  have hne := n.digits_ne_nil
  have hfs := n.isDigit_fraction
  unfold magnitude places decimal fractionDigits
  cases hf : n.fraction with
  | none =>
    rw [hf] at hne
    simpa using unsigned?_append (by simpa using hne) n.isDigit_whole n.scale?_ending
  | some fs =>
    rw [hf] at hne hfs
    exact unsigned?_append_point hne n.isDigit_whole (hfs fs rfl) n.scale?_ending

/-- What is read as a number without a sign has the parts of a number text. -/
theorem exists_of_unsigned? {t : Text} (s : SignMark) (h : unsigned? t ≠ none) :
    ∃ n : NumberText, n.sign = s ∧ n.magnitude = t := by
  have hsplit := List.takeWhile_append_dropWhile (p := Char.isDigit) (l := t)
  have hwhole : ∀ c ∈ t.takeWhile Char.isDigit, c.isDigit = true := fun c hc =>
    List.mem_takeWhile_imp hc
  unfold unsigned? at h
  dsimp only at h
  split at h
  · rename_i rest hrest
    split at h
    · exact absurd rfl h
    · rename_i hne
      obtain ⟨p, hp⟩ := exists_of_scale? (t := rest.dropWhile Char.isDigit)
        fun hn => h (by rw [hn]; rfl)
      have hfraction : ∀ fs ∈ some (rest.takeWhile Char.isDigit), ∀ c ∈ fs, c.isDigit = true := by
        rintro fs ⟨⟩ c hc
        exact List.mem_takeWhile_imp hc
      refine ⟨⟨s, _, some (rest.takeWhile Char.isDigit), p, hne, hwhole, hfraction⟩, rfl, ?_⟩
      rw [magnitude, ending, ← hp, places, List.cons_append, List.takeWhile_append_dropWhile,
        ← hrest, hsplit]
  · split at h
    · exact absurd rfl h
    · rename_i hne
      obtain ⟨p, hp⟩ := exists_of_scale? (t := t.dropWhile Char.isDigit)
        fun hn => h (by rw [hn]; rfl)
      refine ⟨⟨s, _, none, p, by simpa using hne, hwhole, by simp⟩, rfl, ?_⟩
      rw [magnitude, ending, ← hp, places, List.nil_append, hsplit]

/-- A number text is read as the double that its value is rounded to. -/
theorem float?_text (n : NumberText) : ∃ v, float? n.text = some v ∧ n.RoundsTo v := by
  have hread := n.unsigned?_magnitude
  have hround := n.value_decimal ▸ isRounding_toFloat n.decimal
  unfold text RoundsTo isNegative
  cases n.sign with
  | absent => exact ⟨_, float?_of_unsigned? false hread, hround⟩
  | plus => exact ⟨_, congrArg (Option.map toFloat) hread, hround⟩
  | minus => exact ⟨_, float?_of_unsigned? true hread, hround.neg⟩

/-- What is read as a number is a number text. -/
theorem exists_of_float? {t : Text} (h : float? t ≠ none) : ∃ n : NumberText, n.text = t := by
  have hparts (s : SignMark) {u : Text} (hu : unsigned? u ≠ none) : ∃ n : NumberText,
      n.text = s.text ++ u := by
    obtain ⟨n, rfl, rfl⟩ := exists_of_unsigned? s hu
    exact ⟨n, rfl⟩
  unfold float? at h
  split at h
  · exact hparts .minus fun hn => h (by rw [hn]; rfl)
  · exact hparts .plus fun hn => h (by rw [hn]; rfl)
  · exact hparts .absent fun hn => h (by rw [hn]; rfl)

/-- The texts that are read as numbers are those of the grammar, and each is read as the double that
its value is rounded to. -/
theorem float?_eq_some_iff {t : Text} {v : Float} :
    float? t = some v ↔ ∃ n : NumberText, n.text = t ∧ n.RoundsTo v := by
  constructor
  · intro h
    obtain ⟨n, rfl⟩ := exists_of_float? (h ▸ Option.some_ne_none v)
    obtain ⟨w, hw, hround⟩ := n.float?_text
    have hwv : w = v := Option.some.inj (hw.symm.trans h)
    exact ⟨n, rfl, hwv ▸ hround⟩
  · rintro ⟨n, rfl, hv⟩
    obtain ⟨w, hw, hround⟩ := n.float?_text
    rw [hw, hround.unique hv]

end NumberText

/-! ## The characters of a number text -/

/-- No minus sign stands behind another one. -/
def NoDoubleMinus (t : Text) : Prop := t.IsChain fun a b => a = '-' → b ≠ '-'

theorem NoDoubleMinus.append_left {s t : Text} (hs : '-' ∉ s) (ht : NoDoubleMinus t) :
    NoDoubleMinus (s ++ t) := by
  induction s with
  | nil => exact ht
  | cons c s ih =>
    have hc : c ≠ '-' := fun h => hs (h ▸ List.mem_cons_self)
    exact List.isChain_cons.2 ⟨fun _ _ h => absurd h hc, ih fun h => hs (List.mem_cons_of_mem _ h)⟩

theorem SignMark.noDoubleMinus_append (s : SignMark) {t : Text} (ht : NoDoubleMinus t)
    (hhead : t.head? ≠ some '-') : NoDoubleMinus (s.text ++ t) := by
  cases s with
  | absent => exact ht
  | plus => exact ht.append_left (by decide)
  | minus => exact List.isChain_cons.2 ⟨fun c hc _ h => hhead (h ▸ hc), ht⟩

theorem SignMark.mem_text {s : SignMark} {c : Char} (h : c ∈ s.text) : c = '+' ∨ c = '-' := by
  cases s <;> simp_all [text]

namespace Power

variable (p : Power)

theorem mem_text {c : Char} (h : c ∈ p.text) : c.isDigit = true ∨ c ∈ ['.', '+', '-', 'e', 'E'] := by
  rcases List.mem_cons.1 h with rfl | h
  · rcases p.mark_eq with h | h <;> simp [h]
  · rcases List.mem_append.1 h with h | h
    · rcases SignMark.mem_text h with rfl | rfl <;> simp
    · exact .inl (p.isDigit c h)

theorem noDoubleMinus_text : NoDoubleMinus p.text := by
  have hdigits : '-' ∉ p.digits := Text.not_mem_of_digits p.isDigit rfl
  have hmark : '-' ∉ [p.mark] := by
    rcases p.mark_eq with h | h <;> simp [h]
  have hrow : NoDoubleMinus p.digits := by
    simpa using NoDoubleMinus.append_left hdigits (t := []) .nil
  refine NoDoubleMinus.append_left (s := [p.mark]) hmark (p.sign.noDoubleMinus_append hrow ?_)
  exact fun h => hdigits (List.mem_of_mem_head? h)

theorem not_point_mem_text : '.' ∉ p.text := by
  intro h
  rcases List.mem_cons.1 h with h | h
  · rcases p.mark_eq with hm | hm <;> simp [hm] at h
  · rcases List.mem_append.1 h with h | h
    · rcases SignMark.mem_text h with h | h <;> cases h
    · exact Text.not_mem_of_digits p.isDigit rfl h

end Power

namespace NumberText

variable (n : NumberText)

theorem mem_places {c : Char} (h : c ∈ n.places) : c = '.' ∨ c.isDigit = true := by
  have hfs := n.isDigit_fraction
  unfold places at h
  split at h
  · cases h
  · rename_i fs hf
    exact (List.mem_cons.1 h).imp_right (hfs fs hf c)

theorem mem_text {c : Char} (h : c ∈ n.text) : c.isDigit = true ∨ c ∈ ['.', '+', '-', 'e', 'E'] := by
  rw [text, magnitude, List.mem_append, List.mem_append, List.mem_append] at h
  rcases h with h | h | h | h
  · rcases SignMark.mem_text h with rfl | rfl <;> simp
  · exact .inl (n.isDigit_whole c h)
  · rcases n.mem_places h with rfl | h
    · simp
    · exact .inl h
  · unfold ending at h
    split at h
    · cases h
    · exact Power.mem_text _ h

/-- There is one point at most. -/
theorem count_point : n.text.count '.' ≤ 1 := by
  have hsign : '.' ∉ n.sign.text := fun h => by rcases SignMark.mem_text h with h | h <;> cases h
  have hwhole : '.' ∉ n.whole := Text.not_mem_of_digits n.isDigit_whole rfl
  have hplaces : n.places.count '.' ≤ 1 := by
    have hfs := n.isDigit_fraction
    unfold places
    split
    · simp
    · rename_i fs hf
      have hpoint : '.' ∉ fs := Text.not_mem_of_digits (hfs fs hf) rfl
      simp [List.count_eq_zero_of_not_mem hpoint]
  have hending : '.' ∉ n.ending := by
    unfold ending
    split
    · simp
    · exact Power.not_point_mem_text _
  rw [text, magnitude, List.count_append, List.count_append, List.count_append,
    List.count_eq_zero_of_not_mem hsign, List.count_eq_zero_of_not_mem hwhole,
    List.count_eq_zero_of_not_mem hending]
  omega

theorem whole_append_places_ne_nil : n.whole ++ n.places ≠ [] := by
  intro h
  obtain ⟨hwhole, hplaces⟩ := List.append_eq_nil_iff.1 h
  have hne := n.digits_ne_nil
  unfold places at hplaces
  cases hf : n.fraction with
  | none => simp [hwhole, hf] at hne
  | some fs => simp [hf] at hplaces

theorem noDoubleMinus_text : NoDoubleMinus n.text := by
  have hfront : '-' ∉ n.whole ++ n.places := by
    intro h
    rcases List.mem_append.1 h with h | h
    · exact Text.not_mem_of_digits n.isDigit_whole rfl h
    · rcases n.mem_places h with h | h <;> cases h
  have hending : NoDoubleMinus n.ending := by
    unfold ending
    split
    · exact .nil
    · exact Power.noDoubleMinus_text _
  rw [text, magnitude, ← List.append_assoc n.whole]
  refine n.sign.noDoubleMinus_append (hending.append_left hfront) fun h => hfront ?_
  rw [List.head?_append_of_ne_nil _ n.whole_append_places_ne_nil] at h
  exact List.mem_of_mem_head? h

end NumberText

end PocketCalc
