import PocketCalc.Proofs.Decimal.Reading
import PocketCalc.Proofs.Decimal.Significant
import PocketCalc.Proofs.Tool.Duration

/-!
# Clock texts

The text of a length has three numbers with colons between them. They stand for the length, and none
of them is against its sign. Padding is done to each number alone and counts its minus sign, so the
text of a negative length looks like a clock only where the minutes and the seconds are zero.

* `clock_bounds`: the three numbers.
* `clockParts_clockText`: the text reads as the three numbers.
* `result_exact`: what is computed of two durations is exact, or there is nothing.
* `isClockText_clockText_iff`, `result_form`: the lengths whose text looks like a clock.
-/

namespace PocketCalc

namespace Duration

/-! ## The three numbers -/

theorem clock_natCast (k : Nat) :
    clock k = (((k / 3600 : Nat) : Int), ((k % 3600 / 60 : Nat) : Int), ((k % 60 : Nat) : Int)) :=
  rfl

theorem clock_neg (n : Int) : clock (-n) = (-(clock n).1, -(clock n).2.1, -(clock n).2.2) := by
  simp only [clock, Int.neg_tdiv, Int.neg_tmod]

/-- Minutes and seconds are below sixty, and all three numbers have the sign of the length. -/
theorem clock_bounds (n : Int) : (clock n).2.1.natAbs < 60 ∧ (clock n).2.2.natAbs < 60 ∧
    (0 ≤ n → 0 ≤ (clock n).1 ∧ 0 ≤ (clock n).2.1 ∧ 0 ≤ (clock n).2.2) ∧
    (n ≤ 0 → (clock n).1 ≤ 0 ∧ (clock n).2.1 ≤ 0 ∧ (clock n).2.2 ≤ 0) := by
  obtain ⟨k, rfl | rfl⟩ := n.eq_nat_or_neg
  · rw [clock_natCast]
    dsimp only
    omega
  · rw [clock_neg, clock_natCast]
    dsimp only
    omega

/-! ## The three texts -/

/-- The whole numbers between the colons of a text. -/
def clockParts (t : Text) : List (Option Int) := (t.splitOn ':').map Decimal.exponent?

theorem exponent?_twoPlaces (x : Int) : Decimal.exponent? (twoPlaces x) = some x := by
  cases x with
  | ofNat n =>
    have hne : Decimal.padTo 2 (Decimal.digits n) ≠ [] :=
      List.append_ne_nil_of_right_ne_nil _ (Decimal.digits_ne_nil n)
    rw [twoPlaces, Decimal.exponent?_of_digits hne fun c => Decimal.isDigit_of_mem_padTo,
      Decimal.ofDigits_padTo, Decimal.ofDigits_digits]
    rfl
  | negSucc n =>
    rw [twoPlaces, Decimal.exponent?_minus (Decimal.digits_ne_nil _) fun c =>
      Decimal.isDigit_of_mem_digits, Decimal.ofDigits_digits]
    rfl

theorem colon_not_mem_twoPlaces (x : Int) : ':' ∉ twoPlaces x := by
  cases x with
  | ofNat n => exact Text.not_mem_of_digits (fun c => Decimal.isDigit_of_mem_padTo) rfl
  | negSucc n =>
    rw [twoPlaces, List.mem_cons, not_or]
    exact ⟨by decide, Text.not_mem_of_digits (fun c => Decimal.isDigit_of_mem_digits) rfl⟩

theorem splitOn_colons {a b c : Text} (ha : ':' ∉ a) (hb : ':' ∉ b) (hc : ':' ∉ c) :
    (a ++ ':' :: b ++ ':' :: c).splitOn ':' = [a, b, c] := by
  have hmem : ∀ l ∈ [a, b, c], ':' ∉ l := by simp [ha, hb, hc]
  simpa [List.intercalate] using List.splitOn_intercalate ':' hmem (by simp)

theorem splitOn_clockText (n : Int) : (clockText n).splitOn ':' =
    [twoPlaces (clock n).1, twoPlaces (clock n).2.1, twoPlaces (clock n).2.2] :=
  splitOn_colons (colon_not_mem_twoPlaces _) (colon_not_mem_twoPlaces _) (colon_not_mem_twoPlaces _)

theorem clockParts_clockText (n : Int) :
    clockParts (clockText n) = [some (clock n).1, some (clock n).2.1, some (clock n).2.2] := by
  simp [clockParts, splitOn_clockText, exponent?_twoPlaces]

/-! ## Exact results -/

/-- A length that is computed is the exact one, and without opposite signs there is one whenever that
fits into 64 bits. Of two lengths there is a result exactly when the exact one fits, and its text has
the three numbers of the exact result. The durations may change places. -/
theorem result_exact (op : TimeOperation) (d e : Duration) :
    ((∀ t, d.total? = some t → t.toInt = d.length) ∧
      (SameSign d.hours.toInt d.minutes.toInt d.seconds.toInt →
        (d.total? = none ↔ ¬ FitsWord d.length))) ∧
    (∀ a b, d.total? = some a → e.total? = some b →
      (resultText? op d e = none ↔ ¬ FitsWord (op.apply a.toInt b.toInt)) ∧
      ∀ t, resultText? op d e = some t → ∃ h m s : Int, clockParts t = [some h, some m, some s] ∧
        3600 * h + 60 * m + s = op.apply a.toInt b.toInt ∧
        m.natAbs < 60 ∧ s.natAbs < 60 ∧ SameSign h m s) ∧
    resultText? op d e = resultText? op e d := by
  refine ⟨⟨fun t => toInt_of_total?, total?_eq_none_iff⟩, ?_, resultText?_comm op d e⟩
  intro a b ha hb
  rw [resultText?_of_total? ha hb]
  refine ⟨by rw [Option.map_eq_none_iff, combine?_eq_none_iff], ?_⟩
  intro t ht
  obtain ⟨r, hr, rfl⟩ := Option.map_eq_some_iff.1 ht
  obtain ⟨hm, hs, hpos, hneg⟩ := clock_bounds r.toInt
  refine ⟨_, _, _, clockParts_clockText r.toInt, ?_, hm, hs, ?_⟩
  · rw [clock_eq, toInt_of_combine? hr]
  · exact (Int.le_total 0 r.toInt).imp hpos hneg

/-- The least length of all has a sum with zero but no distance from it, in either order. -/
theorem result_exact_of_least :
    let d : Duration := ⟨0, 0, Int64.minValue⟩
    let e : Duration := ⟨0, 0, 0⟩
    d.total? = some Int64.minValue ∧ e.total? = some 0 ∧
    resultText? .difference d e = none ∧ resultText? .difference e d = none ∧
    (∀ t, resultText? .sum d e = some t → ∃ h m s : Int,
      clockParts t = [some h, some m, some s] ∧ 3600 * h + 60 * m + s = Int64.minValue.toInt + 0) ∧
    resultText? .sum d e = some "-2562047788015215:-30:-8".toList := by
  intro d e
  have hd : d.total? = some Int64.minValue := by decide +kernel
  have he : e.total? = some 0 := by decide +kernel
  have hdistance := ((result_exact .difference d e).2.1 _ _ hd he).1.2 (by decide +kernel)
  refine ⟨hd, he, hdistance, (result_exact .difference d e).2.2 ▸ hdistance, fun t ht => ?_,
    by decide +kernel⟩
  obtain ⟨h, m, s, hparts, hvalue, -⟩ := ((result_exact .sum d e).2.1 _ _ hd he).2 t ht
  exact ⟨h, m, s, hparts, hvalue⟩

/-! ## The form of a clock -/

/-- Two digits that stand for a number below sixty. -/
def IsSixtieth (t : Text) : Prop :=
  t.length = 2 ∧ (∀ c ∈ t, c.isDigit = true) ∧ Decimal.ofDigits t < 60

/-- Two digits or more, perhaps with a minus sign in front. -/
def IsHours (t : Text) : Prop :=
  ∃ sign ds : Text, t = sign ++ ds ∧ (sign = [] ∨ sign = ['-']) ∧ 2 ≤ ds.length ∧
    ∀ c ∈ ds, c.isDigit = true

/-- A text that looks like a clock: hours, minutes and seconds with colons between them. -/
def IsClockText (t : Text) : Prop :=
  ∃ hours minutes seconds : Text, t = hours ++ ':' :: minutes ++ ':' :: seconds ∧
    IsHours hours ∧ IsSixtieth minutes ∧ IsSixtieth seconds

theorem IsHours.colon_not_mem {t : Text} (h : IsHours t) : ':' ∉ t := by
  obtain ⟨sign, ds, rfl, hsign, -, hds⟩ := h
  rw [List.mem_append, not_or]
  refine ⟨?_, Text.not_mem_of_digits hds rfl⟩
  rcases hsign with rfl | rfl <;> decide

theorem isSixtieth_twoPlaces_iff {x : Int} (hx : x.natAbs < 60) :
    IsSixtieth (twoPlaces x) ↔ 0 ≤ x := by
  cases x with
  | ofNat n =>
    refine iff_of_true ⟨?_, fun c => Decimal.isDigit_of_mem_padTo, ?_⟩ (Int.natCast_nonneg n)
    · exact Decimal.length_padTo_digits (by simp at hx; omega)
    · rw [twoPlaces, Decimal.ofDigits_padTo, Decimal.ofDigits_digits]
      exact hx
  | negSucc n =>
    refine iff_of_false (fun h => ?_) (by omega)
    exact absurd (h.2.1 '-' (by simp [twoPlaces])) (by decide)

/-- A minus sign takes the place of a padding zero, so negative hours need two digits of their
own. -/
theorem isHours_twoPlaces_iff {x : Int} : IsHours (twoPlaces x) ↔ 0 ≤ x ∨ x ≤ -10 := by
  cases x with
  | ofNat n =>
    have hlength : 2 ≤ (Decimal.padTo 2 (Decimal.digits n)).length := by
      rw [Decimal.length_padTo]
      exact Nat.le_max_left _ _
    exact iff_of_true ⟨[], _, rfl, .inl rfl, hlength, fun c => Decimal.isDigit_of_mem_padTo⟩
      (.inl (Int.natCast_nonneg n))
  | negSucc n =>
    have hlength : 2 ≤ (Decimal.digits (n + 1)).length ↔ Int.negSucc n ≤ -10 := by
      constructor
      · intro h
        have hlow : _ ≤ n + 1 := Decimal.ten_pow_length_le (Nat.succ_pos n)
        have := Nat.pow_le_pow_right (show 0 < 10 by decide) (Nat.sub_le_sub_right h 1)
        omega
      · intro h
        by_contra hlt
        have hhigh := Decimal.lt_ten_pow_length (n + 1)
        have := Nat.pow_le_pow_right (show 0 < 10 by decide) (Nat.le_of_lt_succ (not_le.1 hlt))
        omega
    rw [or_iff_right (by omega), ← hlength]
    constructor
    · rintro ⟨sign, ds, ht, rfl | rfl, hlen, hds⟩
      · exact absurd (hds '-' (by rw [← List.nil_append ds, ← ht]; simp [twoPlaces])) (by decide)
      · rw [twoPlaces] at ht
        cases ht
        exact hlen
    · exact fun h => ⟨['-'], _, rfl, .inr rfl, h, fun c => Decimal.isDigit_of_mem_digits⟩

/-- The lengths whose text looks like a clock: those that are not negative, and whole hours from ten
hours below zero on. -/
theorem isClockText_clockText_iff (n : Int) :
    IsClockText (clockText n) ↔ 0 ≤ n ∨ n ≤ -36000 ∧ 3600 ∣ n := by
  have hvalue := clock_eq n
  obtain ⟨hm, hs, hpos, hneg⟩ := clock_bounds n
  have hfields : IsClockText (clockText n) ↔ IsHours (twoPlaces (clock n).1) ∧
      IsSixtieth (twoPlaces (clock n).2.1) ∧ IsSixtieth (twoPlaces (clock n).2.2) := by
    constructor
    · rintro ⟨hours, minutes, seconds, ht, h₁, h₂, h₃⟩
      have hsplit := splitOn_clockText n
      rw [ht, splitOn_colons h₁.colon_not_mem (Text.not_mem_of_digits h₂.2.1 rfl)
        (Text.not_mem_of_digits h₃.2.1 rfl)] at hsplit
      simp only [List.cons.injEq, and_true] at hsplit
      obtain ⟨rfl, rfl, rfl⟩ := hsplit
      exact ⟨h₁, h₂, h₃⟩
    · rintro ⟨h₁, h₂, h₃⟩
      exact ⟨_, _, _, rfl, h₁, h₂, h₃⟩
  rw [hfields, isHours_twoPlaces_iff, isSixtieth_twoPlaces_iff hm, isSixtieth_twoPlaces_iff hs]
  omega

/-- The result of two durations looks like a clock exactly when it is not negative, as a distance
always is, or is ten whole hours or more below zero. -/
theorem result_form (op : TimeOperation) (d e : Duration) (t : Text)
    (h : resultText? op d e = some t) :
    IsClockText t ↔ 0 ≤ op.apply d.length e.length ∨
      op.apply d.length e.length ≤ -36000 ∧ 3600 ∣ op.apply d.length e.length := by
  rcases resultText?_cases op d e with hnone | ⟨-, hsome⟩
  · cases hnone.symm.trans h
  · cases hsome.symm.trans h
    exact isClockText_clockText_iff _

/-- Ten hours below zero look like a clock. -/
theorem result_form_of_ten_hours : resultText? .sum ⟨-10, 0, 0⟩ ⟨0, 0, 0⟩ = some "-10:00:00".toList ∧
    IsClockText "-10:00:00".toList := by
  have h : resultText? .sum ⟨-10, 0, 0⟩ ⟨0, 0, 0⟩ = some "-10:00:00".toList := by decide +kernel
  exact ⟨h, (result_form _ _ _ _ h).2 (.inr (by decide +kernel))⟩

/-- Five seconds below zero do not: the sign stands in the last field, next to a single digit. -/
theorem five_seconds_below_zero : resultText? .sum ⟨0, 0, -5⟩ ⟨0, 0, 0⟩ = some "00:00:-5".toList ∧
    ¬ IsClockText "00:00:-5".toList ∧
    ¬ ∀ op d e t, resultText? op d e = some t → IsClockText t := by
  have hresult : resultText? .sum ⟨0, 0, -5⟩ ⟨0, 0, 0⟩ = some "00:00:-5".toList := by decide +kernel
  have htext : clockText (-5) = "00:00:-5".toList := by decide +kernel
  have hform : ¬ IsClockText "00:00:-5".toList := by
    rw [← htext, isClockText_clockText_iff]
    decide
  exact ⟨hresult, hform, fun h => hform (h _ _ _ _ hresult)⟩

end Duration

end PocketCalc
