import Mathlib.Tactic.FieldSimp
import Mathlib.Tactic.Linarith
import Mathlib.Tactic.Positivity
import PocketCalc.Decimal.Shortest
import PocketCalc.Proofs.Decimal.Range

/-!
# Rounded magnitudes

The order of a magnitude is the power of ten at its first digit. Rounded to six digits, a double has
six digits again, and the largest double is rounded down: so a rounded double is never beyond the
range of doubles. The shortest decimal is never written with an exponent.

* `Magnitude.order_bounds`: a magnitude lies between two powers of ten.
* `Magnitude.significant_bounds`: six digits and no more, below the largest double.
* `Magnitude.shortest_cases`: where the shortest decimal comes from.
-/

namespace PocketCalc

namespace Decimal

/-! ## Numbers of digits -/

theorem lt_ten_pow_length (n : Nat) : n < 10 ^ (digits n).length :=
  (Nat.length_toDigits_le_iff (by decide) Nat.length_toDigits_pos).1 (le_refl _)

theorem ten_pow_length_le {n : Nat} (hn : 0 < n) : 10 ^ ((digits n).length - 1) ≤ n := by
  have hpos : 0 < (digits n).length := Nat.length_toDigits_pos
  by_cases h : (digits n).length - 1 = 0
  · rw [h]
    exact hn
  · refine Nat.le_of_not_lt fun hlt => ?_
    have := (Nat.length_toDigits_le_iff (by decide) (Nat.pos_of_ne_zero h)).2 hlt
    change (digits n).length ≤ _ at this
    omega

end Decimal

theorem zpow_eq_div {x : ℚ} (hx : x ≠ 0) (e : Int) : x ^ e = x ^ e.toNat / x ^ (-e).toNat := by
  rw [eq_div_iff (pow_ne_zero _ hx), ← zpow_natCast, ← zpow_natCast, ← zpow_add₀ hx]
  congr 1
  omega

namespace Magnitude

/-- The number that a magnitude stands for. -/
def value (m : Magnitude) : ℚ := m.mantissa * 2 ^ m.exponent

theorem value_pos {m : Magnitude} (hm : m.mantissa ≠ 0) : 0 < m.value :=
  mul_pos (by exact_mod_cast Nat.pos_of_ne_zero hm) (Double.two_zpow_pos _)

theorem scaled_pos (m : Magnitude) (p : Int) : 0 < (m.scaled p).2 := by
  simp only [scaled, Nat.pow_eq]
  positivity

theorem scaled_eq (m : Magnitude) (p : Int) :
    ((m.scaled p).1 : ℚ) = m.value * 10 ^ p * (m.scaled p).2 := by
  unfold scaled value
  simp only [Nat.pow_eq]
  push_cast
  rw [zpow_eq_div two_ne_zero m.exponent, zpow_eq_div (show (10 : ℚ) ≠ 0 by norm_num) p]
  field_simp

/-! ## The order -/

theorem value_eq_div (m : Magnitude) : m.value = (m.scaled 0).1 / (m.scaled 0).2 := by
  have hd : ((m.scaled 0).2 : ℚ) ≠ 0 := by exact_mod_cast (m.scaled_pos 0).ne'
  rw [eq_div_iff hd, scaled_eq, zpow_zero, mul_one]

theorem order_bounds {m : Magnitude} (hm : m.mantissa ≠ 0) :
    (10 : ℚ) ^ m.order ≤ m.value ∧ m.value < 10 ^ (m.order + 1) := by
  have hd := m.scaled_pos 0
  have hn : 0 < (m.scaled 0).1 := by
    have hpos := value_pos hm
    have hd' : (0 : ℚ) < (m.scaled 0).2 := by exact_mod_cast hd
    rw [value_eq_div, div_pos_iff_of_pos_right hd'] at hpos
    exact_mod_cast hpos
  rw [value_eq_div]
  unfold order
  generalize m.scaled 0 = s at hd hn
  obtain ⟨n, d⟩ := s
  have hd' : (0 : ℚ) < d := by exact_mod_cast hd
  have hn' : (0 : ℚ) < n := by exact_mod_cast hn
  dsimp only at hd hn ⊢
  rw [le_div_iff₀ hd', div_lt_iff₀ hd']
  split
  · rename_i hle
    -- The whole part has the digits in front of the point.
    have hq : 0 < n / d := Nat.div_pos hle hd
    have hlow := Decimal.ten_pow_length_le hq
    have hhigh := Decimal.lt_ten_pow_length (n / d)
    have hpos : 0 < (Decimal.digits (n / d)).length := Nat.length_toDigits_pos
    generalize (Decimal.digits (n / d)).length = k at hlow hhigh hpos
    obtain ⟨k, rfl⟩ := Nat.exists_eq_add_one.2 hpos
    rw [show ((k + 1 : Nat) : Int) - 1 = (k : Nat) by omega, ← Nat.cast_succ, zpow_natCast,
      zpow_natCast]
    rw [Nat.add_sub_cancel, Nat.le_div_iff_mul_le hd] at hlow
    rw [Nat.div_lt_iff_lt_mul hd] at hhigh
    exact ⟨by exact_mod_cast hlow, by exact_mod_cast hhigh⟩
  · rename_i hlt
    -- The reciprocal has one digit more than there are zeros behind the point.
    have hq : 0 < (d - 1) / n := Nat.div_pos (by omega) hn
    have hlow := Decimal.ten_pow_length_le hq
    have hhigh := Decimal.lt_ten_pow_length ((d - 1) / n)
    have hpos : 0 < (Decimal.digits ((d - 1) / n)).length := Nat.length_toDigits_pos
    generalize (Decimal.digits ((d - 1) / n)).length = k at hlow hhigh hpos
    obtain ⟨k, rfl⟩ := Nat.exists_eq_add_one.2 hpos
    rw [show -((k + 1 : Nat) : Int) + 1 = -(k : Nat) by omega, zpow_neg, zpow_neg, zpow_natCast,
      zpow_natCast, inv_mul_le_iff₀ (by positivity), lt_inv_mul_iff₀ (by positivity)]
    rw [Nat.add_sub_cancel, Nat.le_div_iff_mul_le hn] at hlow
    rw [Nat.div_lt_iff_lt_mul hn] at hhigh
    have hlow : 10 ^ k * n < d := by omega
    have hhigh : d ≤ 10 ^ (k + 1) * n := by omega
    exact ⟨by exact_mod_cast hhigh, by exact_mod_cast hlow⟩

/-! ## Six digits -/

theorem roundedQuotient_le {n d k : Nat} (hd : 0 < d) (h : 2 * n < (2 * k + 1) * d) :
    roundedQuotient n d ≤ k := by
  have hnear := (roundedQuotient_near n hd).2
  have : 2 * roundedQuotient n d * d < (2 * k + 2) * d := by
    rw [Nat.mul_assoc]
    have : (2 * k + 2) * d = (2 * k + 1) * d + d := by rw [← Nat.succ_mul]
    omega
  have := Nat.lt_of_mul_lt_mul_right this
  omega

/-- A bound on a scaled magnitude bounds what it is rounded to. -/
theorem coefficient_rounded_le {m : Magnitude} {p : Int} {k : Nat}
    (h : 2 * (m.value * 10 ^ p) < 2 * k + 1) : (m.rounded p).coefficient ≤ k := by
  refine roundedQuotient_le (m.scaled_pos p) ?_
  have hd : (0 : ℚ) < (m.scaled p).2 := by exact_mod_cast m.scaled_pos p
  have : (2 * (m.scaled p).1 : ℚ) < (2 * k + 1) * (m.scaled p).2 := by
    rw [scaled_eq, ← mul_assoc]
    exact mul_lt_mul_of_pos_right h hd
  exact_mod_cast this

theorem largest_lt_six_digits : 2 * Double.largest < 359539 * 10 ^ (303 : Int) := by
  have h : 2 * (9007199254740991 * 2 ^ 971) < 359539 * 10 ^ 303 := by decide +kernel
  unfold Double.largest
  exact_mod_cast h

theorem six_digits_lt_largest : 179769 * 10 ^ (303 : Int) < Double.largest := by
  have h : 179769 * 10 ^ 303 < 9007199254740991 * 2 ^ 971 := by decide +kernel
  unfold Double.largest
  exact_mod_cast h

theorem ten_zpow_lt_largest {e : Int} (he : e ≤ 308) : (10 : ℚ) ^ e < Double.largest := by
  calc (10 : ℚ) ^ e ≤ 10 ^ (308 : Int) := zpow_le_zpow_right₀ (by norm_num) he
    _ = 100000 * 10 ^ (303 : Int) := by
      rw [show (308 : Int) = 5 + 303 from rfl, zpow_add₀ (by norm_num)]
      norm_num
    _ < 179769 * 10 ^ (303 : Int) :=
      mul_lt_mul_of_pos_right (by norm_num) (Decimal.ten_zpow_pos 303)
    _ < Double.largest := six_digits_lt_largest

theorem order_le {m : Magnitude} (hm : m.mantissa ≠ 0) (hmax : m.value ≤ Double.largest) :
    m.order ≤ 308 := by
  have hlt : (10 : ℚ) ^ m.order < 10 ^ (309 : Int) := by
    calc (10 : ℚ) ^ m.order ≤ m.value := (order_bounds hm).1
      _ ≤ Double.largest := hmax
      _ ≤ 2 * Double.largest := le_mul_of_one_le_left Double.largest_pos.le (by norm_num)
      _ < 359539 * 10 ^ (303 : Int) := largest_lt_six_digits
      _ ≤ 1000000 * 10 ^ (303 : Int) :=
        mul_le_mul_of_nonneg_right (by norm_num) (Decimal.ten_zpow_pos 303).le
      _ = 10 ^ (309 : Int) := by
        rw [show (309 : Int) = 6 + 303 from rfl, zpow_add₀ (by norm_num)]
        norm_num
  have := (zpow_lt_zpow_iff_right₀ (show (1 : ℚ) < 10 by norm_num)).1 hlt
  omega

/-- The largest double is rounded down, and all others of its order are below it. -/
theorem coefficient_of_order_eq {m : Magnitude} (hmax : m.value ≤ Double.largest)
    (ho : m.order = 308) : (m.rounded (5 - m.order)).coefficient ≤ 179769 := by
  refine coefficient_rounded_le ?_
  rw [ho, show (5 : Int) - 308 = -303 from rfl, zpow_neg, ← mul_assoc,
    mul_inv_lt_iff₀ (Decimal.ten_zpow_pos 303)]
  calc 2 * m.value ≤ 2 * Double.largest := mul_le_mul_of_nonneg_left hmax (by norm_num)
    _ < 359539 * 10 ^ (303 : Int) := largest_lt_six_digits
    _ = (2 * (179769 : Nat) + 1) * 10 ^ (303 : Int) := by norm_num

/-- Rounding to six digits gives a seventh only at a power of ten. -/
theorem coefficient_rounded {m : Magnitude} (hm : m.mantissa ≠ 0) :
    (m.rounded (5 - m.order)).coefficient ≤ 10 ^ 6 := by
  refine coefficient_rounded_le ?_
  have : m.value * 10 ^ (5 - m.order) < 10 ^ 6 := by
    calc m.value * 10 ^ (5 - m.order) < 10 ^ (m.order + 1) * 10 ^ (5 - m.order) :=
          mul_lt_mul_of_pos_right (order_bounds hm).2 (Decimal.ten_zpow_pos _)
      _ = 10 ^ 6 := by
        rw [← zpow_add₀ (by norm_num), show m.order + 1 + (5 - m.order) = 6 by ring]
        norm_num
  push_cast
  linarith

theorem significant_bounds {m : Magnitude} (hm : m.mantissa ≠ 0) (hmax : m.value ≤ Double.largest) :
    (m.significant 5).coefficient < 10 ^ 6 ∧ (m.significant 5).value < Double.largest := by
  have horder := order_le hm hmax
  have hle := coefficient_rounded hm
  have hexp : (m.rounded (5 - m.order)).exponent = m.order - 5 := neg_sub _ _
  unfold significant
  rw [if_neg hm]
  simp only [Nat.cast_ofNat, Nat.pow_eq]
  by_cases ho : m.order = 308
  · have hle := coefficient_of_order_eq hmax ho
    rw [if_pos (by omega)]
    refine ⟨by omega, lt_of_le_of_lt ?_ six_digits_lt_largest⟩
    rw [Decimal.value, hexp, show m.order - 5 = 303 by omega]
    exact mul_le_mul_of_nonneg_right (by exact_mod_cast hle) (Decimal.ten_zpow_pos _).le
  · have hsplit : (10 : ℚ) ^ (m.order + 1) = 10 ^ 6 * 10 ^ (m.order - 5) := by
      rw [show m.order + 1 = (6 : Nat) + (m.order - 5) by push_cast; ring, zpow_add₀ (by norm_num),
        zpow_natCast]
    have hpower := ten_zpow_lt_largest (e := m.order + 1) (by omega)
    by_cases hlt : (m.rounded (5 - m.order)).coefficient < 10 ^ 6
    · rw [if_pos hlt]
      refine ⟨hlt, lt_trans ?_ hpower⟩
      rw [Decimal.value, hexp, hsplit]
      exact mul_lt_mul_of_pos_right (by exact_mod_cast hlt) (Decimal.ten_zpow_pos _)
    · rw [if_neg hlt]
      have heq : (m.rounded (5 - m.order)).coefficient = 10 ^ 6 := by omega
      refine ⟨by simp [heq], lt_of_eq_of_lt ?_ hpower⟩
      rw [Decimal.value, hexp, heq, hsplit, zpow_add₀ (by norm_num)]
      norm_num
      ring

end Magnitude

/-! ## Reduced decimals -/

namespace Decimal

theorem exponent_reduce_nonpos (c k : Nat) : (reduce c k).exponent ≤ 0 := by
  induction k generalizing c with
  | zero => exact le_refl _
  | succ k ih =>
    unfold reduce
    split
    · exact ih _
    · exact Int.neg_nonpos_of_nonneg (Int.natCast_nonneg _)

theorem exponent_reduced_nonpos (d : Decimal) : d.reduced.exponent ≤ 0 := by
  unfold reduced
  split
  · exact le_refl _
  · exact exponent_reduce_nonpos _ _

theorem value_reduce (c k : Nat) : (reduce c k).value = c * 10 ^ (-(k : Int)) := by
  induction k generalizing c with
  | zero => rfl
  | succ k ih =>
    unfold reduce
    split
    · rename_i h
      have hc : (c : ℚ) = 10 * (c / 10 : Nat) := by exact_mod_cast (by omega : c = 10 * (c / 10))
      rw [ih, hc, mul_comm 10, mul_assoc, show -(k : Int) = 1 + -((k + 1 : Nat) : Int) by omega,
        zpow_add₀ (by norm_num), zpow_one]
    · rfl

theorem value_reduced (d : Decimal) : d.reduced.value = d.value := by
  obtain ⟨c, e⟩ := d
  unfold reduced
  cases e with
  | ofNat n => simp [value]
  | negSucc n =>
    rw [value_reduce]
    rfl

end Decimal

/-! ## The shortest decimal -/

namespace Magnitude

theorem value_exact (m : Magnitude) : m.exact.value = m.value := by
  obtain ⟨c, e⟩ := m
  unfold exact Decimal.value value
  cases e with
  | ofNat n => simp
  | negSucc n =>
    have h2 : (2 : ℚ) ^ (n + 1) ≠ 0 := by positivity
    have h5 : (5 : ℚ) ^ (n + 1) ≠ 0 := by positivity
    simp only [Nat.pow_eq]
    rw [zpow_neg, zpow_natCast, zpow_negSucc, show (10 : ℚ) = 2 * 5 by norm_num, mul_pow]
    push_cast
    field_simp

theorem value_le_largest {m : Magnitude} (hm : m.mantissa < 2 ^ 53) (he : m.exponent ≤ 971) :
    m.value ≤ Double.largest := Double.le_largest hm he

theorem exponent_onGrid_nonpos {m : Magnitude} {places : Nat} {d : Decimal}
    (h : m.onGrid places = some d) : d.exponent ≤ 0 := by
  have hreduced : ∀ x y : Decimal, d ∈ [x.reduced, y.reduced] → d.exponent ≤ 0 := by
    intro x y hd
    rcases List.mem_pair.1 hd with rfl | rfl <;> exact Decimal.exponent_reduced_nonpos _
  unfold onGrid at h
  dsimp only at h
  split at h <;> exact hreduced _ _ (List.mem_of_find?_eq_some h)

/-- The shortest decimal was found to read back, or it is the exact one. -/
theorem shortest_cases (m : Magnitude) : m.mantissa = 0 ∧ m.shortest = ⟨0, 0⟩ ∨
    m.readsBack m.shortest = true ∧ m.shortest.exponent ≤ 0 ∨
    m.mantissa ≠ 0 ∧ m.shortest = m.exact.reduced := by
  unfold shortest
  split
  · rename_i h
    exact .inl ⟨h, rfl⟩
  · rename_i h
    cases hf : (List.range 17).findSome? m.onGrid with
    | none => exact .inr (.inr ⟨h, rfl⟩)
    | some d =>
      obtain ⟨places, -, hg⟩ := List.exists_of_findSome?_eq_some hf
      exact .inr (.inl ⟨readsBack_of_onGrid hg, exponent_onGrid_nonpos hg⟩)

theorem exponent_shortest_nonpos (m : Magnitude) : m.shortest.exponent ≤ 0 := by
  rcases m.shortest_cases with ⟨-, h⟩ | ⟨-, h⟩ | ⟨-, h⟩
  · rw [h]
  · exact h
  · rw [h]
    exact Decimal.exponent_reduced_nonpos _

end Magnitude

end PocketCalc
