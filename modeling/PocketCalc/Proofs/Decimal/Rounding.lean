import Mathlib.Algebra.Order.Field.Power
import Mathlib.Data.Rat.Cast.Order
import Mathlib.Tactic.NormNum
import Mathlib.Tactic.Ring
import PocketCalc.Proofs.Decimal.Double

/-!
# Rounding below the largest double

Every operation on doubles rounds an exact result `m * 2 ^ e`: it drops bits until 53 are left, and
adds one at most to what remains. So a result below the largest double stays in range.

* `within_round_of_lt`: one rounding of a result below the largest double.
* `within_mul`, `within_div`: a product and a quotient below the largest double.
-/

namespace PocketCalc

namespace Double

open Float.Model Float.Model.UnpackedFloat

/-- The largest double: 53 bits, all of them set, and the greatest exponent. -/
def largest : ℚ := 9007199254740991 * 2 ^ (971 : Int)

/-! ## Dropping bits -/

/-- The number of bits that rounding drops. -/
def dropped (m : Nat) (e : Int) : Nat := (max (m.log2 + e - 52) (-1074) - e).toNat

theorem targetExponent_eq (m : Nat) (e : Int) :
    Format.binary64.targetExponent (totalExponent m e) = max (m.log2 + e - 52) (-1074) := by
  have hmin : Format.binary64.minExponent = -1074 := rfl
  have hbits : (Format.binary64.mantissaBits : Int) = 53 := rfl
  unfold Format.targetExponent totalExponent
  rw [hmin, hbits]
  omega

theorem shiftToTargetExponent_eq (m : Nat) (e : Int) (a : Accuracy) :
    shiftToTargetExponent Format.binary64 m e a =
      (ExtendedMantissa.ofMantissaAndAccuracy m a >>> dropped m e, e + dropped m e) := by
  unfold shiftToTargetExponent shiftToExponent dropped
  rw [targetExponent_eq]

theorem mantissa_shiftRight (em : ExtendedMantissa) (k : Nat) :
    (em >>> k).mantissa = em.mantissa / 2 ^ k := by
  induction k with
  | zero => simp [HShiftRight.hShiftRight, Nat.repeat]
  | succ k ih =>
    change (em >>> k).mantissa / 2 = _
    rw [ih, Nat.div_div_eq_div_mul, Nat.pow_succ]

theorem mantissa_ofMantissaAndAccuracy (m : Nat) (a : Accuracy) :
    (ExtendedMantissa.ofMantissaAndAccuracy m a).mantissa = m := by
  cases a with
  | exact => rfl
  | inexact o => cases o <;> rfl

/-- Rounding adds one at most. -/
theorem roundedMantissa_le (em : ExtendedMantissa) : em.roundedMantissa ≤ em.mantissa + 1 := by
  unfold ExtendedMantissa.roundedMantissa
  rcases em.accuracy with _ | _ | _ | _
  · exact Nat.le_succ _
  · exact Nat.le_succ _
  · have := Nat.mod_lt em.mantissa (show 0 < 2 by decide)
    change em.mantissa + em.mantissa % 2 ≤ _
    omega
  · exact le_refl _

/-- Rounding shifts twice: first to 53 bits, and once more if that gave a bit too many. -/
theorem within_round {x : Int} {m : Nat} {e : Int} (s : Sign) (a : Accuracy) (hx : -1074 ≤ x)
    (he : e + dropped m e ≤ x)
    (hr : ∀ r, r ≤ m / 2 ^ dropped m e + 1 → (r.log2 : Int) + (e + dropped m e) - 52 ≤ x) :
    Within x (roundWithAccuracy Format.binary64 s m e a) := by
  have hr := hr _ (roundedMantissa_le (ExtendedMantissa.ofMantissaAndAccuracy m a >>> dropped m e)
    |>.trans (by rw [mantissa_shiftRight, mantissa_ofMantissaAndAccuracy]))
  unfold roundWithAccuracy
  simp only [shiftToTargetExponent_eq]
  split
  · trivial
  · simp only [Within]
    generalize (ExtendedMantissa.ofMantissaAndAccuracy m a >>> dropped m e).roundedMantissa = r
      at hr ⊢
    have hd : dropped r (e + dropped m e) =
        (max ((r.log2 : Int) + (e + dropped m e) - 52) (-1074) - (e + dropped m e)).toNat := rfl
    omega

theorem log2_le_of_lt {m k : Nat} (h : m < 2 ^ (k + 1)) : m.log2 ≤ k := by
  by_cases hm : m = 0
  · simp [hm]
  · exact Nat.lt_succ_iff.1 ((Nat.log2_lt hm).2 h)

theorem div_two_pow_dropped_lt (m : Nat) (e : Int) : m / 2 ^ dropped m e < 2 ^ 53 := by
  rw [Nat.div_lt_iff_lt_mul (Nat.two_pow_pos _), ← Nat.pow_add]
  refine lt_of_lt_of_le Nat.lt_log2_self (Nat.pow_le_pow_right (by decide) ?_)
  unfold dropped
  omega

/-- A rounded number has the exponent of its first 53 bits or the next one. -/
theorem within_round_succ (s : Sign) (a : Accuracy) (m : Nat) (e : Int) :
    Within (e + dropped m e + 1) (roundWithAccuracy Format.binary64 s m e a) := by
  refine within_round s a ?_ (by omega) ?_
  · unfold dropped
    omega
  · intro r hr
    have hr : r < 2 ^ (53 + 1) := by
      have := div_two_pow_dropped_lt m e
      omega
    have := log2_le_of_lt hr
    omega

/-! ## Below the largest double -/

theorem two_zpow_pos (e : Int) : (0 : ℚ) < 2 ^ e := zpow_pos (by norm_num) e

/-- A number below the largest double, as a bound on its mantissa. -/
theorem mantissa_lt_of_lt_largest {m : Nat} {e : Int} (he : e ≤ 971) (h : m * 2 ^ e < largest) :
    m < 9007199254740991 * 2 ^ (971 - e).toNat := by
  have hsplit : (2 : ℚ) ^ (971 : Int) = 2 ^ (971 - e).toNat * 2 ^ e := by
    rw [← zpow_natCast, ← zpow_add₀ (by norm_num)]
    congr 1
    omega
  rw [largest, hsplit, ← mul_assoc] at h
  have := lt_of_mul_lt_mul_right h (two_zpow_pos e).le
  exact_mod_cast this

theorem within_round_of_lt (s : Sign) (a : Accuracy) {m : Nat} {e : Int} (he : e ≤ 971)
    (h : m * 2 ^ e < largest) : Within 971 (roundWithAccuracy Format.binary64 s m e a) := by
  have hm := mantissa_lt_of_lt_largest he h
  have hlog : (m.log2 : Int) + e ≤ 1023 := by
    have hlt : m < 2 ^ ((1023 - e).toNat + 1) := by
      refine lt_of_lt_of_le hm ?_
      rw [show (1023 - e).toNat + 1 = 53 + (971 - e).toNat by omega, Nat.pow_add]
      exact Nat.mul_le_mul_right _ (by decide)
    have := log2_le_of_lt hlt
    omega
  by_cases hd : e + dropped m e ≤ 970
  · exact (within_round_succ s a m e).mono (by omega)
  · have hk : dropped m e = (971 - e).toNat := by
      unfold dropped at hd ⊢
      omega
    refine within_round s a (by decide) (by omega) ?_
    intro r hr
    have hr : r < 2 ^ (52 + 1) := by
      have := (Nat.div_lt_iff_lt_mul (Nat.two_pow_pos (dropped m e))).2 (hk ▸ hm)
      omega
    have := log2_le_of_lt hr
    omega

theorem within_mul {s₁ s₂ : Sign} {m₁ m₂ : Nat} {e₁ e₂ : Int} {h₁ : 0 < m₁} {h₂ : 0 < m₂}
    (he : e₁ + e₂ ≤ 971) (h : (m₁ * 2 ^ e₁ : ℚ) * (m₂ * 2 ^ e₂) < largest) :
    Within 971 (UnpackedFloat.mul Format.binary64 (.finite s₁ m₁ e₁ h₁) (.finite s₂ m₂ e₂ h₂)) := by
  refine within_round_of_lt _ _ he ?_
  rw [zpow_add₀ (by norm_num)]
  push_cast
  calc (m₁ * m₂ : ℚ) * (2 ^ e₁ * 2 ^ e₂) = (m₁ * 2 ^ e₁) * (m₂ * 2 ^ e₂) := by ring
    _ < largest := h

theorem two_zpow_log2_le {m : Nat} (hm : 0 < m) (e : Int) :
    (2 : ℚ) ^ ((m.log2 : Int) + e) ≤ m * 2 ^ e := by
  rw [zpow_add₀ (by norm_num), zpow_natCast]
  have := Nat.log2_self_le hm.ne'
  exact mul_le_mul_of_nonneg_right (by exact_mod_cast this) (two_zpow_pos e).le

theorem lt_two_zpow_log2 (m : Nat) (e : Int) :
    (m * 2 ^ e : ℚ) < 2 ^ ((m.log2 : Int) + 1 + e) := by
  rw [zpow_add₀ (by norm_num), ← Nat.cast_succ, zpow_natCast]
  have := Nat.lt_log2_self (n := m)
  exact mul_lt_mul_of_pos_right (by exact_mod_cast this) (two_zpow_pos e)

theorem largest_lt : largest < 2 ^ (1024 : Int) := by
  rw [largest, show (1024 : Int) = 53 + 971 from rfl, zpow_add₀ (by norm_num)]
  exact mul_lt_mul_of_pos_right (by norm_num) (two_zpow_pos 971)

/-- The quotient is cut off behind enough bits before it is rounded. -/
theorem within_div {s₁ s₂ : Sign} {m₁ m₂ : Nat} {e₁ e₂ : Int} {h₁ : 0 < m₁} {h₂ : 0 < m₂}
    (h : (m₁ * 2 ^ e₁ : ℚ) < largest * (m₂ * 2 ^ e₂)) :
    Within 971 (UnpackedFloat.div Format.binary64 (.finite s₁ m₁ e₁ h₁) (.finite s₂ m₂ e₂ h₂)) := by
  have hpos : (0 : ℚ) < m₂ * 2 ^ e₂ := mul_pos (by exact_mod_cast h₂) (two_zpow_pos e₂)
  have hlog : (m₁.log2 : Int) + e₁ < 1024 + (m₂.log2 + 1 + e₂) := by
    refine (zpow_lt_zpow_iff_right₀ (show (1 : ℚ) < 2 by norm_num)).1 ?_
    calc (2 : ℚ) ^ ((m₁.log2 : Int) + e₁) ≤ m₁ * 2 ^ e₁ := two_zpow_log2_le h₁ e₁
      _ < largest * (m₂ * 2 ^ e₂) := h
      _ < 2 ^ (1024 : Int) * (m₂ * 2 ^ e₂) := mul_lt_mul_of_pos_right largest_lt hpos
      _ < 2 ^ (1024 : Int) * 2 ^ ((m₂.log2 : Int) + 1 + e₂) :=
        mul_lt_mul_of_pos_left (lt_two_zpow_log2 m₂ e₂) (two_zpow_pos 1024)
      _ = 2 ^ (1024 + ((m₂.log2 : Int) + 1 + e₂)) := (zpow_add₀ (by norm_num) _ _).symm
  have htarget :
      Format.binary64.targetExponent (totalExponent m₁ e₁ - totalExponent m₂ e₂) ≤ 971 := by
    have hmin : Format.binary64.minExponent = -1074 := rfl
    have hbits : (Format.binary64.mantissaBits : Int) = 53 := rfl
    unfold Format.targetExponent totalExponent
    rw [hmin, hbits]
    omega
  unfold UnpackedFloat.div divCore
  dsimp only
  generalize ht : min (e₁ - e₂)
    (Format.binary64.targetExponent (totalExponent m₁ e₁ - totalExponent m₂ e₂)) = t
  have hle : t ≤ e₁ - e₂ := by omega
  refine within_round_of_lt _ _ (by omega) ?_
  have hq : ((m₁ <<< (e₁ - e₂ - t).toNat / m₂ : Nat) : ℚ) * m₂ ≤ m₁ * 2 ^ (e₁ - e₂ - t) := by
    have := Nat.div_mul_le_self (m₁ <<< (e₁ - e₂ - t).toNat) m₂
    rw [Nat.shiftLeft_eq] at this ⊢
    rw [show e₁ - e₂ - t = ((e₁ - e₂ - t).toNat : Int) by omega, zpow_natCast]
    exact_mod_cast this
  refine lt_of_mul_lt_mul_right (lt_of_le_of_lt ?_ h) hpos.le
  calc ((m₁ <<< (e₁ - e₂ - t).toNat / m₂ : Nat) : ℚ) * 2 ^ t * (m₂ * 2 ^ e₂)
      = ((m₁ <<< (e₁ - e₂ - t).toNat / m₂ : Nat) * m₂) * (2 ^ t * 2 ^ e₂) := by ring
    _ ≤ m₁ * 2 ^ (e₁ - e₂ - t) * (2 ^ t * 2 ^ e₂) :=
      mul_le_mul_of_nonneg_right hq (mul_pos (two_zpow_pos t) (two_zpow_pos e₂)).le
    _ = m₁ * 2 ^ e₁ := by
      rw [mul_assoc, ← zpow_add₀ (by norm_num), ← zpow_add₀ (by norm_num)]
      congr 2
      omega

end Double

end PocketCalc
