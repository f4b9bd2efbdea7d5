import Mathlib.Tactic.Linarith
import PocketCalc.Decimal.Grammar
import PocketCalc.Proofs.Decimal.Rounding

/-!
# Numbers in the range of doubles

A decimal below the largest double is read as a finite one: small coefficients and exponents by one
operation on two doubles, all others by one rounding of the exact value.

* `Double.isFinite_div_hundred`: a hundredth of a finite double is finite.
* `Decimal.isFinite_toFloat`: a decimal below the largest double is read as a finite one.
-/

namespace PocketCalc

namespace Double

open Float.Model Float.Model.UnpackedFloat

theorem largest_pos : 0 < largest := mul_pos (by norm_num) (two_zpow_pos 971)

/-! ## Hundredths -/

/-- No double is above the largest one. -/
theorem le_largest {m : Nat} {e : Int} (hm : m < 2 ^ 53) (he : e ≤ 971) :
    (m * 2 ^ e : ℚ) ≤ largest := by
  have hm : (m : ℚ) ≤ 9007199254740991 := by exact_mod_cast (by omega : m ≤ 9007199254740991)
  exact mul_le_mul hm (zpow_le_zpow_right₀ (by norm_num) he) (two_zpow_pos e).le (by norm_num)

theorem isFinite_div_hundred {v : Float} (h : v.isFinite = true) : (v / 100).isFinite = true := by
  refine isFinite_ofModel_pack ?_
  have hundred : (100 : Float).toModel.unpack =
      .finite .positive (100 * 2 ^ 46) (-46) (by decide) := rfl
  change Within 971
    (UnpackedFloat.div Format.binary64 v.toModel.unpack (100 : Float).toModel.unpack)
  rw [hundred]
  have hv := within_of_isFinite h
  cases hu : v.toModel.unpack with
  | notANumber => rw [hu] at hv; exact hv.elim
  | infinity s => rw [hu] at hv; exact hv.elim
  | zero s => trivial
  | finite s m e hm =>
    obtain ⟨hlt, -, he⟩ := bounds_of_unpack hu
    refine within_div ?_
    calc (m * 2 ^ e : ℚ) ≤ largest := le_largest hlt he
      _ < largest * 100 := lt_mul_of_one_lt_right largest_pos (by norm_num)
      _ = largest * ((100 * 2 ^ 46 : Nat) * 2 ^ (-46 : Int)) := by norm_num

/-! ## Products and quotients of small numbers -/

/-- A bound on the size of a double from a bound on its exponent. -/
theorem lt_two_zpow {m : Nat} {e x : Int} (hm : m < 2 ^ 53) (he : e ≤ x) :
    (m * 2 ^ e : ℚ) < 2 ^ (53 + x) := by
  have hlt : (m : ℚ) < 2 ^ (53 : Int) := by exact_mod_cast hm
  calc (m * 2 ^ e : ℚ) < 2 ^ (53 : Int) * 2 ^ e := mul_lt_mul_of_pos_right hlt (two_zpow_pos e)
    _ = 2 ^ (53 + e) := (zpow_add₀ (by norm_num) _ _).symm
    _ ≤ 2 ^ (53 + x) := zpow_le_zpow_right₀ (by norm_num) (by omega)

/-- A whole number below `2 ^ 53` has a small exponent as a double. -/
theorem within_toFloat {m : Nat} (hm : m < 2 ^ 53) :
    Within 1 m.toUInt64.toFloat.toModel.unpack := by
  refine within_unpack_pack (by decide) (by decide) ?_
  have hn : m.toUInt64.toNat = m := UInt64.toNat_ofNat_of_lt' (lt_trans hm (by decide))
  change Within 1 (UnpackedFloat.normalize Format.binary64 (m.toUInt64.toNat : Int) 0 .positive)
  rw [hn]
  unfold UnpackedFloat.normalize
  split
  · rename_i hc
    exact absurd (compare_lt_iff_lt.1 hc) (by omega)
  · trivial
  · unfold UnpackedFloat.round decreaseExponent
    rw [targetExponent_eq]
    simp only [Int.toNat_natCast]
    generalize hk : (0 - max ((m.log2 : Int) + 0 - 52) (-1074)).toNat = k
    refine (within_round_succ _ _ _ _).mono ?_
    have hlog : (m <<< k).log2 ≤ 52 + k := by
      refine log2_le_of_lt ?_
      rw [Nat.shiftLeft_eq, show 52 + k + 1 = 53 + k by omega, Nat.pow_add]
      exact Nat.mul_lt_mul_of_pos_right hm (Nat.two_pow_pos k)
    unfold dropped
    omega

/-- Whether a number has the size of a power of ten that is a double. -/
def isPowerSized : UnpackedFloat → Bool
  | .finite _ m e _ => decide (2 ^ 52 ≤ m ∧ -52 ≤ e ∧ e ≤ 22)
  | _ => false

theorem isPowerSized_table : Float.exactlyRepresentablePowersOfTen.all
    (fun p => isPowerSized p.toModel.unpack) = true := by
  decide +kernel

theorem exists_of_isPowerSized {u : UnpackedFloat} (h : isPowerSized u = true) :
    ∃ s m e hm, u = .finite s m e hm ∧ 2 ^ 52 ≤ m ∧ -52 ≤ e ∧ e ≤ 22 := by
  cases u with
  | finite s m e hm => exact ⟨s, m, e, hm, rfl, of_decide_eq_true h⟩
  | notANumber => simp [isPowerSized] at h
  | infinity s => simp [isPowerSized] at h
  | zero s => simp [isPowerSized] at h

/-- A small number times a power of ten, and divided by one. -/
theorem isFinite_mul_div_power {v p : Float} (hv : Within 1 v.toModel.unpack)
    (hp : isPowerSized p.toModel.unpack = true) :
    (v * p).isFinite = true ∧ (v / p).isFinite = true := by
  obtain ⟨s₂, m₂, e₂, hm₂, hu₂, hlow, hle, hhigh⟩ := exists_of_isPowerSized hp
  suffices h : Within 971 (UnpackedFloat.mul Format.binary64 v.toModel.unpack p.toModel.unpack) ∧
      Within 971 (UnpackedFloat.div Format.binary64 v.toModel.unpack p.toModel.unpack) from
    ⟨isFinite_ofModel_pack h.1, isFinite_ofModel_pack h.2⟩
  rw [hu₂]
  cases hu : v.toModel.unpack with
  | notANumber => rw [hu] at hv; exact hv.elim
  | infinity s => rw [hu] at hv; exact hv.elim
  | zero s => exact ⟨trivial, trivial⟩
  | finite s m e hm =>
    rw [hu] at hv
    have he : e ≤ 1 := hv
    have hsize := lt_two_zpow (bounds_of_unpack hu).1 he
    have hone : (1 : ℚ) ≤ m₂ * 2 ^ e₂ := by
      calc (1 : ℚ) = 2 ^ (52 : Int) * 2 ^ (-52 : Int) := by norm_num
        _ ≤ m₂ * 2 ^ e₂ := mul_le_mul (by exact_mod_cast hlow)
          (zpow_le_zpow_right₀ (by norm_num) hle) (two_zpow_pos _).le (Nat.cast_nonneg m₂)
    have hpower := lt_two_zpow (bounds_of_unpack hu₂).1 hhigh
    have hlarge : (2 : ℚ) ^ (129 : Int) < largest := by
      calc (2 : ℚ) ^ (129 : Int) ≤ 2 ^ (971 : Int) := zpow_le_zpow_right₀ (by norm_num) (by decide)
        _ < largest := lt_mul_of_one_lt_left (two_zpow_pos 971) (by norm_num)
    refine ⟨within_mul (by omega) (lt_trans ?_ hlarge), within_div ?_⟩
    · rw [show (129 : Int) = 53 + 1 + (53 + 22) from rfl, zpow_add₀ (by norm_num)]
      exact mul_lt_mul'' hsize hpower (mul_nonneg (Nat.cast_nonneg m) (two_zpow_pos e).le)
        (by linarith)
    · calc (m * 2 ^ e : ℚ) < 2 ^ (53 + 1 : Int) := hsize
        _ ≤ 2 ^ (129 : Int) := zpow_le_zpow_right₀ (by norm_num) (by decide)
        _ < largest := hlarge
        _ ≤ largest * (m₂ * 2 ^ e₂) := le_mul_of_one_le_right largest_pos.le hone

end Double

namespace Decimal

/-! ## Decimals -/

open Float.Model Float.Model.UnpackedFloat

/-- The number that a decimal stands for. -/
def value (d : Decimal) : ℚ := d.coefficient * 10 ^ d.exponent

theorem ten_zpow_pos (e : Int) : (0 : ℚ) < 10 ^ e := zpow_pos (by norm_num) e

theorem exponent_lt_of_value_le {d : Decimal} (hd : d.coefficient ≠ 0)
    (h : d.value ≤ Double.largest) : d.exponent < 1024 := by
  refine (zpow_lt_zpow_iff_right₀ (show (1 : ℚ) < 10 by norm_num)).1 ?_
  have hone : (1 : ℚ) ≤ d.coefficient := by exact_mod_cast Nat.pos_of_ne_zero hd
  calc (10 : ℚ) ^ d.exponent ≤ d.value := le_mul_of_one_le_left (ten_zpow_pos _).le hone
    _ ≤ Double.largest := h
    _ < 2 ^ (1024 : Int) := Double.largest_lt
    _ ≤ 10 ^ (1024 : Int) := zpow_le_zpow_left₀ (by decide) (by norm_num) (by norm_num)

/-- The exact value of a decimal is rounded once. -/
theorem within_ofScientific {d : Decimal} (h : d.value < Double.largest) : Double.Within 971
    (UnpackedFloat.ofScientific Format.binary64 d.coefficient d.exponent) := by
  unfold UnpackedFloat.ofScientific
  split
  · trivial
  · rename_i hd
    have hexp := exponent_lt_of_value_le hd h.le
    rw [if_neg (show ¬ d.exponent > 2 ^ 11 by omega)]
    split
    · trivial
    · split
      · rename_i hpos
        have hbits : Format.binary64.mantissaBits = 53 := rfl
        refine Double.within_mul (by omega) ?_
        rw [hbits, Nat.shiftLeft_eq]
        push_cast
        calc (d.coefficient * 2 ^ 53 * 2 ^ (-53 : Int) *
              (10 ^ d.exponent.toNat * 2 ^ (0 : Int)) : ℚ)
            = d.coefficient * 10 ^ d.exponent.toNat := by norm_num [mul_assoc]
          _ = d.value := by rw [value, ← zpow_natCast, Int.toNat_of_nonneg hpos]
          _ < Double.largest := h
      · rename_i hneg
        refine Double.within_div ?_
        push_cast
        rw [mul_one, mul_one, ← zpow_natCast, Int.toNat_of_nonneg (by omega)]
        calc (d.coefficient : ℚ) = d.value * 10 ^ (-d.exponent) := by
              rw [value, mul_assoc, ← zpow_add₀ (by norm_num), add_neg_cancel, zpow_zero, mul_one]
          _ < Double.largest * 10 ^ (-d.exponent) := mul_lt_mul_of_pos_right h (ten_zpow_pos _)

/-- An exponent is handed over as its sign and its size. -/
theorem ite_negOfNat_natAbs (e : Int) :
    (if decide (e < 0) = true then Int.negOfNat e.natAbs else Int.ofNat e.natAbs) = e := by
  split
  · rename_i hneg
    rw [Int.negOfNat_eq, Int.ofNat_eq_natCast]
    have := of_decide_eq_true hneg
    omega
  · rename_i hpos
    have := mt decide_eq_true hpos
    rw [Int.ofNat_eq_natCast]
    omega

theorem isFinite_toFloat {d : Decimal} (h : d.value < Double.largest) :
    d.toFloat.isFinite = true := by
  unfold toFloat Float.ofScientific
  split
  · rename_i hs
    have hp := Array.all_eq_true.1 Double.isPowerSized_table d.exponent.natAbs
      (Nat.lt_succ_of_le hs.2)
    have := Double.isFinite_mul_div_power (Double.within_toFloat hs.1) hp
    split
    · exact this.2
    · exact this.1
  · refine Double.isFinite_ofModel_pack ?_
    rw [ite_negOfNat_natAbs]
    exact within_ofScientific h

end Decimal

end PocketCalc
