import PocketCalc.Proofs.Decimal.Nearest

/-!
# Decimals are rounded once

Each operation on doubles finds the first bits of the exact result and what stands behind them, which
is all that rounding needs. Reading a decimal takes one such operation on exact numbers, so the double
that it gives is the nearest one.

* `Extends.shiftRight`: dropping bits keeps track of the exact result.
* `exists_reading_round`: rounding gives the nearest magnitude.
* `exists_reading_mul`, `exists_reading_div`: so do products and quotients.
* `reading_pack_of_isBinary`: packing keeps it, or makes it infinite.
* `Decimal.isRounding_toFloat`: a decimal is read as the double that it is rounded to.
-/

namespace PocketCalc

namespace Double

open Float.Model Float.Model.UnpackedFloat

variable {em : ExtendedMantissa} {n : Nat} {x y : ℚ} {a : Accuracy} {e : Int}

/-! ## What stands behind the first bits -/

/-- The number that a mantissa is the beginning of: the round bit stands for a half, and the sticky bit
tells whether anything less than a half is left. -/
def Extends (em : ExtendedMantissa) (y : ℚ) : Prop :=
  ∃ rest : ℚ, y = em.mantissa + (if em.roundBit then 1 / 2 else 0) + rest ∧
    0 ≤ rest ∧ rest < 1 / 2 ∧ (em.stickyBit = true ↔ 0 < rest)

theorem extends_exact (n : Nat) : Extends (ExtendedMantissa.ofMantissaAndAccuracy n .exact) n :=
  ⟨0, by simp [ExtendedMantissa.ofMantissaAndAccuracy], le_refl _, by norm_num,
    by simp [ExtendedMantissa.ofMantissaAndAccuracy]⟩

/-- The remainder of a division, compared with half of the divisor. -/
theorem extends_div (n : Nat) {d : Nat} (hd : 0 < d) :
    Extends (ExtendedMantissa.ofMantissaAndAccuracy (n / d) (accuracyOfFraction (n % d) d))
      (n / d) := by
  have hdq : (0 : ℚ) < d := by exact_mod_cast hd
  have hlt : ((n % d : Nat) : ℚ) < d := by exact_mod_cast Nat.mod_lt n hd
  have hsplit : (n : ℚ) / d = (n / d : Nat) + (n % d : Nat) / d := by
    rw [div_eq_iff hdq.ne', add_mul, div_mul_cancel₀ _ hdq.ne']
    exact_mod_cast (Nat.div_add_mod' n d).symm
  rw [hsplit]
  unfold accuracyOfFraction
  split
  · rename_i h0
    rw [h0]
    simpa using extends_exact (n / d)
  · rename_i h0
    have hpos : (0 : ℚ) < (n % d : Nat) / d := by
      have : (0 : ℚ) < (n % d : Nat) := by exact_mod_cast Nat.pos_of_ne_zero h0
      positivity
    rcases lt_trichotomy (2 * (n % d)) d with h | h | h
    · rw [compare_lt_iff_lt.2 h]
      have hhalf : ((n % d : Nat) : ℚ) / d < 1 / 2 := by
        rw [div_lt_div_iff₀ hdq two_pos, mul_comm]
        exact_mod_cast (by omega : 2 * (n % d) < 1 * d)
      exact ⟨_, by simp [ExtendedMantissa.ofMantissaAndAccuracy], hpos.le, hhalf,
        by simp [ExtendedMantissa.ofMantissaAndAccuracy, hpos]⟩
    · rw [compare_eq_iff_eq.2 h]
      have hhalf : ((n % d : Nat) : ℚ) / d = 1 / 2 := by
        rw [div_eq_div_iff hdq.ne' two_ne_zero, mul_comm]
        exact_mod_cast (by omega : 2 * (n % d) = 1 * d)
      exact ⟨0, by simp [ExtendedMantissa.ofMantissaAndAccuracy, hhalf], le_refl _, by norm_num,
        by simp [ExtendedMantissa.ofMantissaAndAccuracy]⟩
    · rw [compare_gt_iff_gt.2 h]
      have hhalf : 1 / 2 < ((n % d : Nat) : ℚ) / d := by
        rw [div_lt_div_iff₀ two_pos hdq, mul_comm _ (2 : ℚ)]
        exact_mod_cast (by omega : 1 * d < 2 * (n % d))
      have hone : ((n % d : Nat) : ℚ) / d < 1 := (div_lt_one hdq).2 hlt
      refine ⟨(n % d : Nat) / d - 1 / 2, ?_, by linarith, by linarith, ?_⟩
      · simp [ExtendedMantissa.ofMantissaAndAccuracy]
      · simpa [ExtendedMantissa.ofMantissaAndAccuracy] using hhalf

/-- The last bit becomes the round bit, and the round bit joins what is left. -/
theorem Extends.shiftRightOne (h : Extends em y) : Extends em.shiftRightOne (y / 2) := by
  obtain ⟨rest, hy, hlow, hhigh, hsticky⟩ := h
  refine ⟨(if em.roundBit then 1 / 2 else 0) / 2 + rest / 2, ?_, ?_, ?_, ?_⟩
  · have hn : (em.mantissa : ℚ) = 2 * (em.mantissa / 2 : Nat) + (em.mantissa % 2 : Nat) := by
      exact_mod_cast (Nat.div_add_mod em.mantissa 2).symm
    rw [hy, hn]
    rcases Nat.mod_two_eq_zero_or_one em.mantissa with hm | hm
    · simp [ExtendedMantissa.shiftRightOne, hm]
      ring
    · simp [ExtendedMantissa.shiftRightOne, hm]
      ring
  · split <;> linarith
  · split <;> linarith
  · cases hr : em.roundBit with
    | true =>
      simp only [ExtendedMantissa.shiftRightOne, hr, Bool.true_or, true_iff, if_true]
      linarith
    | false => simp [ExtendedMantissa.shiftRightOne, hr, hsticky]

/-- Dropping bits keeps track of the number. -/
theorem Extends.shiftRight (h : Extends em y) (k : Nat) : Extends (em >>> k) (y / 2 ^ k) := by
  induction k with
  | zero => simpa [HShiftRight.hShiftRight, Nat.repeat] using h
  | succ k ih =>
    rw [pow_succ, ← div_div]
    exact ih.shiftRightOne

theorem Extends.le (h : Extends em y) : (em.mantissa : ℚ) ≤ y := by
  obtain ⟨rest, rfl, hlow, -, -⟩ := h
  split <;> linarith

/-- The two bits tell on which side of the half the number lies. -/
theorem Extends.isRounded (h : Extends em y) : Magnitude.IsRounded em.roundedMantissa y := by
  obtain ⟨n, round, sticky⟩ := em
  obtain ⟨rest, hy, hlow, hhigh, hsticky⟩ := h
  cases round with
  | false =>
    have hy : y = n + rest := by simpa using hy
    have hr : (ExtendedMantissa.mk n false sticky).roundedMantissa = n := by cases sticky <;> rfl
    have hdist : |(n : ℚ) - y| < 1 / 2 := by
      rw [abs_lt]
      constructor <;> linarith
    rw [hr]
    exact ⟨hdist.le, fun htie => absurd htie hdist.ne⟩
  | true =>
    have hy : y = n + 1 / 2 + rest := by simpa using hy
    cases sticky with
    | false =>
      have h0 : rest = 0 := le_antisymm (by simpa using hsticky) hlow
      have heven : (n + n % 2) % 2 = 0 := by omega
      refine ⟨?_, fun _ => heven⟩
      change |((n + n % 2 : Nat) : ℚ) - y| ≤ 1 / 2
      have hbit : ((n % 2 : Nat) : ℚ) ≤ 1 := by exact_mod_cast Nat.le_of_lt_succ (Nat.mod_lt n two_pos)
      have hbit' : (0 : ℚ) ≤ (n % 2 : Nat) := Nat.cast_nonneg _
      rw [abs_le, Nat.cast_add]
      constructor <;> linarith
    | true =>
      have hpos : 0 < rest := hsticky.1 rfl
      have hdist : |((n + 1 : Nat) : ℚ) - y| < 1 / 2 := by
        rw [abs_lt, Nat.cast_succ]
        constructor <;> linarith
      exact ⟨hdist.le, fun htie => absurd htie hdist.ne⟩

/-! ## Rounding -/

/-- The mantissa that is kept, rounded by what stands behind it. -/
def kept (n : Nat) (e : Int) (a : Accuracy) : Nat :=
  (ExtendedMantissa.ofMantissaAndAccuracy n a >>> dropped n e).roundedMantissa

theorem kept_le (n : Nat) (e : Int) (a : Accuracy) : kept n e a ≤ 2 ^ 53 := by
  refine (roundedMantissa_le _).trans ?_
  rw [mantissa_shiftRight, mantissa_ofMantissaAndAccuracy]
  exact div_two_pow_dropped_lt n e

theorem le_exponent_dropped (n : Nat) (e : Int) : -1074 ≤ e + dropped n e := by
  unfold dropped
  omega

/-- The second shift only takes care of a bit too many. -/
theorem shift_canonical {r : Nat} (hr : r ≤ 2 ^ 53) (he : -1074 ≤ e) :
    (shiftToTargetExponent Format.binary64 r e .exact).1.mantissa =
        (Magnitude.canonical r e).mantissa ∧
      (shiftToTargetExponent Format.binary64 r e .exact).2 =
        (Magnitude.canonical r e).exponent := by
  rw [shiftToTargetExponent_eq, mantissa_shiftRight, mantissa_ofMantissaAndAccuracy]
  unfold Magnitude.canonical
  split
  · rename_i hlt
    have hlog : r.log2 ≤ 52 := log2_le_of_lt hlt
    have hd : dropped r e = 0 := by
      unfold dropped
      omega
    simp [hd]
  · obtain rfl : r = 2 ^ 53 := by omega
    have hd : dropped (2 ^ 53) e = 1 := by
      unfold dropped
      rw [Nat.log2_two_pow]
      omega
    rw [hd]
    exact ⟨by norm_num, rfl⟩

/-- What rounding gives, in the form of a magnitude. -/
theorem reading_round (n : Nat) (e : Int) (a : Accuracy) :
    reading (roundWithAccuracy Format.binary64 .positive n e a) =
      .finite false (if kept n e a = 0 then ⟨0, -1074⟩
        else Magnitude.canonical (kept n e a) (e + dropped n e)) := by
  obtain ⟨hm, he⟩ := shift_canonical (kept_le n e a) (le_exponent_dropped n e)
  have hzero : (Magnitude.canonical (kept n e a) (e + dropped n e)).mantissa = 0 ↔
      kept n e a = 0 := by
    unfold Magnitude.canonical
    split <;> simp
    omega
  unfold roundWithAccuracy
  simp only [shiftToTargetExponent_eq n e a]
  split
  · rename_i h
    rw [if_pos (hzero.1 (hm.symm.trans h))]
    rfl
  · rename_i h
    rw [if_neg fun h0 => h (hm.trans (hzero.2 h0)), reading]
    exact congrArg (Reading.finite false) (congrArg₂ Magnitude.mk hm he)

/-- Where there are 53 bits of a number, or all that a double may have, the kept ones begin with a bit
that is set, unless the exponent is the least one. -/
theorem first_bits (hbits : 2 ^ 52 ≤ n ∨ e ≤ -1074) :
    2 ^ 52 ≤ n / 2 ^ dropped n e ∨ e + dropped n e = -1074 := by
  have hlog : 52 ≤ n.log2 ∨ e ≤ -1074 :=
    hbits.imp_left fun hn => (Nat.le_log2 (by have := Nat.two_pow_pos 52; omega)).2 hn
  by_cases he : e + dropped n e = -1074
  · exact .inr he
  · refine .inl ((Nat.le_div_iff_mul_le (Nat.two_pow_pos _)).2 ?_)
    have hd : 52 + dropped n e = n.log2 := by
      unfold dropped at he ⊢
      omega
    rw [← Nat.pow_add, hd]
    refine Nat.log2_self_le fun h0 => ?_
    rw [h0, Nat.log2_zero] at hd
    omega

/-- Rounding gives the nearest magnitude. -/
theorem exists_reading_round (h : Extends (ExtendedMantissa.ofMantissaAndAccuracy n a) (x / 2 ^ e))
    (hbits : 2 ^ 52 ≤ n ∨ e ≤ -1074) : ∃ m : Magnitude, m.IsNearest x ∧
      reading (roundWithAccuracy Format.binary64 .positive n e a) = .finite false m := by
  have hfirst := first_bits hbits
  have hshift := h.shiftRight (dropped n e)
  have hfloor := hshift.le
  rw [mantissa_shiftRight, mantissa_ofMantissaAndAccuracy] at hfloor
  have hlead : (2 : ℚ) ^ 52 ≤ x / 2 ^ e / 2 ^ dropped n e ∨ e + dropped n e = -1074 := by
    refine hfirst.imp_left fun hn => le_trans ?_ hfloor
    exact_mod_cast hn
  have hkept : 2 ^ 52 ≤ kept n e a ∨ e + dropped n e = -1074 := by
    refine hlead.imp_left fun hy => ?_
    by_contra hlt
    have hnear := hshift.isRounded.near
    have hle : (kept n e a : ℚ) + 1 ≤ 2 ^ 52 := by exact_mod_cast not_le.1 hlt
    rw [← kept, abs_sub_comm] at hnear
    have := (le_abs_self _).trans hnear
    linarith
  have hx : x / 2 ^ e / 2 ^ dropped n e * 2 ^ (e + dropped n e) = x := by
    rw [zpow_add₀ (by norm_num), zpow_natCast, div_div,
      div_mul_cancel₀ _ (mul_pos (two_zpow_pos e) (by positivity)).ne']
  have hnearest := Magnitude.isNearest_canonical (r := kept n e a) hshift.isRounded
    (le_exponent_dropped n e) (kept_le n e a) hkept hlead
  rw [hx] at hnearest
  refine ⟨_, hnearest, ?_⟩
  rw [reading_round]
  split
  · rename_i h0
    rw [h0] at hkept ⊢
    rw [hkept.resolve_left (by norm_num), Magnitude.canonical, if_pos (by norm_num)]
  · rfl

/-! ## Products and quotients -/

variable {m₁ m₂ : Nat} {e₁ e₂ : Int} {h₁ : 0 < m₁} {h₂ : 0 < m₂}

theorem exists_reading_mul (hbits : 2 ^ 52 ≤ m₁ * m₂) :
    ∃ m : Magnitude, m.IsNearest (m₁ * 2 ^ e₁ * (m₂ * 2 ^ e₂)) ∧
      reading (UnpackedFloat.mul Format.binary64 (.finite .positive m₁ e₁ h₁)
        (.finite .positive m₂ e₂ h₂)) = .finite false m := by
  refine exists_reading_round ?_ (.inl hbits)
  have hx : (m₁ * 2 ^ e₁ * (m₂ * 2 ^ e₂) : ℚ) / 2 ^ (e₁ + e₂) = (m₁ * m₂ : Nat) := by
    rw [div_eq_iff (two_zpow_pos _).ne', zpow_add₀ (by norm_num)]
    push_cast
    ring
  rw [hx]
  exact extends_exact _

/-- The quotient is cut off behind 53 bits or at the least exponent. -/
theorem two_pow_le_quotient {t : Int} (h₁ : 0 < m₁) (h₂ : 0 < m₂) (hle : t ≤ e₁ - e₂)
    (ht : t ≤ Format.binary64.targetExponent (totalExponent m₁ e₁ - totalExponent m₂ e₂)) :
    2 ^ 52 ≤ m₁ * 2 ^ (e₁ - e₂ - t).toNat / m₂ ∨ t ≤ -1074 := by
  have hmin : Format.binary64.minExponent = -1074 := rfl
  have hbits : (Format.binary64.mantissaBits : Int) = 53 := rfl
  by_cases hlow : t ≤ -1074
  · exact .inr hlow
  · unfold Format.targetExponent totalExponent at ht
    rw [hmin, hbits] at ht
    refine .inl ((Nat.le_div_iff_mul_le h₂).2 ?_)
    calc 2 ^ 52 * m₂ ≤ 2 ^ 52 * 2 ^ (m₂.log2 + 1) :=
          Nat.mul_le_mul_left _ Nat.lt_log2_self.le
      _ = 2 ^ (52 + (m₂.log2 + 1)) := (Nat.pow_add _ _ _).symm
      _ ≤ 2 ^ (m₁.log2 + (e₁ - e₂ - t).toNat) := Nat.pow_le_pow_right (by decide) (by omega)
      _ = 2 ^ m₁.log2 * 2 ^ (e₁ - e₂ - t).toNat := Nat.pow_add _ _ _
      _ ≤ m₁ * 2 ^ (e₁ - e₂ - t).toNat := Nat.mul_le_mul_right _ (Nat.log2_self_le h₁.ne')

theorem exists_reading_div :
    ∃ m : Magnitude, m.IsNearest (m₁ * 2 ^ e₁ / (m₂ * 2 ^ e₂)) ∧
      reading (UnpackedFloat.div Format.binary64 (.finite .positive m₁ e₁ h₁)
        (.finite .positive m₂ e₂ h₂)) = .finite false m := by
  unfold UnpackedFloat.div divCore
  dsimp only
  generalize ht : min (e₁ - e₂)
    (Format.binary64.targetExponent (totalExponent m₁ e₁ - totalExponent m₂ e₂)) = t
  have hle : t ≤ e₁ - e₂ := by omega
  rw [Nat.shiftLeft_eq]
  refine exists_reading_round ?_ (two_pow_le_quotient h₁ h₂ hle (by omega))
  have hm₂ : (m₂ : ℚ) ≠ 0 := by exact_mod_cast h₂.ne'
  have hx : (m₁ * 2 ^ e₁ / (m₂ * 2 ^ e₂) : ℚ) / 2 ^ t =
      (m₁ * 2 ^ (e₁ - e₂ - t).toNat : Nat) / m₂ := by
    have hsplit : (2 : ℚ) ^ e₁ = 2 ^ (e₁ - e₂ - t).toNat * (2 ^ e₂ * 2 ^ t) := by
      rw [← zpow_natCast, Int.toNat_of_nonneg (by omega), ← zpow_add₀ (by norm_num),
        ← zpow_add₀ (by norm_num)]
      congr 1
      omega
    rw [hsplit, div_div, div_eq_div_iff (by positivity) hm₂]
    push_cast
    ring
  rw [hx]
  exact extends_div _ h₂

/-! ## Packing -/

/-- A magnitude whose exponent is too large is packed as infinite. -/
theorem reading_pack_of_isBinary {m : Magnitude} (hm : m.IsBinary) {u : UnpackedFloat}
    (hu : reading u = .finite false m) : reading (Float.Model.pack u).unpack =
      if m.exponent ≤ 971 then .finite false m else .infinite false := by
  cases u with
  | notANumber => cases hu
  | infinity s => cases hu
  | zero s =>
    cases s with
    | positive =>
      cases hu
      rfl
    | negative => cases hu
  | finite s n e hn =>
    cases s with
    | negative => cases hu
    | positive =>
      cases hu
      split
      · rename_i he
        exact reading_pack (hm.isDouble hn he) .positive
      · rename_i he
        have hbias : (Format.binary64.exponentBias : Int) = 1023 := rfl
        have hfield : 2 ^ 11 ≤ (e + Format.binary64.exponentBias + (52 : Nat)).toNat + 1 := by
          dsimp only at he
          rw [hbias]
          omega
        change reading (UnpackedFloat.unpack Format.binary64 (UnpackedFloat.pack Format.binary64
          (.finite .positive n e hn))) = _
        unfold UnpackedFloat.pack
        dsimp only
        rw [if_pos hfield]
        rfl

/-- An operation that rounds a result once. -/
theorem isRounding_of_reading {u : UnpackedFloat} {v : Float}
    (hv : v.toModel = Float.Model.pack u)
    (h : ∃ m : Magnitude, m.IsNearest x ∧ reading u = .finite false m) : IsRounding v false x := by
  obtain ⟨m, hm, hu⟩ := h
  refine ⟨m, hm, ?_⟩
  rw [ofFloat_eq, hv]
  exact reading_pack_of_isBinary hm.binary hu

theorem reading_neg_infinite {v : Float} {negative : Bool}
    (h : Reading.ofFloat v = .infinite negative) : Reading.ofFloat (-v) = .infinite (!negative) := by
  rw [ofFloat_eq] at h ⊢
  change reading (Float.Model.pack v.toModel.unpack.neg).unpack = _
  generalize v.toModel.unpack = u at h
  cases u with
  | notANumber => cases h
  | infinity s =>
    cases h
    cases s <;> rfl
  | zero s => cases h
  | finite s n e hn => cases h

/-- A minus sign in front of a number is one in front of its double. -/
theorem IsRounding.neg {v : Float} (h : IsRounding v false x) : IsRounding (-v) true x := by
  obtain ⟨m, hm, hv⟩ := h
  refine ⟨m, hm, ?_⟩
  split at hv
  · rename_i he
    rw [if_pos he]
    exact reading_neg hv
  · rename_i he
    rw [if_neg he]
    exact reading_neg_infinite hv

/-! ## Numbers too small and too large -/

/-- A number below half of the least double is rounded to zero. -/
theorem isNearest_zero (h0 : 0 ≤ x) (hx : x < 2 ^ (-1075 : Int)) :
    Magnitude.IsNearest ⟨0, -1074⟩ x := by
  have hzero : Magnitude.value ⟨0, -1074⟩ = 0 := by simp [Magnitude.value]
  have hleast : (2 : ℚ) ^ (-1074 : Int) = 2 * 2 ^ (-1075 : Int) := by
    rw [show (-1074 : Int) = -1075 + 1 from rfl, zpow_add_one₀ (by norm_num), mul_comm]
  have hbinary : Magnitude.IsBinary ⟨0, -1074⟩ := ⟨by norm_num, le_refl _, .inr rfl⟩
  have hfar {k : Magnitude} (hk : k.IsBinary) (hne : k ≠ ⟨0, -1074⟩) : x < |k.value - x| := by
    have hpos : Magnitude.value ⟨0, -1074⟩ < k.value := by
      refine lt_of_le_of_ne ?_ fun h => hne (hk.eq_of_value_eq hbinary h.symm)
      rw [hzero]
      exact mul_nonneg (Nat.cast_nonneg _) (two_zpow_pos _).le
    have hle := hbinary.succ_le hk hpos
    rw [hzero, zero_add] at hle
    have := le_abs_self (k.value - x)
    linarith
  have hdist : |Magnitude.value ⟨0, -1074⟩ - x| = x := by rw [hzero, zero_sub, abs_neg, abs_of_nonneg h0]
  refine ⟨hbinary, fun k hk => ?_, fun k hk hne htie => ?_⟩
  · rw [hdist]
    by_cases hne : k = ⟨0, -1074⟩
    · rw [hne, hdist]
    · exact (hfar hk hne).le
  · exact absurd (htie.trans hdist) (hfar hk hne).ne'

/-- A number that has passed all doubles is rounded to an infinite one. -/
theorem lt_exponent_of_isNearest {m : Magnitude} (hm : m.IsNearest x) (hx : 2 ^ (1024 : Int) ≤ x) :
    971 < m.exponent := by
  have hbinary : Magnitude.IsBinary ⟨2 ^ 52, 972⟩ := ⟨by norm_num, by norm_num, .inl (le_refl _)⟩
  have hvalue : Magnitude.value ⟨2 ^ 52, 972⟩ = 2 ^ (1024 : Int) := by
    change ((2 ^ 52 : Nat) : ℚ) * 2 ^ (972 : Int) = _
    rw [Nat.cast_pow, Nat.cast_ofNat, ← zpow_natCast, ← zpow_add₀ (by norm_num)]
    rfl
  exact hbinary.exponent_le hm.binary (hm.value_le hbinary (hvalue.trans_le hx))

end Double

/-! ## Decimals -/

namespace Decimal

open Float.Model Float.Model.UnpackedFloat

variable {d : Decimal}

/-- A whole coefficient with 53 zero bits behind it times a power of ten is the decimal. -/
theorem value_eq_mul (h : 0 ≤ d.exponent) : d.value =
    (d.coefficient <<< Format.binary64.mantissaBits : Nat) *
      2 ^ (-(Format.binary64.mantissaBits : Int)) *
      ((10 ^ d.exponent.toNat : Nat) * 2 ^ (0 : Int)) := by
  have hbits : Format.binary64.mantissaBits = 53 := rfl
  have hpow : (10 : ℚ) ^ d.exponent = 10 ^ d.exponent.toNat := by
    rw [← zpow_natCast, Int.toNat_of_nonneg h]
  rw [hbits, Nat.shiftLeft_eq, value, hpow]
  push_cast
  norm_num [mul_assoc]

theorem value_eq_div (h : d.exponent < 0) : d.value =
    (d.coefficient : ℚ) * 2 ^ (0 : Int) / ((10 ^ (-d.exponent).toNat : Nat) * 2 ^ (0 : Int)) := by
  have hpow : (10 : ℚ) ^ d.exponent = (10 ^ (-d.exponent).toNat)⁻¹ := by
    rw [← zpow_natCast, Int.toNat_of_nonneg (by omega), ← zpow_neg, neg_neg]
  rw [value, hpow]
  push_cast
  norm_num [div_eq_mul_inv]

theorem exists_reading_large (hpos : 0 < d.coefficient <<< Format.binary64.mantissaBits)
    (h : 0 ≤ d.exponent) : ∃ m : Magnitude, m.IsNearest d.value ∧
      Double.reading (UnpackedFloat.mul Format.binary64
        (.finite .positive (d.coefficient <<< Format.binary64.mantissaBits)
          (-Format.binary64.mantissaBits) hpos)
        (.finite .positive (10 ^ d.exponent.toNat) 0 (Nat.pow_pos (by decide)))) =
        .finite false m := by
  rw [value_eq_mul h]
  refine Double.exists_reading_mul ?_
  have hbits : Format.binary64.mantissaBits = 53 := rfl
  rw [hbits, Nat.shiftLeft_eq] at hpos ⊢
  have hc : 1 ≤ d.coefficient := Nat.pos_of_mul_pos_right hpos
  calc 2 ^ 52 ≤ 1 * 2 ^ 53 * 1 := by decide
    _ ≤ d.coefficient * 2 ^ 53 * 10 ^ d.exponent.toNat :=
      Nat.mul_le_mul (Nat.mul_le_mul_right _ hc) (Nat.pow_pos (by decide))

/-- The exact value of a decimal is rounded once, unless it is too small or too large anyway. -/
theorem isRounding_ofScientific {v : Float} (hv : v.toModel = Float.Model.pack
    (UnpackedFloat.ofScientific Format.binary64 d.coefficient d.exponent)) :
    Double.IsRounding v false d.value := by
  unfold UnpackedFloat.ofScientific at hv
  split at hv
  · rename_i h0
    refine Double.isRounding_of_reading hv ⟨_, Double.isNearest_zero ?_ ?_, rfl⟩ <;>
      simp [value, h0]
  · rename_i h0
    have hpos : 0 < d.coefficient <<< Format.binary64.mantissaBits := by
      rw [Nat.shiftLeft_eq]
      positivity
    have hone : (1 : ℚ) ≤ d.coefficient := by exact_mod_cast Nat.pos_of_ne_zero h0
    split at hv
    · rename_i hlarge
      have hbits : Format.binary64.exponentBits = 11 := rfl
      rw [hbits] at hlarge
      obtain ⟨m, hm, -⟩ := exists_reading_large hpos (by omega)
      refine ⟨m, hm, ?_⟩
      have hbig : (2 : ℚ) ^ (1024 : Int) ≤ d.value := by
        calc (2 : ℚ) ^ (1024 : Int) ≤ 10 ^ (1024 : Int) :=
              zpow_le_zpow_left₀ (by decide) (by norm_num) (by norm_num)
          _ ≤ 10 ^ d.exponent := zpow_le_zpow_right₀ (by norm_num) (by omega)
          _ ≤ d.value := le_mul_of_one_le_left (ten_zpow_pos _).le hone
      rw [if_neg (not_le.2 (Double.lt_exponent_of_isNearest hm hbig)), Double.ofFloat_eq, hv]
      rfl
    · split at hv
      · rename_i hsmall
        have hbits : Format.binary64.exponentBits = 11 := rfl
        rw [hbits] at hsmall
        refine Double.isRounding_of_reading hv ⟨_, Double.isNearest_zero ?_ ?_, rfl⟩
        · exact mul_nonneg (Nat.cast_nonneg _) (ten_zpow_pos _).le
        · refine (value_lt_two_zpow (by omega)).trans_le ?_
          exact zpow_le_zpow_right₀ (by norm_num) (by omega)
      · split at hv
        · rename_i hnonneg
          exact Double.isRounding_of_reading hv (exists_reading_large hpos hnonneg)
        · rename_i hneg
          refine Double.isRounding_of_reading hv ?_
          rw [value_eq_div (not_le.1 hneg)]
          exact Double.exists_reading_div

/-- A coefficient of 53 bits times a power of ten that is a double, or divided by one. -/
theorem isRounding_mul_div_power {n k : Nat} {p : Float} (hn : n < 2 ^ 53)
    (hp : Double.isPowerOfTen k p.toModel.unpack = true) :
    Double.IsRounding (n.toUInt64.toFloat * p) false (n * 10 ^ k) ∧
      Double.IsRounding (n.toUInt64.toFloat / p) false (n / 10 ^ k) := by
  obtain ⟨m₂, e₂, h₂, hu₂, hp⟩ := Double.exists_of_isPowerOfTen hp
  rcases Nat.eq_zero_or_pos n with rfl | h0
  · have hread : Reading.ofFloat (0 : Nat).toUInt64.toFloat = .finite false ⟨0, -1074⟩ := by
      decide +kernel
    have hu : _ = UnpackedFloat.zero .positive :=
      Double.reading_injective ((Double.ofFloat_eq _).symm.trans hread)
    have hzero : Magnitude.IsNearest ⟨0, -1074⟩ 0 := Double.isNearest_zero (le_refl _) (by positivity)
    rw [Nat.cast_zero, zero_mul, zero_div]
    constructor
    · refine Double.isRounding_of_reading (u := UnpackedFloat.mul Format.binary64
        (0 : Nat).toUInt64.toFloat.toModel.unpack p.toModel.unpack) rfl ⟨_, hzero, ?_⟩
      rw [hu, hu₂]
      rfl
    · refine Double.isRounding_of_reading (u := UnpackedFloat.div Format.binary64
        (0 : Nat).toUInt64.toFloat.toModel.unpack p.toModel.unpack) rfl ⟨_, hzero, ?_⟩
      rw [hu, hu₂]
      rfl
  · have hu := Double.unpack_toFloat h0 hn
    have hv : ((Double.ofWhole n).mantissa * 2 ^ (Double.ofWhole n).exponent : ℚ) = n :=
      Double.value_ofWhole hn
    rw [← hp, ← hv]
    constructor
    · refine Double.isRounding_of_reading (u := UnpackedFloat.mul Format.binary64
        n.toUInt64.toFloat.toModel.unpack p.toModel.unpack) rfl ?_
      rw [hu, hu₂]
      exact Double.exists_reading_mul ((Double.two_pow_le_mantissa_ofWhole h0 hn).trans
        (Nat.le_mul_of_pos_right _ h₂))
    · refine Double.isRounding_of_reading (u := UnpackedFloat.div Format.binary64
        n.toUInt64.toFloat.toModel.unpack p.toModel.unpack) rfl ?_
      rw [hu, hu₂]
      exact Double.exists_reading_div

/-- A decimal is read as the double that it is rounded to. -/
theorem isRounding_toFloat (d : Decimal) : Double.IsRounding d.toFloat false d.value := by
  unfold toFloat Float.ofScientific
  split
  · rename_i hs
    have hp := Double.isPowerOfTen_table ⟨d.exponent.natAbs, Nat.lt_succ_of_le hs.2⟩
    have hr := isRounding_mul_div_power hs.1 hp
    split
    · rename_i hneg
      have hneg := of_decide_eq_true hneg
      have hvalue : d.value = d.coefficient / 10 ^ d.exponent.natAbs := by
        rw [value, ← zpow_natCast, div_eq_mul_inv, ← zpow_neg,
          show -(d.exponent.natAbs : Int) = d.exponent by omega]
      rw [hvalue]
      exact hr.2
    · rename_i hnonneg
      have hnonneg := mt decide_eq_true hnonneg
      have hvalue : d.value = d.coefficient * 10 ^ d.exponent.natAbs := by
        rw [value, ← zpow_natCast, show (d.exponent.natAbs : Int) = d.exponent by omega]
      rw [hvalue]
      exact hr.1
  · rw [ite_negOfNat_natAbs]
    exact isRounding_ofScientific rfl

end Decimal

end PocketCalc
