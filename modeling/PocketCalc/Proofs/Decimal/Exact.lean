import PocketCalc.Proofs.Decimal.Significant

/-!
# Numbers that need no rounding

A product or a quotient that is a double is that double: rounding drops zero bits only, and packing
keeps the bits that are left. So a decimal that stands for a double is read as that double, and the
shortest decimal of a double always reads back.

* `Double.eq_zero_or_isDouble`: the magnitudes of doubles.
* `Double.reading_pack`: a double is packed without loss.
* `Double.mul_exact`, `Double.div_exact`: products and quotients that are doubles.
* `Decimal.reading_toFloat`: a decimal that stands for a double is read as that double.
* `Magnitude.readsBack_shortest`, `Magnitude.signed_shortest`: the shortest decimal reads back.
-/

namespace PocketCalc

/-- The magnitude has the form of a double that is not zero: 53 bits, the first of them set unless
the exponent is the least one. -/
structure Magnitude.IsDouble (m : Magnitude) : Prop where
  pos : 0 < m.mantissa
  bits : m.mantissa < 2 ^ 53
  low : -1074 ≤ m.exponent
  high : m.exponent ≤ 971
  leading : 2 ^ 52 ≤ m.mantissa ∨ m.exponent = -1074

namespace Double

open Float.Model Float.Model.UnpackedFloat

variable {m : Magnitude}

/-- Zero has one form, and all other finite doubles have the form of one. -/
theorem eq_zero_or_isDouble {v : Float} {negative : Bool}
    (h : Reading.ofFloat v = .finite negative m) : m = ⟨0, -1074⟩ ∨ m.IsDouble := by
  obtain ⟨n, e⟩ := m
  unfold Reading.ofFloat Reading.ofBits at h
  simp only [Nat.pow_eq] at h
  split at h
  · split at h <;> cases h
  · split at h <;>
      simp only [Reading.finite.injEq, Magnitude.mk.injEq] at h
    · by_cases hn : n = 0
      · exact .inl (by rw [hn, h.2.2])
      · exact .inr ⟨Nat.pos_of_ne_zero hn, by dsimp only; omega, by dsimp only; omega,
          by dsimp only; omega, .inr h.2.2.symm⟩
    · exact .inr ⟨by dsimp only; omega, by dsimp only; omega, by dsimp only; omega,
        by dsimp only; omega, .inl (by dsimp only; omega)⟩

/-! ## Packing without loss -/

/-- What the fields of a packed number stand for, unless the exponent field is full. -/
theorem reading_packComponents (s : Sign) {x : BitVec 11} (hx : x.toNat ≠ 2047) (k : BitVec 52) :
    reading (UnpackedFloat.unpack Format.binary64 (packComponents Format.binary64 s x k)) =
      .finite (s == .negative)
        (if x.toNat = 0 then ⟨k.toNat, -1074⟩ else ⟨2 ^ 52 + k.toNat, (x.toNat : Int) - 1075⟩) := by
  have hfull : x ≠ -1#11 := fun h => hx (by rw [h]; rfl)
  unfold UnpackedFloat.unpack
  simp only [unpackExponent_packComponents, unpackMantissa_packComponents,
    unpackSign_packComponents, Sign.ofBitVec_toBitVec]
  rw [if_neg hfull]
  by_cases h0 : x.toNat = 0
  · obtain rfl : x = 0#11 := BitVec.eq_of_toNat_eq h0
    rw [if_pos rfl, if_pos h0]
    by_cases hk : k = 0#52
    · rw [dif_pos hk, hk]
      rfl
    · rw [dif_neg hk]
      rfl
  · rw [if_neg (fun h => h0 (by rw [h]; rfl)), if_neg h0, reading, toNat_append_mantissa]
    rfl

/-- A double is packed as what it is. -/
theorem reading_pack (h : m.IsDouble) (s : Sign) :
    reading (Float.Model.pack (.finite s m.mantissa m.exponent h.pos)).unpack =
      .finite (s == .negative) m := by
  change reading (UnpackedFloat.unpack Format.binary64 (UnpackedFloat.pack Format.binary64
    (.finite s m.mantissa m.exponent h.pos))) = _
  obtain ⟨n, e⟩ := m
  obtain ⟨hpos, hbits, hlow, hhigh, hlead⟩ := h
  dsimp only at hpos hbits hlow hhigh hlead ⊢
  have hfield : (e + Format.binary64.exponentBias + Format.binary64.mantissaBitsWithoutImplicit) =
      e + 1075 := by
    change e + (1023 : Nat) + (52 : Nat) = _
    omega
  have hexp : (BitVec.ofNat 11 (e + 1075).toNat).toNat = (e + 1075).toNat := by
    rw [BitVec.toNat_ofNat, Nat.mod_eq_of_lt]
    omega
  have hmant : (BitVec.ofNat 52 n).toNat = n % 2 ^ 52 := BitVec.toNat_ofNat n 52
  have hwidth : Format.binary64.mantissaBits = 53 := rfl
  unfold UnpackedFloat.pack
  dsimp only
  rw [hfield, if_neg (show ¬ 2 ^ 11 ≤ (e + 1075).toNat + 1 by omega), hwidth]
  by_cases hn : 2 ^ 52 ≤ n
  · have hlog : n.log2 = 52 := (Nat.log2_eq_iff hpos.ne').2 ⟨hn, hbits⟩
    rw [if_pos (by omega), reading_packComponents s (by omega), if_neg (by omega), hexp, hmant]
    congr 2 <;> omega
  · have hlog : n.log2 < 52 := (Nat.log2_lt hpos.ne').2 (Nat.lt_of_not_le hn)
    rw [if_neg (by omega), reading_packComponents s (by decide), if_pos (by rfl), hmant,
      Nat.mod_eq_of_lt (Nat.lt_of_not_le hn), hlead.resolve_left hn]

theorem sign_eq_of_beq {s t : Sign} (h : (s == .negative) = (t == .negative)) : s = t := by
  cases s <;> cases t <;> first | rfl | cases h

/-- What an unpacked number stands for tells which one it is. -/
theorem reading_injective : Function.Injective reading := by
  intro u w h
  cases u <;> cases w <;>
    simp only [reading, reduceCtorEq, Reading.infinite.injEq, Reading.finite.injEq,
      Magnitude.mk.injEq] at h ⊢
  case infinity.infinity => rw [sign_eq_of_beq h]
  case zero.zero => rw [sign_eq_of_beq h.1]
  case zero.finite hn => exact absurd h.2.1 hn.ne
  case finite.zero hm _ => exact absurd h.2.1 hm.ne'
  case finite.finite =>
    obtain ⟨hs, rfl, rfl⟩ := h
    rw [sign_eq_of_beq hs]

/-- Two doubles that stand for the same number are the same. -/
theorem eq_of_reading_eq {u v : Float} (h : Reading.ofFloat u = Reading.ofFloat v) : u = v := by
  rw [ofFloat_eq, ofFloat_eq] at h
  have hbits := (unpack_inj_of_valid u.toModel.valid v.toModel.valid).1 (reading_injective h)
  exact eq_of_toBits_eq (UInt64.toBitVec_inj.1 hbits)

/-- The other sign in front of a double. -/
theorem reading_neg {v : Float} {negative : Bool} (h : Reading.ofFloat v = .finite negative m) :
    Reading.ofFloat (-v) = .finite (!negative) m := by
  have hu := h
  rw [ofFloat_eq] at hu ⊢
  change reading (Float.Model.pack v.toModel.unpack.neg).unpack = _
  generalize v.toModel.unpack = u at hu
  cases u with
  | notANumber => cases hu
  | infinity s => cases hu
  | zero s =>
    cases hu
    cases s <;> rfl
  | finite s n e hn =>
    cases hu
    have hd := (eq_zero_or_isDouble h).resolve_left fun h0 => hn.ne' (congrArg (·.mantissa) h0)
    refine (reading_pack hd (-s)).trans ?_
    cases s <;> rfl

theorem neg_neg {v : Float} (hv : v.isFinite = true) : -(-v) = v := by
  obtain ⟨negative, m, hm⟩ := isFinite_iff_reading.1 hv
  refine eq_of_reading_eq ?_
  rw [reading_neg (reading_neg hm), Bool.not_not, hm]

/-! ## Rounding without loss -/

/-- Dropping zero bits loses nothing. -/
theorem shiftRight_zeros (n k : Nat) :
    (ExtendedMantissa.mk (n * 2 ^ k) false false) >>> k = ⟨n, false, false⟩ := by
  induction k generalizing n with
  | zero => simp [HShiftRight.hShiftRight, Nat.repeat]
  | succ k ih =>
    have h : (ExtendedMantissa.mk (n * 2 ^ (k + 1)) false false) >>> k = ⟨n * 2, false, false⟩ := by
      rw [← ih (n * 2), Nat.pow_succ', Nat.mul_assoc]
    change ((ExtendedMantissa.mk (n * 2 ^ (k + 1)) false false) >>> k).shiftRightOne = _
    rw [h]
    simp [ExtendedMantissa.shiftRightOne]

/-- Of a double with zero bits behind it rounding drops those zero bits. -/
theorem dropped_of_isDouble (h : m.IsDouble) (k : Nat) :
    dropped (m.mantissa * 2 ^ k) (m.exponent - k) = k := by
  have hlog : (m.mantissa * 2 ^ k).log2 = m.mantissa.log2 + k := by
    refine (Nat.log2_eq_iff (Nat.mul_ne_zero h.pos.ne' (Nat.two_pow_pos k).ne')).2 ⟨?_, ?_⟩
    · rw [Nat.pow_add]
      exact Nat.mul_le_mul_right _ (Nat.log2_self_le h.pos.ne')
    · rw [Nat.add_right_comm, Nat.pow_add]
      exact Nat.mul_lt_mul_of_pos_right Nat.lt_log2_self (Nat.two_pow_pos k)
  have hlow := h.low
  have hbits := (Nat.log2_lt h.pos.ne').2 h.bits
  unfold dropped
  rw [hlog]
  rcases h.leading with hn | he
  · have := (Nat.le_log2 h.pos.ne').2 hn
    omega
  · omega

/-- Rounding a number that is a double gives that double. -/
theorem round_exact (h : m.IsDouble) (s : Sign) {n : Nat} {e : Int} (he : e ≤ m.exponent)
    (hn : n = m.mantissa * 2 ^ (m.exponent - e).toNat) :
    roundWithAccuracy Format.binary64 s n e .exact = .finite s m.mantissa m.exponent h.pos := by
  have hfirst : shiftToTargetExponent Format.binary64 n e .exact =
      (⟨m.mantissa, false, false⟩, m.exponent) := by
    have hd := dropped_of_isDouble h (m.exponent - e).toNat
    rw [show m.exponent - ((m.exponent - e).toNat : Int) = e by omega, ← hn] at hd
    rw [shiftToTargetExponent_eq, hd, ExtendedMantissa.ofMantissaAndAccuracy, hn, shiftRight_zeros]
    congr 1
    omega
  -- There is nothing to round, so the second shift finds the double as it is.
  have hsecond : shiftToTargetExponent Format.binary64 m.mantissa m.exponent .exact =
      (⟨m.mantissa, false, false⟩, m.exponent) := by
    have hd := dropped_of_isDouble h 0
    simp only [Nat.pow_zero, Nat.mul_one, Nat.cast_zero, sub_zero] at hd
    rw [shiftToTargetExponent_eq, hd]
    simp [ExtendedMantissa.ofMantissaAndAccuracy, HShiftRight.hShiftRight, Nat.repeat]
  have hrounded : (ExtendedMantissa.mk m.mantissa false false).roundedMantissa = m.mantissa := rfl
  unfold roundWithAccuracy
  simp only [hfirst, hrounded, hsecond]
  rw [dif_neg h.pos.ne']

/-- A multiple of a double, as a multiple of a smaller power of two. -/
theorem eq_mantissa_mul {n k : Nat} {e : Int} (he : e ≤ m.exponent) (hv : n * 2 ^ e = m.value * k) :
    n = m.mantissa * 2 ^ (m.exponent - e).toNat * k := by
  have hsplit : (2 : ℚ) ^ m.exponent = 2 ^ (m.exponent - e).toNat * 2 ^ e := by
    rw [← zpow_natCast, ← zpow_add₀ (by norm_num)]
    congr 1
    omega
  have hv : (n : ℚ) * 2 ^ e = m.mantissa * 2 ^ (m.exponent - e).toNat * k * 2 ^ e := by
    rw [hv, Magnitude.value, hsplit]
    ring
  exact_mod_cast mul_right_cancel₀ (two_zpow_pos e).ne' hv

theorem value_lt (h : m.IsDouble) : m.value < 2 ^ (53 + m.exponent) :=
  lt_two_zpow h.bits (le_refl _)

theorem mul_exact (h : m.IsDouble) {m₁ m₂ : Nat} {e₁ e₂ : Int} {h₁ : 0 < m₁} {h₂ : 0 < m₂}
    (hbits : 2 ^ 52 ≤ m₁ * m₂) (hv : (m₁ * 2 ^ e₁ : ℚ) * (m₂ * 2 ^ e₂) = m.value) :
    UnpackedFloat.mul Format.binary64 (.finite .positive m₁ e₁ h₁) (.finite .positive m₂ e₂ h₂) =
      .finite .positive m.mantissa m.exponent h.pos := by
  have hprod : ((m₁ * m₂ : Nat) : ℚ) * 2 ^ (e₁ + e₂) = m.value := by
    rw [← hv, zpow_add₀ (by norm_num)]
    push_cast
    ring
  have hlt : (2 : ℚ) ^ (52 + (e₁ + e₂)) < 2 ^ (53 + m.exponent) := by
    refine lt_of_le_of_lt ?_ (value_lt h)
    rw [← hprod, zpow_add₀ (by norm_num)]
    exact mul_le_mul_of_nonneg_right (by exact_mod_cast hbits) (two_zpow_pos _).le
  have he : e₁ + e₂ ≤ m.exponent := by
    have := (zpow_lt_zpow_iff_right₀ (show (1 : ℚ) < 2 by norm_num)).1 hlt
    omega
  have hn := eq_mantissa_mul (k := 1) he (by rw [hprod, Nat.cast_one, mul_one])
  exact round_exact h .positive he (hn.trans (Nat.mul_one _))

/-- A quotient that is a double is found without a remainder. -/
theorem div_exact (h : m.IsDouble) {m₁ m₂ : Nat} {e₁ e₂ : Int} {h₁ : 0 < m₁} {h₂ : 0 < m₂}
    (hv : (m₁ * 2 ^ e₁ : ℚ) = m.value * (m₂ * 2 ^ e₂)) :
    UnpackedFloat.div Format.binary64 (.finite .positive m₁ e₁ h₁) (.finite .positive m₂ e₂ h₂) =
      .finite .positive m.mantissa m.exponent h.pos := by
  have hlog : (m₁.log2 : Int) + e₁ < 53 + m.exponent + (m₂.log2 + 1 + e₂) := by
    refine (zpow_lt_zpow_iff_right₀ (show (1 : ℚ) < 2 by norm_num)).1 ?_
    have hpos : (0 : ℚ) < m₂ * 2 ^ e₂ := mul_pos (by exact_mod_cast h₂) (two_zpow_pos e₂)
    calc (2 : ℚ) ^ ((m₁.log2 : Int) + e₁) ≤ m₁ * 2 ^ e₁ := two_zpow_log2_le h₁ e₁
      _ = m.value * (m₂ * 2 ^ e₂) := hv
      _ < 2 ^ (53 + m.exponent) * (m₂ * 2 ^ e₂) := mul_lt_mul_of_pos_right (value_lt h) hpos
      _ < 2 ^ (53 + m.exponent) * 2 ^ ((m₂.log2 : Int) + 1 + e₂) :=
        mul_lt_mul_of_pos_left (lt_two_zpow_log2 m₂ e₂) (two_zpow_pos _)
      _ = 2 ^ (53 + m.exponent + ((m₂.log2 : Int) + 1 + e₂)) := (zpow_add₀ (by norm_num) _ _).symm
  have htarget : Format.binary64.targetExponent (totalExponent m₁ e₁ - totalExponent m₂ e₂) ≤
      m.exponent := by
    have hlow := h.low
    have hmin : Format.binary64.minExponent = -1074 := rfl
    have hbits : (Format.binary64.mantissaBits : Int) = 53 := rfl
    unfold Format.targetExponent totalExponent
    rw [hmin, hbits]
    omega
  unfold UnpackedFloat.div divCore
  dsimp only
  generalize ht : min (e₁ - e₂)
    (Format.binary64.targetExponent (totalExponent m₁ e₁ - totalExponent m₂ e₂)) = t
  have hle : t ≤ e₁ - e₂ := by omega
  have he : t ≤ m.exponent := by omega
  have hq : m₁ <<< (e₁ - e₂ - t).toNat = m.mantissa * 2 ^ (m.exponent - t).toNat * m₂ := by
    refine eq_mantissa_mul he (mul_right_cancel₀ (two_zpow_pos e₂).ne' ?_)
    rw [Nat.shiftLeft_eq]
    push_cast
    rw [← zpow_natCast, Int.toNat_of_nonneg (by omega)]
    calc (m₁ * 2 ^ (e₁ - e₂ - t) * 2 ^ t * 2 ^ e₂ : ℚ)
        = m₁ * (2 ^ (e₁ - e₂ - t) * 2 ^ t * 2 ^ e₂) := by ring
      _ = m₁ * 2 ^ e₁ := by
        rw [← zpow_add₀ (by norm_num), ← zpow_add₀ (by norm_num)]
        congr 2
        omega
      _ = m.value * m₂ * 2 ^ e₂ := by rw [hv, mul_assoc]
  rw [hq, Nat.mul_div_cancel _ h₂, Nat.mul_mod_left]
  exact round_exact h .positive he rfl

/-! ## Whole numbers and powers of ten -/

/-- The double that a whole number of 53 bits is. -/
def ofWhole (n : Nat) : Magnitude := ⟨n * 2 ^ (52 - n.log2), (n.log2 : Int) - 52⟩

theorem two_pow_le_mantissa_ofWhole {n : Nat} (h0 : 0 < n) (hn : n < 2 ^ 53) :
    2 ^ 52 ≤ (ofWhole n).mantissa := by
  have hlog : n.log2 ≤ 52 := log2_le_of_lt hn
  calc 2 ^ 52 = 2 ^ n.log2 * 2 ^ (52 - n.log2) := by rw [← Nat.pow_add]; congr 1; omega
    _ ≤ n * 2 ^ (52 - n.log2) := Nat.mul_le_mul_right _ (Nat.log2_self_le h0.ne')

theorem isDouble_ofWhole {n : Nat} (h0 : 0 < n) (hn : n < 2 ^ 53) : (ofWhole n).IsDouble := by
  have hlog : n.log2 ≤ 52 := log2_le_of_lt hn
  refine ⟨Nat.mul_pos h0 (Nat.two_pow_pos _), ?_, ?_, ?_,
    .inl (two_pow_le_mantissa_ofWhole h0 hn)⟩
  · calc n * 2 ^ (52 - n.log2) < 2 ^ (n.log2 + 1) * 2 ^ (52 - n.log2) :=
          Nat.mul_lt_mul_of_pos_right Nat.lt_log2_self (Nat.two_pow_pos _)
      _ = 2 ^ 53 := by rw [← Nat.pow_add]; congr 1; omega
  · dsimp only [ofWhole]
    omega
  · dsimp only [ofWhole]
    omega

theorem value_ofWhole {n : Nat} (hn : n < 2 ^ 53) : (ofWhole n).value = n := by
  have hlog : n.log2 ≤ 52 := log2_le_of_lt hn
  unfold ofWhole Magnitude.value
  push_cast
  rw [← zpow_natCast, mul_assoc, ← zpow_add₀ (by norm_num), Nat.cast_sub hlog]
  simp

/-- A whole number of 53 bits is converted without loss. -/
theorem unpack_toFloat {n : Nat} (h0 : 0 < n) (hn : n < 2 ^ 53) :
    n.toUInt64.toFloat.toModel.unpack =
      .finite .positive (ofWhole n).mantissa (ofWhole n).exponent (isDouble_ofWhole h0 hn).pos := by
  have hd := isDouble_ofWhole h0 hn
  refine reading_injective (Eq.trans ?_ (reading_pack hd .positive))
  change reading (Float.Model.pack (UnpackedFloat.normalize Format.binary64
    (n.toUInt64.toNat : Int) 0 .positive)).unpack = _
  rw [show n.toUInt64.toNat = n from UInt64.toNat_ofNat_of_lt' (lt_trans hn (by decide))]
  congr 3
  have hcmp : compare (n : Int) 0 = .gt := compare_gt_iff_gt.2 (by omega)
  have hlog : n.log2 ≤ 52 := log2_le_of_lt hn
  unfold UnpackedFloat.normalize UnpackedFloat.round decreaseExponent
  rw [hcmp]
  simp only [Int.toNat_natCast, targetExponent_eq]
  rw [show (0 - max ((n.log2 : Int) + 0 - 52) (-1074)).toNat = 52 - n.log2 by omega,
    Nat.shiftLeft_eq]
  have he : (ofWhole n).exponent = 0 - ((52 - n.log2 : Nat) : Int) := by
    dsimp only [ofWhole]
    omega
  refine round_exact hd .positive he.ge ?_
  rw [he, sub_self]
  exact (Nat.mul_one _).symm

/-- Whether an unpacked number is a power of ten. -/
def isPowerOfTen (k : Nat) : UnpackedFloat → Bool
  | .finite .positive m e _ => decide (m * 2 ^ e.toNat = 10 ^ k * 2 ^ (-e).toNat)
  | _ => false

theorem isPowerOfTen_table : ∀ k : Fin Float.exactlyRepresentablePowersOfTen.size,
    isPowerOfTen k Float.exactlyRepresentablePowersOfTen[k].toModel.unpack = true := by
  decide +kernel

theorem exists_of_isPowerOfTen {k : Nat} {u : UnpackedFloat} (h : isPowerOfTen k u = true) :
    ∃ m e hm, u = .finite .positive m e hm ∧ (m * 2 ^ e : ℚ) = 10 ^ k := by
  unfold isPowerOfTen at h
  split at h
  · rename_i m e hm
    refine ⟨m, e, hm, rfl, ?_⟩
    have h : (m * 2 ^ e.toNat : ℚ) = 10 ^ k * 2 ^ (-e).toNat := by
      exact_mod_cast of_decide_eq_true h
    rw [zpow_eq_div two_ne_zero, ← mul_div_assoc, h, mul_div_assoc, div_self (by positivity),
      mul_one]
  · cases h

/-- A whole number of 53 bits times a power of ten, or divided by one, where that is a double. -/
theorem reading_mul_div_power (h : m.IsDouble) {n k : Nat} {p : Float} (h0 : 0 < n)
    (hn : n < 2 ^ 53) (hp : isPowerOfTen k p.toModel.unpack = true) :
    (n * 10 ^ k = m.value → Reading.ofFloat (n.toUInt64.toFloat * p) = .finite false m) ∧
    (n = m.value * 10 ^ k → Reading.ofFloat (n.toUInt64.toFloat / p) = .finite false m) := by
  have hu := unpack_toFloat h0 hn
  have hv := value_ofWhole hn
  obtain ⟨m₂, e₂, h₂, hu₂, hp⟩ := exists_of_isPowerOfTen hp
  constructor
  · intro hm
    rw [ofFloat_eq]
    change reading (Float.Model.pack (UnpackedFloat.mul Format.binary64
      n.toUInt64.toFloat.toModel.unpack p.toModel.unpack)).unpack = _
    rw [hu, hu₂, mul_exact h (le_trans (two_pow_le_mantissa_ofWhole h0 hn)
      (Nat.le_mul_of_pos_right _ h₂)) (by rw [hp, ← hm, ← hv]; rfl)]
    exact reading_pack h .positive
  · intro hm
    rw [ofFloat_eq]
    change reading (Float.Model.pack (UnpackedFloat.div Format.binary64
      n.toUInt64.toFloat.toModel.unpack p.toModel.unpack)).unpack = _
    rw [hu, hu₂, div_exact h (by rw [hp, ← hm, ← hv]; rfl)]
    exact reading_pack h .positive

end Double

/-! ## Decimals that are doubles -/

namespace Decimal

open Float.Model Float.Model.UnpackedFloat

variable {m : Magnitude} {d : Decimal}

theorem coefficient_pos (h : m.IsDouble) (hv : d.value = m.value) : 0 < d.coefficient := by
  refine Nat.pos_of_ne_zero fun h0 => ?_
  have := Magnitude.value_pos h.pos.ne'
  rw [← hv, value, h0, Nat.cast_zero, zero_mul] at this
  exact lt_irrefl _ this

/-- A bound on a decimal below one by powers of two. -/
theorem value_lt_two_zpow (h : d.exponent ≤ 0) :
    d.value < 2 ^ ((d.coefficient.log2 : Int) + 1 + d.exponent) := by
  have hle : (10 : ℚ) ^ d.exponent ≤ 2 ^ d.exponent := by
    obtain ⟨k, hk⟩ : ∃ k : Nat, d.exponent = -(k : Int) := ⟨d.exponent.natAbs, by omega⟩
    rw [hk, zpow_neg, zpow_neg, zpow_natCast, zpow_natCast]
    exact inv_anti₀ (by positivity) (pow_le_pow_left₀ (by norm_num) (by norm_num) k)
  calc d.value ≤ d.coefficient * 2 ^ d.exponent :=
        mul_le_mul_of_nonneg_left hle (Nat.cast_nonneg _)
    _ < 2 ^ ((d.coefficient.log2 : Int) + 1 + d.exponent) := Double.lt_two_zpow_log2 _ _

/-- A decimal that is a double is not taken for too small. -/
theorem le_exponent (h : m.IsDouble) (hv : d.value = m.value) :
    -(2048 + (d.coefficient.log2 : Int)) ≤ d.exponent := by
  by_contra hlt
  have hsmall : (2 : ℚ) ^ (-1074 : Int) < 2 ^ ((d.coefficient.log2 : Int) + 1 + d.exponent) := by
    calc (2 : ℚ) ^ (-1074 : Int) ≤ 2 ^ m.exponent := zpow_le_zpow_right₀ (by norm_num) h.low
      _ ≤ m.value := le_mul_of_one_le_left (Double.two_zpow_pos _).le (by exact_mod_cast h.pos)
      _ = d.value := hv.symm
      _ < 2 ^ ((d.coefficient.log2 : Int) + 1 + d.exponent) := value_lt_two_zpow (by omega)
  have := (zpow_lt_zpow_iff_right₀ (show (1 : ℚ) < 2 by norm_num)).1 hsmall
  omega

/-- By way of whole numbers: the coefficient times a power of ten, or divided by one. -/
theorem ofScientific_exact (h : m.IsDouble) (hv : d.value = m.value) :
    UnpackedFloat.ofScientific Format.binary64 d.coefficient d.exponent =
      .finite .positive m.mantissa m.exponent h.pos := by
  have hpos := coefficient_pos h hv
  have hlow := le_exponent h hv
  have hhigh := exponent_lt_of_value_le hpos.ne' (hv.trans_le (Double.le_largest h.bits h.high))
  have hbits : Format.binary64.mantissaBits = 53 := rfl
  unfold UnpackedFloat.ofScientific
  rw [dif_neg hpos.ne', if_neg (show ¬ d.exponent > 2 ^ 11 by omega),
    if_neg (show ¬ d.exponent < -((2 ^ 11 : Int) + d.coefficient.log2) by omega)]
  split
  · rename_i hnonneg
    refine Double.mul_exact h ?_ ?_
    · rw [hbits, Nat.shiftLeft_eq]
      calc 2 ^ 52 ≤ 1 * 2 ^ 53 * 1 := by decide
        _ ≤ d.coefficient * 2 ^ 53 * 10 ^ d.exponent.toNat :=
          Nat.mul_le_mul (Nat.mul_le_mul_right _ hpos) (Nat.pow_pos (by decide))
    · rw [hbits, Nat.shiftLeft_eq]
      push_cast
      calc (d.coefficient * 2 ^ 53 * 2 ^ (-53 : Int) * (10 ^ d.exponent.toNat * 2 ^ (0 : Int)) : ℚ)
          = d.coefficient * 10 ^ d.exponent.toNat := by norm_num [mul_assoc]
        _ = m.value := by rw [← hv, value, ← zpow_natCast, Int.toNat_of_nonneg hnonneg]
  · rename_i hneg
    refine Double.div_exact h ?_
    push_cast
    rw [mul_one, mul_one, ← zpow_natCast, Int.toNat_of_nonneg (by omega), ← hv, value, mul_assoc,
      ← zpow_add₀ (by norm_num), add_neg_cancel, zpow_zero, mul_one]

/-- A decimal that stands for a double is read as that double. -/
theorem reading_toFloat (h : m.IsDouble) (hv : d.value = m.value) :
    Reading.ofFloat d.toFloat = .finite false m := by
  unfold toFloat Float.ofScientific
  split
  · rename_i hs
    have hp := Double.isPowerOfTen_table ⟨d.exponent.natAbs, Nat.lt_succ_of_le hs.2⟩
    have hr := Double.reading_mul_div_power h (coefficient_pos h hv) hs.1 hp
    split
    · rename_i hneg
      have hneg := of_decide_eq_true hneg
      refine hr.2 ?_
      rw [← hv, value, mul_assoc, ← zpow_natCast, ← zpow_add₀ (by norm_num),
        show d.exponent + (d.exponent.natAbs : Int) = 0 by omega, zpow_zero, mul_one]
    · rename_i hnonneg
      have hnonneg := mt decide_eq_true hnonneg
      refine hr.1 ?_
      rw [← hv, value, ← zpow_natCast, show (d.exponent.natAbs : Int) = d.exponent by omega]
  · rw [ite_negOfNat_natAbs, Double.ofFloat_eq]
    change Double.reading (Float.Model.pack (UnpackedFloat.ofScientific Format.binary64
      d.coefficient d.exponent)).unpack = _
    rw [ofScientific_exact h hv]
    exact Double.reading_pack h .positive

end Decimal

/-! ## The shortest decimal -/

namespace Magnitude

variable {v : Float} {negative : Bool} {m : Magnitude}

/-- The shortest decimal of a double reads back, also where the search found none. -/
theorem readsBack_shortest (h : Reading.ofFloat v = .finite negative m) :
    Reading.ofFloat m.shortest.toFloat = .finite false m := by
  rcases Double.eq_zero_or_isDouble h with rfl | hd
  · decide +kernel
  · rcases m.shortest_cases with ⟨h0, -⟩ | ⟨hr, -⟩ | ⟨-, hs⟩
    · exact absurd h0 hd.pos.ne'
    · exact eq_of_beq hr
    · refine Decimal.reading_toFloat hd ?_
      rw [hs, Decimal.value_reduced, value_exact]

/-- With its sign the shortest decimal of a double is read as that double. -/
theorem signed_shortest (h : Reading.ofFloat v = .finite negative m) :
    (if negative then -m.shortest.toFloat else m.shortest.toFloat) = v := by
  have hr := readsBack_shortest h
  refine Double.eq_of_reading_eq (Eq.trans ?_ h.symm)
  cases negative with
  | false => exact hr
  | true => exact Double.reading_neg hr

/-- Only zero is written as zero. -/
theorem shortest_ne_zero (h : Reading.ofFloat v = .finite negative m) (hm : m.mantissa ≠ 0) :
    m.shortest ≠ ⟨0, 0⟩ := by
  intro h0
  have hz : Reading.ofFloat (Decimal.toFloat ⟨0, 0⟩) = .finite false ⟨0, -1074⟩ := by
    decide +kernel
  have hr := readsBack_shortest h
  rw [h0, hz] at hr
  cases hr
  exact hm rfl

end Magnitude

end PocketCalc
