import Mathlib
import PocketCalc.Decimal.Binary

/-!
# Doubles and their bits

A double is packed into 64 bits and unpacked again for each operation. What it stands for is read
off the same bits, so the two views agree. A packed number is finite as long as its exponent is at
most 971.

* `ofFloat_eq`: what a double reads as is what it is unpacked to.
* `isFinite_iff_reading`: a double is finite exactly when it reads as a magnitude.
* `bounds_of_reading`: the magnitudes of doubles.
* `within_unpack_pack`: packing keeps a bound on the exponent.
* `isFinite_neg`: the sign has no part in that.
* `beq_zero_iff`: the doubles that are equal to zero.
-/

namespace PocketCalc

namespace Double

open Float.Model Float.Model.UnpackedFloat

/-! ## The three fields -/

theorem unpackMantissa_eq_iff {b : BitVec 64} {k : BitVec 52} :
    @unpackMantissa Format.binary64 b = k ↔ b.toNat % 2 ^ 52 = k.toNat := by
  rw [← BitVec.toNat_inj]
  simp [unpackMantissa]

theorem unpackExponent_eq_iff {b : BitVec 64} {k : BitVec 11} :
    @unpackExponent Format.binary64 b = k ↔ b.toNat / 2 ^ 52 % 2 ^ 11 = k.toNat := by
  rw [← BitVec.toNat_inj]
  simp [unpackExponent, Nat.shiftRight_eq_div_pow]

/-- The sign is the highest bit. -/
theorem ofBitVec_unpackSign (b : BitVec 64) : Sign.ofBitVec (@unpackSign Format.binary64 b) =
    if 2 ^ 63 ≤ b.toNat then .negative else .positive := by
  have hb := b.isLt
  have hs : (@unpackSign Format.binary64 b).toNat = b.toNat / 2 ^ 63 % 2 := by
    simp [unpackSign, Nat.shiftRight_eq_div_pow]
  by_cases h : 2 ^ 63 ≤ b.toNat
  · have h1 : @unpackSign Format.binary64 b = 1#1 :=
      BitVec.eq_of_toNat_eq (hs.trans (by change _ = 1; omega))
    rw [h1, if_pos h]
    rfl
  · have h0 : @unpackSign Format.binary64 b = 0#1 :=
      BitVec.eq_of_toNat_eq (hs.trans (by change _ = 0; omega))
    rw [h0, if_neg h]
    rfl

/-- The hidden bit stands in front of the mantissa field. -/
theorem toNat_append_mantissa (k : BitVec 52) : (1#1 ++ k).toNat = 2 ^ 52 + k.toNat := by
  rw [BitVec.toNat_append, ← Nat.shiftLeft_add_eq_or_of_lt k.isLt]
  rfl

/-! ## Reading and unpacking -/

/-- What an unpacked number stands for. -/
def reading : UnpackedFloat → Reading
  | .notANumber => .notANumber
  | .infinity s => .infinite (s == .negative)
  | .zero s => .finite (s == .negative) ⟨0, -1074⟩
  | .finite s m e _ => .finite (s == .negative) ⟨m, e⟩

theorem ofBits_toNat (b : BitVec 64) :
    Reading.ofBits b.toNat = reading (UnpackedFloat.unpack Format.binary64 b) := by
  have hneg : (Sign.ofBitVec (@unpackSign Format.binary64 b) == .negative) =
      decide (2 ^ 63 ≤ b.toNat) := by
    rw [ofBitVec_unpackSign]
    by_cases h : 2 ^ 63 ≤ b.toNat
    · rw [if_pos h, decide_eq_true h]
      rfl
    · rw [if_neg h, decide_eq_false h]
      rfl
  have hmant : (@unpackMantissa Format.binary64 b).toNat = b.toNat % 2 ^ 52 :=
    (unpackMantissa_eq_iff.1 rfl).symm
  have hexp : (@unpackExponent Format.binary64 b).toNat = b.toNat / 2 ^ 52 % 2 ^ 11 :=
    (unpackExponent_eq_iff.1 rfl).symm
  unfold Reading.ofBits UnpackedFloat.unpack
  simp only [Nat.pow_eq]
  by_cases hall : b.toNat / 2 ^ 52 % 2 ^ 11 = 2047
  · rw [if_pos hall, if_pos (unpackExponent_eq_iff.2 hall)]
    by_cases hfrac : b.toNat % 2 ^ 52 = 0
    · rw [if_pos hfrac, if_pos (unpackMantissa_eq_iff.2 hfrac), reading, hneg]
    · rw [if_neg hfrac, if_neg (mt unpackMantissa_eq_iff.1 hfrac), reading]
  · rw [if_neg hall, if_neg (mt unpackExponent_eq_iff.1 hall)]
    by_cases hzero : b.toNat / 2 ^ 52 % 2 ^ 11 = 0
    · rw [if_pos hzero, if_pos (unpackExponent_eq_iff.2 hzero)]
      by_cases hfrac : b.toNat % 2 ^ 52 = 0
      · rw [dif_pos (unpackMantissa_eq_iff.2 hfrac), reading, hneg, hfrac]
      · rw [dif_neg (mt unpackMantissa_eq_iff.1 hfrac), reading, hneg, hmant,
          unpackExponent_eq_iff (k := 0#11) |>.2 hzero]
        rfl
    · rw [if_neg hzero, if_neg (mt unpackExponent_eq_iff.1 hzero), reading, hneg,
        toNat_append_mantissa, hmant, hexp]
      rfl

theorem ofFloat_eq (v : Float) : Reading.ofFloat v = reading v.toModel.unpack :=
  ofBits_toNat v.toModel.toBits.toBitVec

theorem isFinite_eq (v : Float) : v.isFinite = v.toModel.unpack.isFinite := rfl

theorem isFinite_iff_reading {v : Float} :
    v.isFinite = true ↔ ∃ negative m, Reading.ofFloat v = .finite negative m := by
  rw [ofFloat_eq, isFinite_eq]
  cases v.toModel.unpack <;> simp [UnpackedFloat.isFinite, reading]

/-- The mantissa of a double has 53 bits at most, and its exponent the range of its field. -/
theorem bounds_of_reading {v : Float} {negative : Bool} {m : Magnitude}
    (h : Reading.ofFloat v = .finite negative m) :
    m.mantissa < 2 ^ 53 ∧ -1074 ≤ m.exponent ∧ m.exponent ≤ 971 := by
  unfold Reading.ofFloat Reading.ofBits at h
  simp only [Nat.pow_eq] at h
  split at h
  · split at h <;> cases h
  · split at h
    · cases h
      dsimp only
      omega
    · cases h
      dsimp only
      omega

theorem bounds_of_unpack {v : Float} {s : Sign} {m : Nat} {e : Int} {hm : 0 < m}
    (h : v.toModel.unpack = .finite s m e hm) : m < 2 ^ 53 ∧ -1074 ≤ e ∧ e ≤ 971 :=
  bounds_of_reading (v := v) (m := ⟨m, e⟩) ((ofFloat_eq v).trans (by rw [h]; rfl))

/-! ## Packing -/

/-- A number that is zero, or has no exponent above a bound. -/
def Within (bound : Int) : UnpackedFloat → Prop
  | .notANumber => False
  | .infinity _ => False
  | .zero _ => True
  | .finite _ _ e _ => e ≤ bound

theorem Within.isFinite {x : Int} {u : UnpackedFloat} (h : Within x u) : u.isFinite = true := by
  cases u with
  | notANumber => exact h.elim
  | infinity s => exact h.elim
  | zero s => rfl
  | finite s m e hm => rfl

theorem Within.neg {x : Int} {u : UnpackedFloat} (h : Within x u) : Within x u.neg := by
  cases u <;> exact h

theorem Within.mono {x y : Int} (hxy : x ≤ y) {u : UnpackedFloat} (h : Within x u) :
    Within y u := by
  cases u with
  | notANumber => exact h
  | infinity s => exact h
  | zero s => exact h
  | finite s m e hm => exact Int.le_trans h hxy

/-- What the exponent field holds bounds what is unpacked. -/
theorem within_unpack {b : BitVec 64} {x : Int} (hlow : -1074 ≤ x) (hhigh : x ≤ 971)
    (h : (@unpackExponent Format.binary64 b).toNat ≤ x + 1075) :
    Within x (UnpackedFloat.unpack Format.binary64 b) := by
  have hall : @unpackExponent Format.binary64 b ≠ -1#_ := by
    intro hc
    rw [hc] at h
    have : ((2047 : Nat) : Int) ≤ x + 1075 := h
    omega
  unfold UnpackedFloat.unpack
  dsimp only
  rw [if_neg hall]
  by_cases hzero : @unpackExponent Format.binary64 b = 0#_
  · rw [if_pos hzero]
    split
    · trivial
    · rw [hzero]
      exact hlow
  · rw [if_neg hzero]
    have hbias : (Format.binary64.exponentBias : Int) = 1023 := rfl
    simp only [Within, hbias]
    omega

theorem within_unpack_pack {x : Int} (hlow : -1074 ≤ x) (hhigh : x ≤ 971) {u : UnpackedFloat}
    (h : Within x u) : Within x (Float.Model.pack u).unpack := by
  refine within_unpack hlow hhigh ?_
  change (@unpackExponent Format.binary64 (UnpackedFloat.pack Format.binary64 u)).toNat ≤ x + 1075
  cases u with
  | notANumber => exact h.elim
  | infinity s => exact h.elim
  | zero s =>
    rw [UnpackedFloat.pack, packedZero, unpackExponent_packComponents]
    change ((0 : Nat) : Int) ≤ _
    omega
  | finite s m e hm =>
    have he : e ≤ x := h
    have hbias : (e + Format.binary64.exponentBias + Format.binary64.mantissaBitsWithoutImplicit) =
        e + 1075 := by
      change e + (1023 : Nat) + (52 : Nat) = _
      omega
    unfold UnpackedFloat.pack
    dsimp only
    rw [hbias, if_neg (show ¬ 2 ^ 11 ≤ (e + 1075).toNat + 1 by omega)]
    split
    · rw [unpackExponent_packComponents, BitVec.toNat_ofNat]
      have := Nat.mod_le (e + 1075).toNat (2 ^ 11)
      change (((e + 1075).toNat % 2 ^ 11 : Nat) : Int) ≤ _
      omega
    · rw [unpackExponent_packComponents]
      change ((0 : Nat) : Int) ≤ _
      omega

theorem isFinite_ofModel_pack {u : UnpackedFloat} (h : Within 971 u) :
    (Float.ofModel (Float.Model.pack u)).isFinite = true :=
  (within_unpack_pack (by decide) (Int.le_refl _) h).isFinite

/-- A finite double is within the range of doubles. -/
theorem within_of_isFinite {v : Float} (h : v.isFinite = true) : Within 971 v.toModel.unpack := by
  cases hu : v.toModel.unpack with
  | notANumber => simp [isFinite_eq, hu, UnpackedFloat.isFinite] at h
  | infinity s => simp [isFinite_eq, hu, UnpackedFloat.isFinite] at h
  | zero s => trivial
  | finite s m e hm => exact (bounds_of_unpack hu).2.2

theorem isFinite_unpack_of_all_ones {b : BitVec 64}
    (h : @unpackExponent Format.binary64 b = -1#_) :
    (UnpackedFloat.unpack Format.binary64 b).isFinite = false := by
  unfold UnpackedFloat.unpack
  dsimp only
  rw [if_pos h]
  split <;> rfl

theorem isFinite_neg (v : Float) : (-v).isFinite = v.isFinite := by
  change (UnpackedFloat.unpack Format.binary64
    (UnpackedFloat.pack Format.binary64 v.toModel.unpack.neg)).isFinite = _
  cases hv : v.isFinite with
  | true => exact isFinite_ofModel_pack (within_of_isFinite hv).neg
  | false =>
    rw [isFinite_eq] at hv
    refine isFinite_unpack_of_all_ones ?_
    cases hu : v.toModel.unpack with
    | notANumber => exact unpackExponent_packComponents
    | infinity s => exact unpackExponent_packComponents
    | zero s => simp [hu, UnpackedFloat.isFinite] at hv
    | finite s m e hm => simp [hu, UnpackedFloat.isFinite] at hv

/-! ## Zero -/

theorem beq_zero_iff_reading {v : Float} :
    (v == 0) = true ↔ ∃ negative m, Reading.ofFloat v = .finite negative m ∧ m.mantissa = 0 := by
  rw [ofFloat_eq]
  change v.toModel.unpack.beq (.zero .positive) = true ↔ _
  cases v.toModel.unpack with
  | notANumber => simp [reading, UnpackedFloat.beq, UnpackedFloat.compare]
  | infinity s => cases s <;> simp [reading, UnpackedFloat.beq, UnpackedFloat.compare]
  | zero s => exact ⟨fun _ => ⟨_, _, rfl, rfl⟩, fun _ => rfl⟩
  | finite s k e hk =>
    have hne : ¬ ∃ negative m,
        reading (.finite s k e hk) = .finite negative m ∧ m.mantissa = 0 := by
      rintro ⟨negative, m, hm, h0⟩
      cases hm
      exact hk.ne' h0
    refine iff_of_false (fun h => ?_) hne
    cases s <;> cases h

theorem eq_of_toBits_eq {u v : Float} (h : u.toModel.toBits = v.toModel.toBits) : u = v := by
  obtain ⟨⟨a, ha⟩⟩ := u
  obtain ⟨⟨b, hb⟩⟩ := v
  cases h
  rfl

/-- Two doubles are equal to zero. -/
theorem beq_zero_iff {v : Float} : (v == 0) = true ↔ v = 0 ∨ v = -0 := by
  constructor
  · intro h
    obtain ⟨negative, m, hm, h0⟩ := beq_zero_iff_reading.1 h
    have hlt := v.toModel.toBits.toNat_lt
    have hbits : v.toModel.toBits.toNat = 0 ∨ v.toModel.toBits.toNat = 2 ^ 63 := by
      change Reading.ofBits v.toModel.toBits.toNat = _ at hm
      unfold Reading.ofBits at hm
      simp only [Nat.pow_eq] at hm
      split at hm
      · split at hm <;> cases hm
      · split at hm
        all_goals
          cases hm
          dsimp only at h0
          omega
    exact hbits.imp (fun hb => eq_of_toBits_eq (UInt64.toNat_inj.1 hb))
      fun hb => eq_of_toBits_eq (UInt64.toNat_inj.1 hb)
  · rintro (rfl | rfl)
    · decide +kernel
    · decide +kernel

end Double

end PocketCalc
