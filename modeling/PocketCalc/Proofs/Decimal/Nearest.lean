import PocketCalc.Proofs.Decimal.Exact

/-!
# The double nearest to a number

Magnitudes of 53 bits are points on a line: those with one exponent, and those with any greater one,
lie on one grid, and below the grid the others lie closer together. So the point nearest to a number
is found on the grid that 53 bits of the number make, and it is unique because of two neighbours
exactly one is even.

* `Magnitude.IsBinary.eq_of_value_eq`: each point has one form.
* `Magnitude.isNearest_canonical`: rounding on the grid gives the nearest point of all.
* `Magnitude.IsNearest.unique`: there is one at most.
* `Double.IsRounding.unique`: the double that a number is rounded to.
-/

namespace PocketCalc

namespace Magnitude

/-- The magnitude has 53 bits, the first of them set unless the exponent is the least one. The
exponent may be too large for a double. -/
structure IsBinary (m : Magnitude) : Prop where
  bits : m.mantissa < 2 ^ 53
  low : -1074 ≤ m.exponent
  leading : 2 ^ 52 ≤ m.mantissa ∨ m.exponent = -1074

/-- No magnitude of 53 bits is nearer to the number, and if another one is as near, this one is
even. -/
structure IsNearest (m : Magnitude) (x : ℚ) : Prop where
  binary : m.IsBinary
  near : ∀ k : Magnitude, k.IsBinary → |m.value - x| ≤ |k.value - x|
  even : ∀ k : Magnitude, k.IsBinary → k ≠ m → |k.value - x| = |m.value - x| →
    m.mantissa % 2 = 0

variable {m k : Magnitude} {x y : ℚ}

theorem IsBinary.isDouble (h : m.IsBinary) (hpos : 0 < m.mantissa) (hhigh : m.exponent ≤ 971) :
    m.IsDouble :=
  ⟨hpos, h.bits, h.low, hhigh, h.leading⟩

/-! ## Grids -/

/-- A magnitude lies on the grid of every exponent that is not above its own. -/
theorem value_eq_mul {e : Int} (he : e ≤ m.exponent) :
    m.value = (m.mantissa * 2 ^ (m.exponent - e).toNat : Nat) * 2 ^ e := by
  push_cast
  rw [value, mul_assoc, ← zpow_natCast, ← zpow_add₀ (by norm_num)]
  congr 2
  omega

/-- A magnitude with a smaller exponent lies below the part of the grid that has 53 bits. -/
theorem IsBinary.value_lt (h : m.IsBinary) {e : Int} (he : m.exponent < e) :
    m.value < 2 ^ 52 * 2 ^ e := by
  have hm : (m.mantissa : ℚ) < 2 ^ 53 := by exact_mod_cast h.bits
  calc m.value < 2 ^ 53 * 2 ^ m.exponent :=
        mul_lt_mul_of_pos_right hm (Double.two_zpow_pos _)
    _ = 2 ^ 52 * 2 ^ (m.exponent + 1) := by rw [zpow_add_one₀ (by norm_num)]; ring
    _ ≤ 2 ^ 52 * 2 ^ e := by
      refine mul_le_mul_of_nonneg_left (zpow_le_zpow_right₀ (by norm_num) ?_) (by positivity)
      omega

/-- Where the exponent is not the least one, the first of the 53 bits is set. -/
theorem IsBinary.le_value (h : m.IsBinary) (he : m.exponent ≠ -1074) :
    2 ^ 52 * 2 ^ m.exponent ≤ m.value := by
  have hm : (2 : ℚ) ^ 52 ≤ m.mantissa := by exact_mod_cast h.leading.resolve_right he
  exact mul_le_mul_of_nonneg_right hm (Double.two_zpow_pos _).le

theorem IsBinary.exponent_le (hm : m.IsBinary) (hk : k.IsBinary) (h : m.value ≤ k.value) :
    m.exponent ≤ k.exponent := by
  by_contra hlt
  have hlow := hk.low
  have := hm.le_value (by omega)
  have := hk.value_lt (not_le.1 hlt)
  linarith

/-- Each point has one form. -/
theorem IsBinary.eq_of_value_eq (hm : m.IsBinary) (hk : k.IsBinary) (h : m.value = k.value) :
    m = k := by
  have he : m.exponent = k.exponent :=
    le_antisymm (hm.exponent_le hk h.le) (hk.exponent_le hm h.ge)
  have hn : (m.mantissa : ℚ) = k.mantissa := by
    rw [value, value, he] at h
    exact mul_right_cancel₀ (Double.two_zpow_pos _).ne' h
  obtain ⟨n, e⟩ := m
  obtain ⟨n', e'⟩ := k
  cases he
  rw [show n = n' by exact_mod_cast hn]

/-! ## Rounding on a grid -/

/-- The whole number nearest to `y`, and the even one of two that are equally near. -/
structure IsRounded (r : Nat) (y : ℚ) : Prop where
  near : |(r : ℚ) - y| ≤ 1 / 2
  even : |(r : ℚ) - y| = 1 / 2 → r % 2 = 0

/-- All other whole numbers are at least half a unit away. -/
theorem IsRounded.half_le {r j : Nat} (h : IsRounded r y) (hj : j ≠ r) : 1 / 2 ≤ |(j : ℚ) - y| := by
  have hone : (1 : ℚ) ≤ |(j : ℚ) - r| := by
    have hint : (1 : Int) ≤ |(j : Int) - r| := Int.one_le_abs (by omega)
    exact_mod_cast hint
  have hsum : |(j : ℚ) - r| ≤ |(j : ℚ) - y| + |(r : ℚ) - y| := by
    rw [abs_sub_comm (r : ℚ)]
    exact abs_sub_le _ _ _
  have := h.near
  linarith

/-- A row of 53 bits and what rounding may make of them, in the form of a magnitude. -/
def canonical (r : Nat) (e : Int) : Magnitude := if r < 2 ^ 53 then ⟨r, e⟩ else ⟨2 ^ 52, e + 1⟩

variable {r : Nat} {e : Int}

theorem value_canonical (hr : r ≤ 2 ^ 53) : (canonical r e).value = r * 2 ^ e := by
  unfold canonical
  split
  · rfl
  · rw [show r = 2 ^ 53 by omega, value, zpow_add_one₀ (by norm_num)]
    push_cast
    ring

theorem isBinary_canonical (he : -1074 ≤ e) (hlead : 2 ^ 52 ≤ r ∨ e = -1074) :
    (canonical r e).IsBinary := by
  unfold canonical
  split
  · exact ⟨‹_›, he, hlead⟩
  · exact ⟨by norm_num, by dsimp only; omega, .inl (le_refl _)⟩

theorem even_canonical (hr : r % 2 = 0) : (canonical r e).mantissa % 2 = 0 := by
  unfold canonical
  split
  · exact hr
  · norm_num

/-- A point below the grid is farther away than the one on the grid that the number is rounded to: the
bit in front of the number lies between. -/
theorem IsRounded.lt_of_exponent_lt (h : IsRounded r y) (hlead : 2 ^ 52 ≤ y) (hk : k.IsBinary)
    (hlt : k.exponent < e) : |(r : ℚ) - y| * 2 ^ e < |k.value - y * 2 ^ e| := by
  have hpos := Double.two_zpow_pos e
  have hkv := hk.value_lt hlt
  have hyv : 2 ^ 52 * 2 ^ e ≤ y * 2 ^ e := mul_le_mul_of_nonneg_right hlead hpos.le
  have hnear : |(r : ℚ) - y| ≤ y - 2 ^ 52 := by
    by_cases hr : r = 2 ^ 52
    · rw [hr, abs_sub_comm]
      push_cast
      exact (abs_of_nonneg (by linarith)).le
    · have hhalf := h.half_le (j := 2 ^ 52) (Ne.symm hr)
      rw [abs_sub_comm] at hhalf
      push_cast at hhalf
      rw [abs_of_nonneg (by linarith)] at hhalf
      exact h.near.trans hhalf
  calc |(r : ℚ) - y| * 2 ^ e ≤ (y - 2 ^ 52) * 2 ^ e := mul_le_mul_of_nonneg_right hnear hpos.le
    _ < y * 2 ^ e - k.value := by linarith
    _ ≤ |k.value - y * 2 ^ e| := by
      rw [abs_sub_comm]
      exact le_abs_self _

/-- Rounding on the grid of the first 53 bits gives the nearest point of all: on the grid there is no
nearer one, and the others lie below the bit that the number has in front. -/
theorem isNearest_canonical (hround : IsRounded r y) (he : -1074 ≤ e) (hr : r ≤ 2 ^ 53)
    (hrlead : 2 ^ 52 ≤ r ∨ e = -1074) (hylead : 2 ^ 52 ≤ y ∨ e = -1074) :
    (canonical r e).IsNearest (y * 2 ^ e) := by
  have hpos := Double.two_zpow_pos e
  have hbinary := isBinary_canonical he hrlead
  have hdist (j : ℚ) : |j * 2 ^ e - y * 2 ^ e| = |j - y| * 2 ^ e := by
    rw [← sub_mul, abs_mul, abs_of_pos hpos]
  have hbelow {k : Magnitude} (hk : k.IsBinary) (hlt : k.exponent < e) :
      |(r : ℚ) - y| * 2 ^ e < |k.value - y * 2 ^ e| := by
    have hlow := hk.low
    exact hround.lt_of_exponent_lt (hylead.resolve_right (by omega)) hk hlt
  refine ⟨hbinary, fun k hk => ?_, fun k hk hne htie => ?_⟩
  · rw [value_canonical hr, hdist]
    rcases lt_or_ge k.exponent e with hlt | hge
    · exact (hbelow hk hlt).le
    · rw [value_eq_mul hge, hdist]
      refine mul_le_mul_of_nonneg_right ?_ hpos.le
      by_cases hj : k.mantissa * 2 ^ (k.exponent - e).toNat = r
      · rw [hj]
      · exact hround.near.trans (hround.half_le hj)
  · rw [value_canonical hr, hdist] at htie
    rcases lt_or_ge k.exponent e with hlt | hge
    · exact absurd htie (hbelow hk hlt).ne'
    · have hj : k.mantissa * 2 ^ (k.exponent - e).toNat ≠ r := by
        intro hj
        refine hne (hk.eq_of_value_eq hbinary ?_)
        rw [value_eq_mul hge, hj, value_canonical hr]
      rw [value_eq_mul hge, hdist] at htie
      have htie := mul_right_cancel₀ hpos.ne' htie
      have hhalf := hround.half_le hj
      exact even_canonical (hround.even (le_antisymm hround.near (htie ▸ hhalf)))

/-! ## Uniqueness -/

/-- The next point behind an even magnitude is odd and has the same exponent. -/
theorem IsBinary.succ (h : m.IsBinary) (heven : m.mantissa % 2 = 0) :
    IsBinary ⟨m.mantissa + 1, m.exponent⟩ := by
  have := h.bits
  exact ⟨by dsimp only; omega, h.low, h.leading.imp_left fun hl => hl.trans (Nat.le_succ _)⟩

theorem value_succ : value ⟨m.mantissa + 1, m.exponent⟩ = m.value + 2 ^ m.exponent := by
  rw [value, value]
  push_cast
  ring

theorem IsBinary.succ_le (hm : m.IsBinary) (hk : k.IsBinary) (h : m.value < k.value) :
    m.value + 2 ^ m.exponent ≤ k.value := by
  have he := hm.exponent_le hk h.le
  rw [value_eq_mul he] at h ⊢
  have hlt := lt_of_mul_lt_mul_right h (Double.two_zpow_pos _).le
  have hle : (m.mantissa : ℚ) + 1 ≤ (k.mantissa * 2 ^ (k.exponent - m.exponent).toNat : Nat) := by
    exact_mod_cast hlt
  calc m.value + 2 ^ m.exponent = (m.mantissa + 1) * 2 ^ m.exponent := by rw [value]; ring
    _ ≤ _ := mul_le_mul_of_nonneg_right hle (Double.two_zpow_pos _).le

/-- Of two points that are equally near to a number between them one is odd: else the next point
behind the lower one would be nearer or the same as the upper one, which is even. -/
theorem IsNearest.not_value_lt (hm : m.IsNearest x) (hk : k.IsNearest x) : ¬ m.value < k.value := by
  intro hlt
  have htie : |k.value - x| = |m.value - x| := le_antisymm (hk.near m hm.binary) (hm.near k hk.binary)
  have hne : k ≠ m := fun h => by simp [h] at hlt
  have hmeven := hm.even k hk.binary hne htie
  have hkeven := hk.even m hm.binary hne.symm htie.symm
  have hsucc := hm.binary.succ hmeven
  have hle := hm.binary.succ_le hk.binary hlt
  have hpos := Double.two_zpow_pos m.exponent
  have hnear := hm.near _ hsucc
  rw [value_succ] at hnear
  have heq : value ⟨m.mantissa + 1, m.exponent⟩ = k.value := by
    rw [value_succ]
    refine le_antisymm hle (not_lt.1 fun hlt' => ?_)
    rcases abs_cases (k.value - x) with ⟨h₁, _⟩ | ⟨h₁, _⟩ <;>
      rcases abs_cases (m.value - x) with ⟨h₂, _⟩ | ⟨h₂, _⟩ <;>
      rcases abs_cases (m.value + 2 ^ m.exponent - x) with ⟨h₃, _⟩ | ⟨h₃, _⟩ <;>
      linarith
  have hodd := congrArg Magnitude.mantissa (hsucc.eq_of_value_eq hk.binary heq)
  dsimp only at hodd
  omega

/-- One magnitude at most is nearest to a number. -/
theorem IsNearest.unique (hm : m.IsNearest x) (hk : k.IsNearest x) : m = k :=
  hm.binary.eq_of_value_eq hk.binary
    (le_antisymm (not_lt.1 (hk.not_value_lt hm)) (not_lt.1 (hm.not_value_lt hk)))

/-- A number that has passed a point is not rounded back behind it. -/
theorem IsNearest.value_le (hm : m.IsNearest x) (hk : k.IsBinary) (h : k.value ≤ x) :
    k.value ≤ m.value := by
  by_contra hlt
  have hnear := hm.near k hk
  rw [abs_of_nonpos (by linarith), abs_of_nonpos (by linarith)] at hnear
  linarith

end Magnitude

namespace Double

/-- The double that a number with the given sign and magnitude is rounded to: the nearest magnitude of
53 bits, and an infinite one if its exponent is too large. -/
def IsRounding (v : Float) (negative : Bool) (x : ℚ) : Prop :=
  ∃ m : Magnitude, m.IsNearest x ∧ Reading.ofFloat v =
    if m.exponent ≤ 971 then .finite negative m else .infinite negative

theorem IsRounding.unique {v w : Float} {negative : Bool} {x : ℚ} (hv : IsRounding v negative x)
    (hw : IsRounding w negative x) : v = w := by
  obtain ⟨m, hm, hv⟩ := hv
  obtain ⟨k, hk, hw⟩ := hw
  rw [hm.unique hk] at hv
  exact eq_of_reading_eq (hv.trans hw.symm)

/-- A number is rounded to something finite or to the infinite double of its sign. -/
theorem IsRounding.not_isFinite_iff {v : Float} {negative : Bool} {x : ℚ}
    (h : IsRounding v negative x) :
    ¬ v.isFinite = true ↔ Reading.ofFloat v = .infinite negative := by
  obtain ⟨m, -, hv⟩ := h
  rw [isFinite_iff_reading, hv]
  split <;> simp

end Double

end PocketCalc
