import Mathlib.Algebra.Group.Nat.Defs
import PocketCalc.Decimal.Basic

/-!
# The texts of decimals

The two layouts of a decimal, taken apart into rows of digits that stand for the decimal.

* `exists_plain_eq`: the positional layout of a decimal without a positive exponent.
* `exists_scientificTo_eq`: the layout with an exponent, of a coefficient that fits.
-/

namespace PocketCalc

namespace Decimal

/-! ## Rows of digits -/

theorem ofDigits_padTo (width : Nat) (ds : Text) : ofDigits (padTo width ds) = ofDigits ds := by
  rw [ofDigits, padTo, Nat.ofDigitChars_append, Nat.ofDigitChars_replicate_zero]
  rfl

theorem isDigit_of_mem_padTo {width n : Nat} {c : Char} (hc : c ∈ padTo width (digits n)) :
    c.isDigit = true := by
  rcases List.mem_append.1 hc with h | h
  · rw [List.eq_of_mem_replicate h]
    rfl
  · exact isDigit_of_mem_digits h

theorem digits_ne_nil (n : Nat) : digits n ≠ [] := List.length_pos_iff.1 Nat.length_toDigits_pos

/-- A number that fits is padded to the width exactly. -/
theorem length_padTo_digits {width n : Nat} (h : n < 10 ^ (width + 1)) :
    (padTo (width + 1) (digits n)).length = width + 1 := by
  rw [length_padTo]
  exact Nat.max_eq_left ((Nat.length_toDigits_le_iff (by decide) (Nat.succ_pos _)).2 h)

/-! ## Layouts -/

/-- A point and digits behind it, or nothing if there are none. -/
def pointed (fs : Text) : Text := if fs = [] then [] else '.' :: fs

/-- The digits in front of the point and behind it. -/
theorem exists_plain_eq {d : Decimal} (hd : d.exponent ≤ 0) : ∃ ds fs : Text, ds ≠ [] ∧
    (∀ c ∈ ds ++ fs, c.isDigit = true) ∧ ofDigits (ds ++ fs) = d.coefficient ∧
    d.exponent = -(fs.length : Int) ∧
    plain d = ds ++ pointed fs := by
  obtain ⟨n, e⟩ := d
  cases e with
  | ofNat k =>
    obtain rfl : k = 0 := by
      dsimp only [Int.ofNat_eq_natCast] at hd
      omega
    refine ⟨digits n, [], digits_ne_nil n, ?_, ?_, rfl, ?_⟩
    · intro c hc
      exact isDigit_of_mem_digits (by simpa using hc)
    · rw [List.append_nil, ofDigits_digits]
    · simp [plain, pointed]
  | negSucc k =>
    have hlen := length_padTo (k + 1 + 1) (digits n)
    generalize hp : padTo (k + 1 + 1) (digits n) = ps at hlen
    refine ⟨ps.take (ps.length - (k + 1)), ps.drop (ps.length - (k + 1)), ?_, ?_, ?_, ?_, ?_⟩
    · intro h
      have := congrArg List.length h
      rw [List.length_take] at this
      simp only [List.length_nil] at this
      omega
    · rw [List.take_append_drop, ← hp]
      exact fun c => isDigit_of_mem_padTo
    · rw [List.take_append_drop, ← hp, ofDigits_padTo, ofDigits_digits]
    · change Int.negSucc k = _
      rw [List.length_drop, Int.negSucc_eq]
      omega
    · have hne : ps.drop (ps.length - (k + 1)) ≠ [] := by
        intro h
        have := congrArg List.length h
        rw [List.length_drop] at this
        simp only [List.length_nil] at this
        omega
      rw [pointed, if_neg hne, ← hp]
      rfl

/-- One digit in front of the point, the others behind it. -/
theorem exists_scientificTo_eq {places : Nat} (hp : 0 < places) {d : Decimal}
    (hd : d.coefficient < 10 ^ (places + 1)) : ∃ (c : Char) (fs : Text), fs.length = places ∧
    (∀ x ∈ c :: fs, x.isDigit = true) ∧ ofDigits (c :: fs) = d.coefficient ∧
    scientificTo places d = c :: '.' :: fs ++ 'e' :: intText (d.exponent + places) := by
  have hlen := length_padTo_digits hd
  have hdigits : ∀ c ∈ padTo (places + 1) (digits d.coefficient), c.isDigit = true :=
    fun c => isDigit_of_mem_padTo
  have hvalue := (ofDigits_padTo (places + 1) (digits d.coefficient)).trans (ofDigits_digits _)
  unfold scientificTo
  generalize padTo (places + 1) (digits d.coefficient) = ps at hlen hdigits hvalue ⊢
  obtain ⟨c, fs, rfl⟩ := List.exists_cons_of_length_eq_add_one hlen
  obtain ⟨x, xs, rfl⟩ : ∃ x xs, fs = x :: xs := by
    refine List.exists_cons_of_ne_nil fun h => ?_
    subst h
    simp only [List.length_singleton] at hlen
    omega
  exact ⟨c, x :: xs, Nat.succ.inj hlen, hdigits, hvalue, rfl⟩

end Decimal

end PocketCalc
