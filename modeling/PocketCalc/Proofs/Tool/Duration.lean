import PocketCalc.Tool.Duration

/-!
# Lengths of time in 64 bits

Each step of a computation is checked, so what comes out of it is what unbounded arithmetic gives,
or nothing.

* `inWord?_eq_some_iff`, `inWord?_eq_none_iff`: the word that a number is put into.
* `Duration.toInt_of_total?`, `Duration.toInt_of_combine?`: lengths and what is computed from them.
* `Duration.total?_eq_none_iff`, `Duration.combine?_eq_none_iff`: when there is none of these.
* `Duration.resultText?_cases`: the text of a result is that of the exact result.
* `Duration.resultText?_comm`: the two durations may change places.
-/

namespace PocketCalc

/-! ## Words -/

/-- The whole numbers of 64 bits. -/
def FitsWord (n : Int) : Prop := Int64.minValue.toInt ≤ n ∧ n ≤ Int64.maxValue.toInt

instance (n : Int) : Decidable (FitsWord n) := inferInstanceAs (Decidable (_ ∧ _))

theorem fitsWord_toInt (w : Int64) : FitsWord w.toInt := by
  have hlow : -2 ^ 63 ≤ w.toInt := w.le_toInt
  have hhigh : w.toInt < 2 ^ 63 := w.toInt_lt
  rw [FitsWord, Int64.toInt_minValue, Int64.toInt_maxValue]
  omega

theorem toInt_ofInt_of_fitsWord {n : Int} (h : FitsWord n) : (Int64.ofInt n).toInt = n :=
  Int64.toInt_ofInt_of_le h.1 (Int.lt_add_one_of_le h.2)

theorem inWord?_eq_some_iff {n : Int} {w : Int64} : inWord? n = some w ↔ w.toInt = n := by
  constructor
  · exact toInt_of_inWord
  · rintro rfl
    obtain ⟨hlow, hhigh⟩ := fitsWord_toInt w
    rw [inWord?, if_pos ⟨hlow, hhigh⟩, Int64.ofInt_toInt]

theorem exists_inWord? {n : Int} (h : FitsWord n) : ∃ w, inWord? n = some w ∧ w.toInt = n :=
  ⟨_, inWord?_eq_some_iff.2 (toInt_ofInt_of_fitsWord h), toInt_ofInt_of_fitsWord h⟩

theorem inWord?_eq_none_iff {n : Int} : inWord? n = none ↔ ¬ FitsWord n := by
  constructor
  · intro hnone hfits
    obtain ⟨w, hw, -⟩ := exists_inWord? hfits
    cases hnone.symm.trans hw
  · exact fun hfits => if_neg hfits

/-! ## Lengths -/

/-- What an operation gives for two lengths. -/
def TimeOperation.apply : TimeOperation → Int → Int → Int
  | .sum, a, b => a + b
  | .difference, a, b => (a - b).natAbs

theorem TimeOperation.apply_comm (op : TimeOperation) (a b : Int) :
    op.apply a b = op.apply b a := by
  cases op with
  | sum => exact Int.add_comm a b
  | difference =>
    rw [apply, apply, ← Int.natAbs_neg]
    congr 2
    omega

/-- No two of three numbers are of opposite signs. -/
def SameSign (a b c : Int) : Prop := 0 ≤ a ∧ 0 ≤ b ∧ 0 ≤ c ∨ a ≤ 0 ∧ b ≤ 0 ∧ c ≤ 0

namespace Duration

/-- The length in seconds, however large. -/
def length (d : Duration) : Int :=
  3600 * d.hours.toInt + 60 * d.minutes.toInt + d.seconds.toInt

theorem toInt_of_total? {d : Duration} {t : Int64} (h : d.total? = some t) :
    t.toInt = d.length := by
  obtain ⟨hours, hh, h⟩ := Option.bind_eq_some_iff.1 h
  obtain ⟨minutes, hm, h⟩ := Option.bind_eq_some_iff.1 h
  obtain ⟨long, hl, h⟩ := Option.bind_eq_some_iff.1 h
  rw [inWord?_eq_some_iff] at hh hm hl h
  rw [h, hl, hh, hm, length]
  omega

/-- Without opposite signs every step towards the length lies between zero and the length, so there
is one if it fits. -/
theorem total?_eq_none_iff {d : Duration}
    (h : SameSign d.hours.toInt d.minutes.toInt d.seconds.toInt) :
    d.total? = none ↔ ¬ FitsWord d.length := by
  constructor
  · intro hnone hfits
    have hmin : Int64.minValue.toInt ≤ 0 := by decide
    have hmax : 0 ≤ Int64.maxValue.toInt := by decide
    unfold FitsWord length at hfits
    unfold SameSign at h
    obtain ⟨hours, hh, eh⟩ := exists_inWord? (n := d.hours.toInt * 3600) (by unfold FitsWord; omega)
    obtain ⟨minutes, hm, em⟩ :=
      exists_inWord? (n := d.minutes.toInt * 60) (by unfold FitsWord; omega)
    obtain ⟨long, hl, el⟩ :=
      exists_inWord? (n := hours.toInt + minutes.toInt) (by unfold FitsWord; omega)
    obtain ⟨total, ht, -⟩ :=
      exists_inWord? (n := long.toInt + d.seconds.toInt) (by unfold FitsWord; omega)
    simp [total?, hh, hm, hl, ht] at hnone
  · intro hfits
    cases ht : d.total? with
    | none => rfl
    | some t => exact absurd (toInt_of_total? ht ▸ fitsWord_toInt t) hfits

theorem toInt_of_combine? {op : TimeOperation} {a b r : Int64} (h : combine? op a b = some r) :
    r.toInt = op.apply a.toInt b.toInt := by
  cases op with
  | sum => exact inWord?_eq_some_iff.1 h
  | difference =>
    obtain ⟨d, hd, hr⟩ := Option.bind_eq_some_iff.1 h
    rw [inWord?_eq_some_iff] at hd hr
    rw [hr, hd, TimeOperation.apply]

/-- The distance of two lengths does not fit where their difference does not, and also where it is
the least number of all. -/
theorem combine?_eq_none_iff {op : TimeOperation} {a b : Int64} :
    combine? op a b = none ↔ ¬ FitsWord (op.apply a.toInt b.toInt) := by
  cases op with
  | sum => exact inWord?_eq_none_iff
  | difference =>
    have hmin : Int64.minValue.toInt = -Int64.maxValue.toInt - 1 := by decide
    rw [combine?, TimeOperation.apply]
    cases hd : inWord? (a.toInt - b.toInt) with
    | none =>
      have hd := inWord?_eq_none_iff.1 hd
      unfold FitsWord at hd ⊢
      simp only [Option.bind_none, true_iff]
      omega
    | some d =>
      rw [Option.bind_some, inWord?_eq_none_iff, inWord?_eq_some_iff.1 hd]

theorem combine?_comm (op : TimeOperation) (a b : Int64) : combine? op a b = combine? op b a := by
  cases hr : combine? op a b with
  | none =>
    rw [combine?_eq_none_iff, op.apply_comm] at hr
    exact (combine?_eq_none_iff.2 hr).symm
  | some r =>
    cases hs : combine? op b a with
    | none =>
      rw [combine?_eq_none_iff, op.apply_comm] at hs
      cases hr.symm.trans (combine?_eq_none_iff.2 hs)
    | some s =>
      have hrs : r.toInt = s.toInt := by
        rw [toInt_of_combine? hr, toInt_of_combine? hs, op.apply_comm]
      rw [Int64.toInt_inj.1 hrs]

theorem resultText?_of_total? {op : TimeOperation} {d e : Duration} {a b : Int64}
    (ha : d.total? = some a) (hb : e.total? = some b) :
    resultText? op d e = (combine? op a b).map fun r => clockText r.toInt := by
  rw [resultText?, ha, hb]
  cases h : combine? op a b <;> simp [h]

theorem resultText?_comm (op : TimeOperation) (d e : Duration) :
    resultText? op d e = resultText? op e d := by
  cases ha : d.total? with
  | none => cases hb : e.total? <;> simp [resultText?, ha, hb]
  | some a =>
    cases hb : e.total? with
    | none => simp [resultText?, ha, hb]
    | some b => rw [resultText?_of_total? ha hb, resultText?_of_total? hb ha, combine?_comm]

/-- Either there is no result, or both lengths and the exact result fit into 64 bits, and the text is
that of the exact result. -/
theorem resultText?_cases (op : TimeOperation) (d e : Duration) :
    resultText? op d e = none ∨
    (FitsWord d.length ∧ FitsWord e.length ∧ FitsWord (op.apply d.length e.length)) ∧
      resultText? op d e = some (clockText (op.apply d.length e.length)) := by
  cases hr : resultText? op d e with
  | none => exact .inl rfl
  | some t =>
    obtain ⟨a, ha, h⟩ := Option.bind_eq_some_iff.1 hr
    obtain ⟨b, hb, h⟩ := Option.bind_eq_some_iff.1 h
    obtain ⟨r, hr, h⟩ := Option.bind_eq_some_iff.1 h
    have hexact := toInt_of_combine? hr
    rw [← toInt_of_total? ha, ← toInt_of_total? hb, ← hexact]
    exact .inr ⟨⟨fitsWord_toInt a, fitsWord_toInt b, fitsWord_toInt r⟩, h.symm⟩

end Duration

end PocketCalc
