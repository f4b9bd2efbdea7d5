import PocketCalc.Proofs.Expression.Numeral
import PocketCalc.Proofs.Text.Words
import PocketCalc.Tool.Field

/-!
# What a field is read as

The search tries the beginnings of a text from the longest to the shortest, and only those made of
characters that numbers are made of. No number text is lost by that, so the search finds the longest
one. Whether its double is finite is asked afterwards, so nothing shorter is tried instead.

* `longest?_eq_some_iff`, `longest?_eq_none_iff`: what the search finds for any reader.
* `Leads`: the longest number text at the beginning of a text.
* `longest?_float?_eq_some_iff`, `longest?_float?_eq_none_iff`: the search finds that one.
* `readNumber?_classified`: what every field is read as.
-/

namespace PocketCalc

namespace Field

variable {α : Type} {read? : Text → Option α} {t u : Text} {v : α} {n : NumberText}

/-! ## The longest beginning that can be read -/

/-- A search downwards finds the greatest number that gives something. -/
theorem findSome?_downwards {f : Nat → Option α} {k : Nat} :
    (List.range k).reverse.findSome? f = some v ↔
      ∃ i, i < k ∧ f i = some v ∧ ∀ j, i < j → j < k → f j = none := by
  induction k with
  | zero => simp
  | succ k ih =>
    rw [List.range_succ, List.reverse_append, List.reverse_singleton, List.singleton_append,
      List.findSome?_cons]
    cases hk : f k with
    | none =>
      refine ih.trans ⟨?_, ?_⟩
      · rintro ⟨i, hi, hv, hnone⟩
        refine ⟨i, by omega, hv, fun j hij hj => ?_⟩
        rcases Nat.lt_succ_iff_lt_or_eq.1 hj with hj | rfl
        · exact hnone j hij hj
        · exact hk
      · rintro ⟨i, hi, hv, hnone⟩
        have hne : i ≠ k := by
          rintro rfl
          cases hk.symm.trans hv
        exact ⟨i, by omega, hv, fun j hij hj => hnone j hij (by omega)⟩
    | some w =>
      constructor
      · intro h
        exact ⟨k, by omega, hk.trans h, fun j hkj hj => by omega⟩
      · rintro ⟨i, hi, hv, hnone⟩
        have hik : i = k := by
          by_contra hne
          cases hk.symm.trans (hnone k (by omega) (by omega))
        exact hk.symm.trans (hik ▸ hv)

theorem longest?_eq_some_iff : longest? read? t = some v ↔
    ∃ p, p <+: t ∧ read? p = some v ∧ ∀ q, q <+: t → read? q ≠ none → q.length ≤ p.length := by
  rw [longest?, findSome?_downwards]
  constructor
  · rintro ⟨i, hi, hv, hnone⟩
    refine ⟨t.take i, List.take_prefix i t, hv, fun q hq hread => ?_⟩
    have hlen : (t.take i).length = i := List.length_take_of_le (by omega)
    by_contra hlt
    refine hread ?_
    rw [List.prefix_iff_eq_take.1 hq]
    exact hnone q.length (by omega) (Nat.lt_succ_of_le hq.length_le)
  · rintro ⟨p, hp, hv, hlongest⟩
    refine ⟨p.length, Nat.lt_succ_of_le hp.length_le, ?_, fun j hj hjt => ?_⟩
    · rw [← List.prefix_iff_eq_take.1 hp, hv]
    · by_contra hread
      have hle := hlongest (t.take j) (List.take_prefix j t) hread
      rw [List.length_take_of_le (by omega)] at hle
      omega

theorem longest?_eq_none_iff : longest? read? t = none ↔ ∀ p, p <+: t → read? p = none := by
  rw [longest?, List.findSome?_eq_none_iff]
  constructor
  · intro h p hp
    rw [List.prefix_iff_eq_take.1 hp]
    exact h _ (by simpa using Nat.lt_succ_of_le hp.length_le)
  · exact fun h i _ => h _ (List.take_prefix i t)

/-! ## The number at the beginning of a text -/

/-- The number text stands at the beginning of the text, and no longer one does. -/
structure Leads (n : NumberText) (t : Text) : Prop where
  begins : n.text <+: t
  longest : ∀ k : NumberText, k.text <+: t → k.text.length ≤ n.text.length

theorem isNumberPart_of_mem_text {c : Char} (h : c ∈ n.text) : isNumberPart c = true := by
  have hmem := n.mem_text h
  simp only [List.mem_cons, List.not_mem_nil, or_false] at hmem
  unfold isNumberPart
  grind

/-- Cutting a text behind its first characters that numbers are made of does not cut a number. -/
theorem text_prefix_takeWhile_iff : n.text <+: t.takeWhile isNumberPart ↔ n.text <+: t := by
  constructor
  · exact fun h => h.trans (List.takeWhile_prefix _)
  · rintro ⟨rest, rfl⟩
    rw [List.takeWhile_append_of_pos fun c => isNumberPart_of_mem_text]
    exact List.prefix_append _ _

/-- The search finds the longest number text. -/
theorem longest?_float?_eq_some_iff {v : Float} :
    longest? Decimal.float? (t.takeWhile isNumberPart) = some v ↔
      ∃ n : NumberText, Leads n t ∧ n.RoundsTo v := by
  rw [longest?_eq_some_iff]
  constructor
  · rintro ⟨p, hp, hv, hlongest⟩
    obtain ⟨n, rfl, hround⟩ := NumberText.float?_eq_some_iff.1 hv
    refine ⟨n, ⟨text_prefix_takeWhile_iff.1 hp, fun k hk => ?_⟩, hround⟩
    obtain ⟨w, hw, -⟩ := k.float?_text
    exact hlongest k.text (text_prefix_takeWhile_iff.2 hk) (hw ▸ Option.some_ne_none w)
  · rintro ⟨n, hn, hround⟩
    refine ⟨n.text, text_prefix_takeWhile_iff.2 hn.begins,
      NumberText.float?_eq_some_iff.2 ⟨n, rfl, hround⟩, fun q hq hread => ?_⟩
    obtain ⟨k, rfl⟩ := NumberText.exists_of_float? hread
    exact hn.longest k (text_prefix_takeWhile_iff.1 hq)

theorem longest?_float?_eq_none_iff :
    longest? Decimal.float? (t.takeWhile isNumberPart) = none ↔
      ∀ n : NumberText, ¬ n.text <+: t := by
  rw [longest?_eq_none_iff]
  constructor
  · intro h n hn
    obtain ⟨w, hw, -⟩ := n.float?_text
    cases hw.symm.trans (h n.text (text_prefix_takeWhile_iff.2 hn))
  · intro h p hp
    by_contra hread
    obtain ⟨n, rfl⟩ := NumberText.exists_of_float? hread
    exact h n (text_prefix_takeWhile_iff.1 hp)

/-! ## What a field is read as -/

theorem readNumber?_eq_some_iff {v : Float} : readNumber? t = some v ↔
    ∃ n : NumberText, Leads n t.trim ∧ n.RoundsTo v ∧ v.isFinite = true := by
  rw [readNumber?, Option.filter_eq_some_iff, longest?_float?_eq_some_iff]
  constructor
  · rintro ⟨⟨n, hn, hround⟩, hfinite⟩
    exact ⟨n, hn, hround, hfinite⟩
  · rintro ⟨n, hn, hround, hfinite⟩
    exact ⟨⟨n, hn, hround⟩, hfinite⟩

/-- Where the longest number is too large, no shorter one is read in its place. -/
theorem readNumber?_eq_none_iff : readNumber? t = none ↔
    (∀ n : NumberText, ¬ n.text <+: t.trim) ∨
      ∃ (n : NumberText) (v : Float), Leads n t.trim ∧ n.RoundsTo v ∧
        Reading.ofFloat v = .infinite n.isNegative := by
  rw [readNumber?, Option.filter_eq_none_iff]
  constructor
  · intro h
    cases hlongest : longest? Decimal.float? (t.trim.takeWhile isNumberPart) with
    | none => exact .inl (longest?_float?_eq_none_iff.1 hlongest)
    | some v =>
      obtain ⟨n, hn, hround⟩ := longest?_float?_eq_some_iff.1 hlongest
      exact .inr ⟨n, v, hn, hround, hround.not_isFinite_iff.1 (h v hlongest)⟩
  · rintro (hnone | ⟨n, v, hn, hround, hinfinite⟩) w hw
    · cases (longest?_float?_eq_none_iff.2 hnone).symm.trans hw
    · have hvw : v = w :=
        Option.some.inj ((longest?_float?_eq_some_iff.2 ⟨n, hn, hround⟩).symm.trans hw)
      exact hvw ▸ hround.not_isFinite_iff.2 hinfinite

/-- A number text has no blanks, so it leads itself. -/
theorem leads_text : Leads n n.text.trim := by
  have htrim : n.text.trim = n.text := Text.trim_of_forall fun c hc => by
    rcases n.mem_text hc with h | h
    · exact Text.isBlank_of_isDigit h
    · simp only [List.mem_cons, List.not_mem_nil, or_false] at h
      rcases h with rfl | rfl | rfl | rfl | rfl <;> rfl
  rw [htrim]
  exact ⟨List.prefix_rfl, fun k hk => hk.length_le⟩

/-- What stands behind the longest number text does not matter. -/
theorem readNumber?_eq_of_leads (h : Leads n t.trim) : readNumber? t = readNumber? n.text := by
  obtain ⟨v, -, hround⟩ := n.float?_text
  rw [readNumber?, readNumber?, longest?_float?_eq_some_iff.2 ⟨n, h, hround⟩,
    longest?_float?_eq_some_iff.2 ⟨n, leads_text, hround⟩]

/-- A numeral without commas is read as the same number in a field. -/
theorem readNumber?_of_parse {v : Float} (hcomma : ',' ∉ t) (h : Numeral.parse t = .ok v) :
    readNumber? t = some v := by
  obtain ⟨n, hspells, hround, hfinite⟩ := Numeral.parse_eq_ok_iff_spells.1 h
  have hfilter : t.filter (· != ',') = t :=
    List.filter_eq_self.2 fun c hc => by simpa using fun heq : c = ',' => hcomma (heq ▸ hc)
  have htext : n.text = t := hspells.text.trans hfilter
  exact htext ▸ readNumber?_eq_some_iff.2 ⟨n, leads_text, hround, hfinite⟩

/-- A field is read as the double of the longest number text at its beginning, blanks in front left
out. Where there is none, or where its double is infinite, nothing is read. So neither what stands
behind that number text nor blanks at either end matter, what is read is finite, and it is the same
number that a numeral without commas stands for. -/
theorem readNumber?_classified :
    (∀ t v, readNumber? t = some v ↔
      ∃ n : NumberText, Leads n t.trim ∧ n.RoundsTo v ∧ v.isFinite = true) ∧
    (∀ t, readNumber? t = none ↔ (∀ n : NumberText, ¬ n.text <+: t.trim) ∨
      ∃ (n : NumberText) (v : Float), Leads n t.trim ∧ n.RoundsTo v ∧
        Reading.ofFloat v = .infinite n.isNegative) ∧
    (∀ n t, Leads n t.trim → readNumber? t = readNumber? n.text) ∧
    (∀ a t b, (∀ c ∈ a, Text.isBlank c = true) → (∀ c ∈ b, Text.isBlank c = true) →
      readNumber? (a ++ t ++ b) = readNumber? t) ∧
    (∀ t v, readNumber? t = some v → ∃ negative m, Reading.ofFloat v = .finite negative m) ∧
    (∀ t v, ',' ∉ t → Numeral.parse t = .ok v → readNumber? t = some v) := by
  refine ⟨fun t v => readNumber?_eq_some_iff, fun t => readNumber?_eq_none_iff,
    fun n t => readNumber?_eq_of_leads, fun a t b ha hb => ?_, fun t v h => ?_,
    fun t v => readNumber?_of_parse⟩
  · rw [readNumber?, readNumber?, Text.trim_append_blanks ha hb]
  · exact Double.isFinite_iff_reading.1 (readNumber?_finite h)

theorem readNumber?_classified_of_blanks : readNumber? " -12.5e1\t".toList = some (-125) := by
  obtain ⟨-, -, -, hblanks, -, hagree⟩ := readNumber?_classified
  have hparse : Numeral.parse "-12.5e1".toList = .ok (-125) :=
    Numeral.parse_eq_ok_iff.2 (by decide +kernel)
  exact (hblanks [' '] "-12.5e1".toList ['\t'] (List.forall_mem_singleton.2 rfl)
    (List.forall_mem_singleton.2 rfl)).trans (hagree _ _ (by decide) hparse)

/-- An exponent without digits is cut off, one that is too large is not. -/
example : readNumber? "1e+".toList = some 1 ∧ readNumber? "1e999".toList = none := by
  decide +kernel

end Field

end PocketCalc
