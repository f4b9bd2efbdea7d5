import PocketCalc.Expression.Token
import PocketCalc.Proofs.Decimal.Syntax

/-!
# Which words are numerals

A word is a numeral if it begins with a digit or a point, perhaps behind a minus sign, and is a number
text without its commas. The beginning is looked at before the commas are taken out, so no comma may
stand there; further behind they do not matter.

* `parse_eq_ok_iff_spells`: the words that are read, and what they stand for.
* `Unreadable.not_spells`: what no numeral contains.
* `read?_eq_of_filter_eq`: commas do not matter behind the first character.
* `parse_classified`: the number or the error of every word.
-/

namespace PocketCalc

namespace Numeral

/-- How a numeral begins: with a digit or a point, perhaps behind a minus sign. -/
structure Begins (sign : Text) (c : Char) : Prop where
  sign : sign = [] ∨ sign = ['-']
  first : c.isDigit = true ∨ c = '.'

/-- The word is the number text with commas in it, none of them in front of the first digit or
point. -/
structure Spells (w : Text) (n : NumberText) : Prop where
  begins : ∃ sign c rest, w = sign ++ c :: rest ∧ Begins sign c
  sign : n.sign ≠ .plus
  text : n.text = w.filter (· != ',')

variable {w sign rest s t : Text} {c : Char} {v : Float} {n : NumberText}

/-! ## The beginning of a numeral -/

theorem Begins.ne {d : Char} (h : Begins sign c) (hdigit : d.isDigit = false) (hpoint : d ≠ '.') :
    c ≠ d := by
  rcases h.first with hc | rfl
  · exact Text.ne_of_isDigit hc hdigit
  · exact hpoint.symm

/-- No numeral begins with a plus sign. -/
theorem Begins.append_ne_plus (h : Begins sign c) : sign ++ c :: rest ≠ '+' :: t := by
  intro heq
  rcases h.sign with rfl | rfl
  · exact h.ne rfl (by decide) (List.cons.inj heq).1
  · cases (List.cons.inj heq).1

/-- Nothing but one minus sign is taken off a word. -/
theorem body_append (h : sign = ['-'] ∨ sign = [] ∧ c ≠ '-') :
    body (sign ++ c :: rest) = c :: rest := by
  rcases h with rfl | ⟨rfl, hc⟩
  · rfl
  · simp [body, hc]

theorem hasShape_append (h : sign = ['-'] ∨ sign = [] ∧ c ≠ '-') :
    hasShape (sign ++ c :: rest) = ((c.isDigit || c == '.') && (c :: rest).all isPart) := by
  rw [hasShape, body_append h]

theorem Begins.filter_append (h : Begins sign c) :
    (sign ++ c :: rest).filter (· != ',') = sign ++ c :: rest.filter (· != ',') := by
  have hsign : sign.filter (· != ',') = sign := by
    rcases h.sign with rfl | rfl <;> rfl
  have hc : c ≠ ',' := h.ne rfl (by decide)
  rw [List.filter_append, hsign, List.filter_cons_of_pos (by simpa using hc)]

/-- A word that looks like a numeral begins like one. -/
theorem exists_begins (h : hasShape w = true) :
    ∃ sign c rest, w = sign ++ c :: rest ∧ Begins sign c := by
  have hsign : ∃ sign, w = sign ++ body w ∧ (sign = [] ∨ sign = ['-']) := by
    unfold body
    split
    · exact ⟨['-'], rfl, .inr rfl⟩
    · exact ⟨[], rfl, .inl rfl⟩
  obtain ⟨sign, hw, hsign⟩ := hsign
  unfold hasShape at h
  split at h
  · cases h
  · rename_i c rest hbody
    have hfirst := (Bool.and_eq_true_iff.1 h).1
    exact ⟨sign, c, rest, hbody ▸ hw, hsign, by simpa using hfirst⟩

/-- A word that spells a number text looks like a numeral. -/
theorem Spells.hasShape (h : Spells w n) : hasShape w = true := by
  obtain ⟨sign, c, rest, rfl, hb⟩ := h.begins
  have hall : ∀ x ∈ c :: rest, isPart x = true := by
    intro x hx
    by_cases hcomma : x = ','
    · rw [hcomma]
      rfl
    · have hmem : x ∈ n.text := by
        rw [h.text]
        exact List.mem_filter.2 ⟨List.mem_append_right _ hx, by simpa using hcomma⟩
      have hpart := n.mem_text hmem
      simp only [List.mem_cons, List.not_mem_nil, or_false] at hpart
      unfold isPart
      grind
  rw [hasShape_append (hb.sign.symm.imp_right fun hs => ⟨hs, hb.ne rfl (by decide)⟩),
    List.all_eq_true.2 hall]
  simpa using hb.first

/-- A word is read if it spells a number text that is rounded to a finite double. -/
theorem parse_eq_ok_iff_spells :
    parse w = .ok v ↔ ∃ n : NumberText, Spells w n ∧ n.RoundsTo v ∧ v.isFinite = true := by
  rw [parse_eq_ok_iff, read?]
  constructor
  · intro h
    split at h
    · rename_i hshape
      obtain ⟨hread, hfinite⟩ := Option.filter_eq_some_iff.1 h
      obtain ⟨n, hn, hround⟩ := NumberText.float?_eq_some_iff.1 hread
      obtain ⟨sign, c, rest, rfl, hb⟩ := exists_begins hshape
      have hplus : n.sign ≠ .plus := by
        intro hs
        rw [hb.filter_append, NumberText.text, hs] at hn
        exact hb.append_ne_plus hn.symm
      exact ⟨n, ⟨⟨sign, c, rest, rfl, hb⟩, hplus, hn⟩, hround, hfinite⟩
    · cases h
  · rintro ⟨n, hspells, hround, hfinite⟩
    rw [if_pos hspells.hasShape]
    exact Option.filter_eq_some_iff.2
      ⟨NumberText.float?_eq_some_iff.2 ⟨n, hspells.text, hround⟩, hfinite⟩

/-! ## Words that are refused -/

/-- What no numeral contains: a foreign character, a plus sign in front, two minus signs with at most
commas between, a second point. -/
inductive Unreadable : Text → Prop where
  | foreign {w : Text} {c : Char} (hc : c ∈ w) (hdigit : c.isDigit = false)
      (hmark : c ∉ ['.', ',', 'e', 'E', '+', '-']) : Unreadable w
  | plus (w : Text) : Unreadable ('+' :: w)
  | minus {w : Text} (h : ['-', '-'] <:+: w.filter (· != ',')) : Unreadable w
  | points {w : Text} (h : 2 ≤ w.count '.') : Unreadable w

theorem Unreadable.not_spells (h : Unreadable w) : ¬ Spells w n := by
  intro hn
  cases h with
  | @foreign w c hc hdigit hmark =>
    have hcomma : c ≠ ',' := by rintro rfl; simp at hmark
    have hmem : c ∈ n.text := hn.text ▸ List.mem_filter.2 ⟨hc, by simpa using hcomma⟩
    have hpart := n.mem_text hmem
    grind
  | plus w =>
    obtain ⟨sign, c, rest, hw, hb⟩ := hn.begins
    exact hb.append_ne_plus hw.symm
  | minus h =>
    have hpair := n.noDoubleMinus_text.infix (hn.text ▸ h)
    simp at hpair
  | points h =>
    have hcount : n.text.count '.' = w.count '.' := by
      rw [hn.text, List.count_filter (by decide)]
    have := n.count_point
    omega

/-! ## Commas -/

theorem all_isPart_filter : (t.filter (· != ',')).all isPart = t.all isPart := by
  rw [List.all_filter]
  congr 1
  funext c
  by_cases hc : c = ','
  · rw [hc]
    rfl
  · simp [hc]

/-- Commas do not matter behind the first character. -/
theorem read?_eq_of_filter_eq (hsign : sign = ['-'] ∨ sign = [] ∧ c ≠ '-')
    (h : s.filter (· != ',') = t.filter (· != ',')) :
    read? (sign ++ c :: s) = read? (sign ++ c :: t) := by
  have hall : s.all isPart = t.all isPart := by
    rw [← all_isPart_filter, h, all_isPart_filter]
  have hshape : hasShape (sign ++ c :: s) = hasShape (sign ++ c :: t) := by
    rw [hasShape_append hsign, hasShape_append hsign, List.all_cons, List.all_cons, hall]
  have hfilter : (sign ++ c :: s).filter (· != ',') = (sign ++ c :: t).filter (· != ',') := by
    rw [List.filter_append, List.filter_append, List.filter_cons, List.filter_cons, h]
  rw [read?, read?, hshape, hfilter]

/-! ## The answer for every word -/

/-- A word is read exactly if it begins like a numeral and is, without its commas, a number text that
is rounded to a finite double; it stands for that double. Every other word is refused with an error
that quotes it, among them all that contain something unreadable. Commas behind the first character
change neither. -/
theorem parse_classified :
    (∀ w v, parse w = .ok v ↔
      ∃ n : NumberText, Spells w n ∧ n.RoundsTo v ∧ v.isFinite = true) ∧
    (∀ w, parse w = .error (.badNumeral w) ↔
      ¬ ∃ v, ∃ n : NumberText, Spells w n ∧ n.RoundsTo v ∧ v.isFinite = true) ∧
    (∀ w, Unreadable w → parse w = .error (.badNumeral w)) ∧
    (∀ sign c s t, sign = ['-'] ∨ sign = [] ∧ c ≠ '-' →
      s.filter (· != ',') = t.filter (· != ',') →
        ∀ v, parse (sign ++ c :: s) = .ok v ↔ parse (sign ++ c :: t) = .ok v) := by
  have hrefused (w : Text) : parse w = .error (.badNumeral w) ↔
      ¬ ∃ v, ∃ n : NumberText, Spells w n ∧ n.RoundsTo v ∧ v.isFinite = true := by
    simp only [← parse_eq_ok_iff_spells]
    unfold parse
    cases read? w <;> simp
  refine ⟨fun w v => parse_eq_ok_iff_spells, hrefused, fun w hw => ?_, ?_⟩
  · rw [hrefused]
    rintro ⟨v, n, hn, -⟩
    exact hw.not_spells hn
  · intro sign c s t hsign h v
    rw [parse_eq_ok_iff, parse_eq_ok_iff, read?_eq_of_filter_eq hsign h]

theorem parse_classified_of_groups :
    parse "-1,23,4".toList = .ok (-1234) ∧
      parse "1e-,-5".toList = .error (.badNumeral "1e-,-5".toList) := by
  have hplain : parse "-1234".toList = .ok (-1234) := parse_eq_ok_iff.2 (by decide +kernel)
  have hunreadable : Unreadable "1e-,-5".toList := .minus ⟨['1', 'e'], ['5'], by decide⟩
  obtain ⟨-, -, hrefused, hcommas⟩ := parse_classified
  exact ⟨(hcommas ['-'] '1' ",23,4".toList "234".toList (.inl rfl) (by decide) _).2 hplain,
    hrefused _ hunreadable⟩

end Numeral

end PocketCalc
