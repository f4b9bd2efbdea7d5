import Mathlib.Data.List.DropRight
import PocketCalc.Text.Blank

/-!
# The end of a text and its last word

A text is the part up to its last blank and an ending without blanks. That ending is the last word,
if there is one, so a character behind a text either makes the last word longer or begins a new one.

* `trim_append_blanks`: blanks at either end do not matter to the text without them.
* `words_append_char`: the words of a text with one more character that is not blank.
* `forall_words_iff`, `forall_words_append_char_iff`: the same for what holds of all words, by the
  part behind the last blank.
* `not_mem_of_forall_words`: the words have every character that is not blank.
-/

namespace PocketCalc

namespace Text

/-- The text ends in a character of the given kind. -/
def EndsIn (p : Char → Prop) (t : Text) : Prop := ∃ s c, t = s ++ [c] ∧ p c

theorem EndsIn.mono {p q : Char → Prop} (h : ∀ c, p c → q c) {t : Text} : EndsIn p t → EndsIn q t
  | ⟨s, c, ht, hc⟩ => ⟨s, c, ht, h c hc⟩

theorem EndsIn.append {p : Char → Prop} {t : Text} (s : Text) : EndsIn p t → EndsIn p (s ++ t)
  | ⟨r, c, ht, hc⟩ => ⟨s ++ r, c, by rw [ht, List.append_assoc], hc⟩

theorem endsIn_of_forall {p : Char → Prop} {t : Text} (hne : t ≠ []) (h : ∀ c ∈ t, p c) :
    EndsIn p t :=
  ⟨t.dropLast, t.getLast hne, (List.dropLast_concat_getLast hne).symm, h _ (List.getLast_mem hne)⟩

theorem ne_of_isDigit {c d : Char} (hc : c.isDigit = true) (hd : d.isDigit = false) : c ≠ d := by
  rintro rfl
  rw [hc] at hd
  cases hd

theorem not_mem_of_digits {t : Text} {d : Char} (h : ∀ c ∈ t, c.isDigit = true)
    (hd : d.isDigit = false) : d ∉ t :=
  fun hmem => ne_of_isDigit (h d hmem) hd rfl

theorem isBlank_of_isDigit {c : Char} (h : c.isDigit = true) : isBlank c = false := by
  have hn : 48 ≤ c.toNat ∧ c.toNat ≤ 57 := by simpa [Char.isDigit, UInt32.le_iff_toNat_le] using h
  simp only [isBlank, Bool.or_eq_false_iff, Bool.and_eq_false_iff, decide_eq_false_iff_not,
    beq_eq_false_iff_ne]
  omega

/-! ## Blanks at either end -/

theorem trimEnd_append_blanks {b : Text} (hb : ∀ c ∈ b, isBlank c = true) (t : Text) :
    trimEnd (t ++ b) = trimEnd t := by
  have hrev : ∀ c ∈ b.reverse, isBlank c = true := fun c hc => hb c (List.mem_reverse.1 hc)
  rw [trimEnd, trimEnd, List.reverse_append, List.dropWhile_append_of_pos hrev]

theorem trim_append_blanks {a b : Text} (ha : ∀ c ∈ a, isBlank c = true)
    (hb : ∀ c ∈ b, isBlank c = true) (t : Text) : trim (a ++ t ++ b) = trim t := by
  rw [trim, trim, List.append_assoc, List.dropWhile_append_of_pos ha, List.dropWhile_append]
  split
  · rename_i hnil
    rw [List.dropWhile_eq_nil_iff.2 hb, List.isEmpty_iff.1 hnil]
  · exact trimEnd_append_blanks hb _

theorem trim_of_forall {t : Text} (h : ∀ c ∈ t, isBlank c = false) : trim t = t := by
  have hkeep (u : Text) (hu : ∀ c ∈ u, isBlank c = false) : u.dropWhile isBlank = u := by
    cases u with
    | nil => rfl
    | cons c u => exact List.dropWhile_cons_of_neg (by simp [hu c])
  rw [trim, hkeep t h, trimEnd, hkeep _ fun c hc => h c (List.mem_reverse.1 hc), List.reverse_reverse]

/-! ## The part behind the last blank -/

/-- A text up to its last blank. -/
def lead (t : Text) : Text := t.rdropWhile fun c => !isBlank c

/-- The part of a text behind its last blank. -/
def ending (t : Text) : Text := t.rtakeWhile fun c => !isBlank c

@[simp] theorem ending_nil : ending [] = [] := rfl

theorem lead_append_char {c : Char} (hc : isBlank c = false) (t : Text) :
    lead (t ++ [c]) = lead t := by
  simp [lead, hc]

theorem ending_append_char {c : Char} (hc : isBlank c = false) (t : Text) :
    ending (t ++ [c]) = ending t ++ [c] := by
  simp [ending, hc]

theorem ending_append_blank {c : Char} (hc : isBlank c = true) (t : Text) :
    ending (t ++ [c]) = [] := by
  simp [ending, hc]

theorem lead_append_ending (t : Text) : lead t ++ ending t = t := List.rdropWhile_append_rtakeWhile

theorem isBlank_of_mem_ending {t : Text} {c : Char} (hc : c ∈ ending t) : isBlank c = false := by
  simpa using List.mem_rtakeWhile_imp hc

theorem lead_eq (t : Text) : lead t = [] ∨ ∃ r b, lead t = r ++ [b] ∧ isBlank b = true := by
  by_cases hne : lead t = []
  · exact .inl hne
  · refine .inr ⟨_, _, (List.dropLast_concat_getLast hne).symm, ?_⟩
    simpa [lead] using List.rdropWhile_last_not _ t hne

theorem lead_eq_self {t : Text} (h : ending t = []) : lead t = t := by
  simpa [h] using lead_append_ending t

/-! ## Words -/

/-- An ending without blanks is a word of its own. -/
theorem words_cut {s w : Text} (hs : s = [] ∨ ∃ r b, s = r ++ [b] ∧ isBlank b = true)
    (hne : w ≠ []) (hw : ∀ c ∈ w, isBlank c = false) : words (s ++ w) = words s ++ [w] := by
  rcases hs with rfl | ⟨r, b, rfl, hb⟩
  · simp [words_singleton hne hw]
  · rw [List.append_assoc, List.singleton_append, words_append_blank hb,
      words_append_blank hb, words_singleton hne hw, words_nil, List.append_nil]

theorem words_of_ending {t : Text} (hne : ending t ≠ []) :
    words t = words (lead t) ++ [ending t] := by
  rw [← words_cut (lead_eq t) hne fun c => isBlank_of_mem_ending, lead_append_ending]

theorem words_append_char {c : Char} (hc : isBlank c = false) (t : Text) :
    words (t ++ [c]) = words t ++ [[c]] ∨
      ∃ ws w, w ≠ [] ∧ words t = ws ++ [w] ∧ words (t ++ [c]) = ws ++ [w ++ [c]] := by
  have h := words_of_ending (t := t ++ [c]) (by simp [ending_append_char hc])
  rw [lead_append_char hc, ending_append_char hc] at h
  by_cases hne : ending t = []
  · exact .inl (by rw [h, lead_eq_self hne, hne, List.nil_append])
  · exact .inr ⟨words (lead t), ending t, hne, words_of_ending hne, h⟩

/-- The words of a text are those up to its last blank and the part behind that, if there is one. -/
theorem mem_words_iff {t w : Text} : w ∈ words t ↔ w ∈ words (lead t) ∨ w = ending t ∧ w ≠ [] := by
  by_cases hne : ending t = []
  · rw [lead_eq_self hne, hne]
    exact ⟨.inl, fun h => h.resolve_right fun h => h.2 h.1⟩
  · rw [words_of_ending hne, List.mem_append, List.mem_singleton]
    exact or_congr_right ⟨fun h => ⟨h, h ▸ hne⟩, And.left⟩

/-- What holds of the empty word holds of all words if it holds of those up to the last blank and of
the part behind it. -/
theorem forall_words_iff {P : Text → Prop} (hnil : P []) (t : Text) :
    (∀ w ∈ words t, P w) ↔ (∀ w ∈ words (lead t), P w) ∧ P (ending t) := by
  simp only [mem_words_iff (t := t)]
  constructor
  · intro h
    refine ⟨fun w hw => h w (.inl hw), ?_⟩
    by_cases hne : ending t = []
    · rwa [hne]
    · exact h _ (.inr ⟨rfl, hne⟩)
  · rintro ⟨hl, he⟩ w (hw | ⟨rfl, -⟩)
    · exact hl w hw
    · exact he

/-- A character that is not blank goes behind the part behind the last blank. -/
theorem forall_words_append_char_iff {P : Text → Prop} {c : Char} (hc : isBlank c = false)
    (t : Text) : (∀ w ∈ words (t ++ [c]), P w) ↔
      (∀ w ∈ words (lead t), P w) ∧ P (ending t ++ [c]) := by
  simp [mem_words_iff (t := t ++ [c]), lead_append_char hc, ending_append_char hc, or_imp,
    forall_and]

/-- A character that is not blank is in the text only if it is in a word. -/
theorem not_mem_of_forall_words {c : Char} (hc : isBlank c = false) {t : Text}
    (h : ∀ w ∈ words t, c ∉ w) : c ∉ t := by
  induction t using List.reverseRecOn with
  | nil => simp
  | append_singleton t d ih =>
    cases hd : isBlank d with
    | true =>
      have hne : c ≠ d := by
        rintro rfl
        simp [hd] at hc
      rw [words_append_blank hd, words_nil, List.append_nil] at h
      simp [hne, ih h]
    | false =>
      obtain ⟨hlead, hending⟩ := (forall_words_append_char_iff (P := (c ∉ ·)) hd t).1 h
      simp only [List.mem_append, List.mem_singleton, not_or] at hending ⊢
      exact ⟨ih ((forall_words_iff (P := (c ∉ ·)) (by simp) t).2 ⟨hlead, hending.1⟩), hending.2⟩

end Text

end PocketCalc
