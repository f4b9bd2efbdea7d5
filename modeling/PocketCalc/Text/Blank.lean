/-!
# Texts, blanks and words

A text is the list of its characters, so a law about texts is a law about lists. Words are the
longest runs of characters that are not blank, where blank means Unicode's `White_Space`.

* `words_append_blank`: the words on both sides of a blank do not touch; the other laws of `words`
  follow from this one.
* `words_singleton`: a text without blanks is one word.
-/

namespace PocketCalc

/-- A text, as the list of its characters. -/
abbrev Text := List Char

namespace Text

/-! ## Blanks -/

/-- The characters with Unicode's `White_Space` property. -/
def isBlank (c : Char) : Bool :=
  let n := c.toNat
  (9 ≤ n && n ≤ 13) || n == 32 || n == 0x85 || n == 0xA0 || n == 0x1680 ||
    (0x2000 ≤ n && n ≤ 0x200A) || n == 0x2028 || n == 0x2029 || n == 0x202F || n == 0x205F ||
    n == 0x3000

/-- The text without the blanks at its end. -/
def trimEnd (t : Text) : Text := (t.reverse.dropWhile isBlank).reverse

/-- The text without the blanks at either end. -/
def trim (t : Text) : Text := trimEnd (t.dropWhile isBlank)

/-! ## Words -/

/-- The words of a text, in order. -/
def words (t : Text) : List Text := (t.splitOnP isBlank).filter (fun piece => !piece.isEmpty)

@[simp] theorem words_nil : words [] = [] := rfl

theorem words_append_blank {c : Char} (hc : isBlank c = true) (s t : Text) :
    words (s ++ c :: t) = words s ++ words t := by
  unfold words
  rw [List.splitOnP_append_cons s t hc, List.filter_append]

theorem words_singleton {w : Text} (hw : w ≠ []) (h : ∀ c ∈ w, isBlank c = false) :
    words w = [w] := by
  rw [words, List.splitOnP_eq_singleton h]
  simp [hw]

end Text

end PocketCalc
