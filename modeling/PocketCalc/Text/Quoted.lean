import PocketCalc.Text.Blank
import PocketCalc.Text.Hidden

/-!
# Quoted texts

A text is quoted between double quotes so that it can be read off a message without doubt: quotes,
backslashes and the common controls are written with a backslash, and a character that does not
print on its own by its number.

* `quoted_eq_of_plain`: a text of ordinary characters is only put between quotes.
-/

namespace PocketCalc

namespace Text

/-- Whether a character is written by its number. -/
def isHidden (c : Char) : Bool := inRanges unprintable c || inRanges extending c

/-- The hexadecimal number of a character, in lower case and without leading zeros. -/
def codeText (c : Char) : Text := Nat.toDigits 16 c.toNat

/-- One character as it stands between quotes. -/
def quotedChar (c : Char) : Text :=
  if c = '"' then ['\\', '"']
  else if c = '\\' then ['\\', '\\']
  else if c = '\n' then ['\\', 'n']
  else if c = '\r' then ['\\', 'r']
  else if c = '\t' then ['\\', 't']
  else if c = '\x00' then ['\\', '0']
  else if isHidden c then "\\u\x7b".toList ++ codeText c ++ "\x7d".toList
  else [c]

/-- A text between double quotes. -/
def quoted (t : Text) : Text := '"' :: t.flatMap quotedChar ++ ['"']

theorem quotedChar_of_ordinary {c : Char} (h₁ : c ≠ '"') (h₂ : c ≠ '\\') (h₃ : isHidden c = false)
    (h₄ : 32 ≤ c.toNat) : quotedChar c = [c] := by
  have hne : ∀ d : Char, d.toNat < 32 → c ≠ d := by
    rintro d hd rfl
    omega
  simp [quotedChar, h₁, h₂, h₃, hne '\n' (by decide), hne '\r' (by decide),
    hne '\t' (by decide), hne '\x00' (by decide)]

theorem quoted_eq_of_plain {t : Text}
    (h : ∀ c ∈ t, c ≠ '"' ∧ c ≠ '\\' ∧ isHidden c = false ∧ 32 ≤ c.toNat) :
    quoted t = '"' :: t ++ ['"'] := by
  have : t.flatMap quotedChar = t := by
    induction t with
    | nil => rfl
    | cons c rest ih =>
      obtain ⟨h₁, h₂, h₃, h₄⟩ := h c (by simp)
      rw [List.flatMap_cons, quotedChar_of_ordinary h₁ h₂ h₃ h₄,
        ih fun d hd => h d (List.mem_cons_of_mem _ hd)]
      rfl
  simp [quoted, this]

end Text

end PocketCalc
