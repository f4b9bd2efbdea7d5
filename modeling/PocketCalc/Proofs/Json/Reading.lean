import Mathlib.Data.List.TakeWhile
import Mathlib.Tactic.SplitIfs
import PocketCalc.Json.Skip
import PocketCalc.Proofs.Json.Grammar

/-!
# The readers of strings and of values that are not needed

What a reader takes off the front of a text is derived by the grammar, and a string is read however
its characters are spelled.

* `readQuoted_of_mem`: each way to write a string reads as the string.
* `stringText_mem`: what is written is such a way.
* `reads_readQuoted`, `passes_skip`: what a string, and a value that is passed over, consist of.
-/

namespace PocketCalc

namespace Json

open Computability

/-! ## Hexadecimal digits -/

theorem IsHex.hexDigit? {c : Char} {n : Nat} (h : IsHex c n) : hexDigit? c = some n := by
  obtain ⟨hn, h⟩ := h
  have key : ∀ n < 16, Json.hexDigit? (Nat.digitChar n) = some n ∧
      Json.hexDigit? (Nat.digitChar n).toUpper = some n := by decide
  rcases h with rfl | rfl
  · exact (key n hn).1
  · exact (key n hn).2

theorem isHex_digitChar {n : Nat} (h : n < 16) : IsHex (Nat.digitChar n) n := ⟨h, .inl rfl⟩

theorem isHex_of_hexDigit? {c : Char} {n : Nat} (h : hexDigit? c = some n) : IsHex c n := by
  have key : ∀ k < 103, ∀ n ∈ hexDigit? (Char.ofNat k), n < 16 ∧
      (Char.ofNat k = Nat.digitChar n ∨ Char.ofNat k = (Nat.digitChar n).toUpper) := by decide
  have hc : c.toNat < 103 := by
    by_contra hc
    have h9 : ¬ c ≤ '9' := fun hle => hc (Nat.lt_of_le_of_lt (Char.le_def.1 hle) (by decide))
    have hf : ¬ c ≤ 'f' := fun hle => hc (Nat.lt_of_le_of_lt (Char.le_def.1 hle) (by decide))
    have hF : ¬ c ≤ 'F' := fun hle => hc (Nat.lt_of_le_of_lt (Char.le_def.1 hle) (by decide))
    simp [hexDigit?, h9, hf, hF] at h
  have := key c.toNat hc n
  rw [Char.ofNat_toNat] at this
  exact this h

theorem Code.exists_hex? {n : Nat} {t : Text} (h : Code n t) :
    ∃ a b c d, t = ['\\', 'u', a, b, c, d] ∧ hex? a b c d = some n := by
  obtain ⟨ha, hb, hc, hd⟩ := h
  refine ⟨_, _, _, _, rfl, ?_⟩
  simp [hex?, ha.hexDigit?, hb.hexDigit?, hc.hexDigit?, hd.hexDigit?]

theorem code_of_hex? {a b c d : Char} {n : Nat} (h : hex? a b c d = some n) :
    Code n ['\\', 'u', a, b, c, d] := by
  simp only [hex?, Option.bind_eq_bind, Option.bind_eq_some_iff, Option.pure_def,
    Option.some.injEq] at h
  obtain ⟨i, ha, j, hb, k, hc, l, hd, rfl⟩ := h
  exact .digits (isHex_of_hexDigit? ha) (isHex_of_hexDigit? hb) (isHex_of_hexDigit? hc)
    (isHex_of_hexDigit? hd)

/-! ## Reading a string -/

/-- A string with one more character in front. -/
def push (c : Char) (r : Text × Text) : Text × Text := (c :: r.1, r.2)

theorem readString_code {n : Nat} {t : Text} (h : Code n t) (hlow : n < 0xD800 ∨ 0xDFFF < n)
    (x : Text) : readString (t ++ x) = (readString x).map (push (Char.ofNat n)) := by
  obtain ⟨a, b, c, d, rfl, hhex⟩ := h.exists_hex?
  simp only [List.cons_append, List.nil_append, readString, hhex]
  rw [if_neg (by omega), if_neg (by omega)]
  rfl

theorem readString_pair {c : Char} {high low : Nat} {t u : Text} (ht : Code (0xD800 + high) t)
    (hu : Code (0xDC00 + low) u) (hhigh : high < 0x400) (hlow : low < 0x400)
    (hc : c.toNat = 0x10000 + high * 0x400 + low) (x : Text) :
    readString (t ++ u ++ x) = (readString x).map (push c) := by
  obtain ⟨a, b, c₁, d, rfl, hhex⟩ := ht.exists_hex?
  obtain ⟨a', b', c', d', rfl, hhex'⟩ := hu.exists_hex?
  have hpair : pair? (0xD800 + high) (0xDC00 + low) = some c := by
    have hn : 0x10000 + (0xD800 + high - 0xD800) * 0x400 + (0xDC00 + low - 0xDC00) = c.toNat := by
      omega
    rw [pair?, if_pos (by omega), hn, Char.ofNat_toNat]
  simp only [List.cons_append, List.nil_append, readString, hhex, hhex', Option.bind_some, hpair]
  rw [if_neg (by omega), if_pos (by omega)]
  rfl

theorem readString_spells {c : Char} {t : Text} (h : Spells c t) (x : Text) :
    readString (t ++ x) = (readString x).map (push c) := by
  cases h with
  | plain h =>
    obtain ⟨hquote, hslash, hcontrol⟩ := h
    rw [List.cons_append, List.nil_append, readString]
    · rw [if_neg (by simp [hslash, hcontrol])]
      rfl
    · exact hquote
    · exact fun _ _ _ _ _ hc _ => hslash hc
    · exact fun _ _ hc _ => hslash hc
  | short h =>
    simp only [shortEscapes, List.mem_cons, List.not_mem_nil, or_false, Prod.mk.injEq] at h
    rcases h with ⟨rfl, rfl⟩ | ⟨rfl, rfl⟩ | ⟨rfl, rfl⟩ | ⟨rfl, rfl⟩ | ⟨rfl, rfl⟩ | ⟨rfl, rfl⟩ |
      ⟨rfl, rfl⟩ | ⟨rfl, rfl⟩ <;> rfl
  | code h =>
    have hvalid : c.toNat < 0xD800 ∨ 0xDFFF < c.toNat := by
      have := c.valid
      simp only [UInt32.isValidChar, Nat.isValidChar] at this
      have : c.toNat = c.val.toNat := rfl
      omega
    rw [readString_code h hvalid, Char.ofNat_toNat]
  | pair ht hu hhigh hlow hc => exact readString_pair ht hu hhigh hlow hc x

theorem readString_characters {s u : Text} (h : u ∈ characters s) (x : Text) :
    readString (u ++ '"' :: x) = some (s, x) := by
  induction s generalizing u with
  | nil =>
    obtain rfl : u = [] := h
    rfl
  | cons c s ih =>
    obtain ⟨t, ht, v, hv, rfl⟩ := h
    rw [List.append_assoc, readString_spells ht, ih hv]
    rfl

/-- Each way to write a string reads as the string. -/
theorem readQuoted_of_mem {s t : Text} (h : t ∈ string s) (x : Text) :
    readQuoted (t ++ x) = some (s, x) := by
  obtain ⟨_, ⟨_, rfl, u, hu, rfl⟩, _, rfl, rfl⟩ := h
  simpa [readQuoted] using readString_characters hu x

/-! ## Writing a string -/

theorem spells_escaped (c : Char) : Spells c (escaped c) := by
  unfold escaped
  split
  · subst c; exact .short (by decide)
  split
  · subst c; exact .short (by decide)
  split
  · subst c; exact .short (by decide)
  split
  · subst c; exact .short (by decide)
  split
  · subst c; exact .short (by decide)
  split
  · subst c; exact .short (by decide)
  split
  · subst c; exact .short (by decide)
  split
  · rename_i hc
    have hzero : IsHex '0' 0 := isHex_digitChar (by decide)
    have hcode := Code.digits hzero hzero (isHex_digitChar (n := c.toNat / 16) (by omega))
      (isHex_digitChar (n := c.toNat % 16) (by omega))
    have hn : ((0 * 16 + 0) * 16 + c.toNat / 16) * 16 + c.toNat % 16 = c.toNat := by omega
    rw [hn] at hcode
    exact .code hcode
  · rename_i hquote hslash _ _ _ _ _ hc
    exact .plain ⟨hquote, hslash, by omega⟩

theorem stringText_mem (s : Text) : stringText s ∈ string s := by
  refine Language.append_mem_mul (Language.append_mem_mul (a := ['"']) rfl ?_) rfl
  induction s with
  | nil => rfl
  | cons c s ih => exact Language.append_mem_mul (spells_escaped c) ih

/-! ## What is read -/

/-- A text of a language stands in front of a text, and this is what is behind it. -/
def Reads (l : Language Char) (t rest : Text) : Prop := ∃ u ∈ l, u ++ rest = t

namespace Reads

variable {l m : Language Char} {t u v : Text}

theorem refl (t : Text) : Reads 1 t t := ⟨[], rfl, rfl⟩

theorem letter (c : Char) (t : Text) : Reads (letter c) (c :: t) t := ⟨[c], rfl, rfl⟩

theorem mono (h : Reads l t u) (hlm : l ≤ m) : Reads m t u := by
  obtain ⟨a, ha, rfl⟩ := h
  exact ⟨a, hlm ha, rfl⟩

theorem trans (htu : Reads l t u) (huv : Reads m u v) : Reads (l * m) t v := by
  obtain ⟨a, ha, rfl⟩ := htu
  obtain ⟨b, hb, rfl⟩ := huv
  exact ⟨a ++ b, Language.append_mem_mul ha hb, List.append_assoc a b v⟩

end Reads

/-! ### Blanks and strings -/

theorem isSpace_iff {c : Char} : isSpace c = true ↔ c ∈ space := by
  simp [isSpace, space, or_assoc]

theorem reads_dropSpace (t : Text) : Reads blanks t (dropSpace t) :=
  ⟨t.takeWhile isSpace, fun _ hc => isSpace_iff.1 (List.mem_takeWhile_imp hc),
    List.takeWhile_append_dropWhile⟩

theorem reads_piece {t u rest : Text} (hu : Piece u) (h : Reads (pieces∗ * letter '"') t rest) :
    Reads (pieces∗ * letter '"') (u ++ t) rest := by
  have hfirst : Reads pieces (u ++ t) t := ⟨u, hu, rfl⟩
  refine (hfirst.trans h).mono ?_
  rw [← mul_assoc]
  exact mul_le_mul_left (mul_kstar_le_kstar) _

theorem reads_quote (t : Text) : Reads (pieces∗ * letter '"') ('"' :: t) t :=
  (Reads.letter '"' t).mono (by simpa using mul_le_mul_left one_le_kstar (letter '"'))

theorem piece_of_escape? {c x : Char} (h : escape? c = some x) : Piece ['\\', c] := by
  refine .short (c := x) ?_
  unfold escape? at h
  split_ifs at h <;> cases h <;> simp_all [shortEscapes]

theorem piece_of_hex? {a b c d : Char} {n : Nat} (h : hex? a b c d = some n) :
    Piece ['\\', 'u', a, b, c, d] := .code (code_of_hex? h)

theorem piece_singleton {c : Char} (hquote : c ≠ '"') (h : ¬ (c.toNat < 32 ∨ c = '\\')) :
    Piece [c] := .plain ⟨hquote, fun hc => h (.inr hc), by omega⟩

theorem exists_of_map {t s rest : Text} {c : Char}
    (h : (readString t).map (fun (s, rest) => (c :: s, rest)) = some (s, rest)) :
    ∃ s, readString t = some (s, rest) := by
  obtain ⟨⟨s', rest'⟩, hr, he⟩ := Option.map_eq_some_iff.1 h
  cases he
  exact ⟨s', hr⟩

theorem reads_readString {t s rest : Text} (h : readString t = some (s, rest)) :
    Reads (pieces∗ * letter '"') t rest := by
  fun_induction readString t generalizing s with
  | case1 | case3 | case4 | case5 | case7 | case9 | case11 => cases h
  | case2 =>
    cases h
    exact reads_quote _
  | case6 a b c d n hn hlow hhigh a' b' c' d' t y hy ih =>
    obtain ⟨s', hr⟩ := exists_of_map h
    obtain ⟨n', hn', -⟩ := Option.bind_eq_some_iff.1 hy
    exact reads_piece (piece_of_hex? hn) (reads_piece (piece_of_hex? hn') (ih hr))
  | case8 a b c d t n hn hlow hhigh ih =>
    obtain ⟨s', hr⟩ := exists_of_map h
    exact reads_piece (piece_of_hex? hn) (ih hr)
  | case10 c t hu y hy ih =>
    obtain ⟨s', hr⟩ := exists_of_map h
    exact reads_piece (piece_of_escape? hy) (ih hr)
  | case12 c t hquote _ _ hc ih =>
    obtain ⟨s', hr⟩ := exists_of_map h
    exact reads_piece (piece_singleton hquote hc) (ih hr)

theorem reads_skipString {t rest : Text} (h : skipString t = some rest) :
    Reads (pieces∗ * letter '"') t rest := by
  fun_induction skipString t with
  | case1 | case4 | case6 | case7 => cases h
  | case2 =>
    cases h
    exact reads_quote _
  | case3 a b c d t hhex ih =>
    obtain ⟨n, hn⟩ := Option.isSome_iff_exists.1 hhex
    exact reads_piece (piece_of_hex? hn) (ih h)
  | case5 c t hu hescape ih =>
    obtain ⟨x, hx⟩ := Option.isSome_iff_exists.1 hescape
    exact reads_piece (piece_of_escape? hx) (ih h)
  | case8 c t hquote _ _ hc ih => exact reads_piece (piece_singleton hquote hc) (ih h)

/-- A string from its opening quote. -/
theorem reads_anyString {t rest : Text} (h : Reads (pieces∗ * letter '"') t rest) :
    Reads anyString ('"' :: t) rest := by
  have := (Reads.letter '"' t).trans h
  rwa [← mul_assoc] at this

theorem reads_readQuoted {t s rest : Text} (h : readQuoted t = some (s, rest)) :
    Reads anyString t rest := by
  unfold readQuoted at h
  split at h
  · exact reads_anyString (reads_readString h)
  · cases h

/-! ### Numbers and words -/

theorem reads_afterWord? {w t rest : Text} (h : afterWord? w t = some rest) :
    Reads {w} t rest := by
  refine ⟨w, rfl, ?_⟩
  fun_induction afterWord? w t with
  | case1 => exact (Option.some.inj h).symm
  | case2 c w t ih => rw [List.cons_append, ih h]
  | case3 | case4 => cases h

theorem reads_skipDigits {t rest : Text} (h : skipDigits t = some rest) : Reads digits t rest := by
  unfold skipDigits at h
  split at h
  · cases h
  · rename_i c t
    split at h
    · rename_i hc
      cases h
      refine ⟨c :: t.takeWhile Char.isDigit, ⟨List.cons_ne_nil _ _, ?_⟩, ?_⟩
      · simp only [List.mem_cons, forall_eq_or_imp]
        exact ⟨hc, fun d hd => List.mem_takeWhile_imp hd⟩
      · rw [List.cons_append, List.takeWhile_append_dropWhile]
    · cases h

theorem reads_skipWhole {t rest : Text} (h : skipWhole t = some rest) :
    Reads (letter '0' + significant) t rest := by
  unfold skipWhole at h
  split at h
  · -- Behind a zero there is no other digit, so the zero is all that is taken.
    rename_i t
    have hrest : t = rest := by
      split at h
      · exact Option.some.inj h
      · split at h
        · cases h
        · exact Option.some.inj h
    subst hrest
    exact (Reads.letter '0' t).mono le_self_add
  · rename_i hzero
    obtain ⟨u, hu, rfl⟩ := reads_skipDigits h
    refine ⟨u, .inr ⟨hu, fun hhead => ?_⟩, rfl⟩
    obtain ⟨v, rfl⟩ := List.head?_eq_some_iff.1 hhead
    exact hzero _ rfl

theorem reads_skipFraction {t rest : Text} (h : skipFraction t = some rest) :
    Reads (1 + letter '.' * digits) t rest := by
  unfold skipFraction at h
  split at h
  · exact ((Reads.letter _ _).trans (reads_skipDigits h)).mono le_add_self
  · cases h
    exact (Reads.refl _).mono le_self_add

theorem reads_skipExponent {t rest : Text} (h : skipExponent t = some rest) :
    Reads (1 + (letter 'e' + letter 'E') * (1 + letter '+' + letter '-') * digits) t rest := by
  unfold skipExponent at h
  split at h
  · cases h
    exact (Reads.refl _).mono le_self_add
  · rename_i c t
    split at h
    · rename_i hc
      have hletter : Reads (letter 'e' + letter 'E') (c :: t) t := by
        rcases hc with rfl | rfl
        · exact (Reads.letter 'e' t).mono le_self_add
        · exact (Reads.letter 'E' t).mono le_add_self
      refine Reads.mono ?_ le_add_self
      rw [mul_assoc]
      refine hletter.trans ?_
      split at h
      · refine Reads.trans ((Reads.letter '+' _).mono ?_) (reads_skipDigits h)
        exact le_add_self.trans le_self_add
      · exact Reads.trans ((Reads.letter '-' _).mono le_add_self) (reads_skipDigits h)
      · refine Reads.trans ((Reads.refl _).mono ?_) (reads_skipDigits h)
        exact le_self_add.trans le_self_add
    · cases h
      exact (Reads.refl _).mono le_self_add

theorem reads_skipNumber {t rest : Text} (h : skipNumber t = some rest) : Reads number t rest := by
  obtain ⟨u, hu, hexponent⟩ := Option.bind_eq_some_iff.1 h
  obtain ⟨v, hv, hfraction⟩ := Option.bind_eq_some_iff.1 hu
  refine (Reads.trans ?_ (reads_skipFraction hfraction)).trans (reads_skipExponent hexponent)
  split at hv
  · exact ((Reads.letter '-' _).mono le_add_self).trans (reads_skipWhole hv)
  · exact ((Reads.refl _).mono le_self_add).trans (reads_skipWhole hv)

/-! ### Values -/

/-- The texts that a symbol derives. -/
def derived (s : Symbol) : Language Char := {t | Derives s t}

theorem blanks_mul_blanks_le : blanks * blanks ≤ blanks := by
  rintro _ ⟨a, ha, b, hb, rfl⟩ c hc
  exact (List.mem_append.1 hc).elim (ha c) (hb c)

theorem element_le : blanks * derived .value * blanks ≤ derived .element := by
  rintro _ ⟨_, ⟨a, ha, t, ht, rfl⟩, b, hb, rfl⟩
  exact .element ha ht hb

theorem blanks_mul_element_le : blanks * derived .element ≤ derived .element := by
  rintro _ ⟨a, ha, t, ht, rfl⟩
  cases ht with
  | element hb hv hc =>
    have := Derives.element (blanks_mul_blanks_le (Language.append_mem_mul ha hb)) hv hc
    show Derives .element _
    simpa using this

theorem blanks_mul_elements_le : blanks * derived .elements ≤ derived .elements := by
  rintro _ ⟨a, ha, t, ht, rfl⟩
  cases ht with
  | lastElement h => exact .lastElement (blanks_mul_element_le (Language.append_mem_mul ha h))
  | moreElements ht hu =>
    have := Derives.moreElements (blanks_mul_element_le (Language.append_mem_mul ha ht)) hu
    show Derives .elements _
    simpa using this

theorem blanks_mul_members_le : blanks * derived .members ≤ derived .members := by
  have hmember {a t : Text} (ha : a ∈ blanks) (ht : Derives .member t) :
      Derives .member (a ++ t) := by
    cases ht with
    | member hb hs hc hv =>
      have := Derives.member (blanks_mul_blanks_le (Language.append_mem_mul ha hb)) hs hc hv
      simpa using this
  rintro _ ⟨a, ha, t, ht, rfl⟩
  cases ht with
  | lastMember h => exact .lastMember (hmember ha h)
  | moreMembers ht hu =>
    have := Derives.moreMembers (hmember ha ht) hu
    show Derives .members _
    simpa using this

/-! ### Lists and objects -/

section Parts

variable {t u v w rest : Text}

/-- What is read behind the blanks. -/
theorem reads_of_dropSpace {l : Language Char} (ht : dropSpace t = u) (h : Reads l u rest) :
    Reads (blanks * l) t rest :=
  Reads.trans (ht ▸ reads_dropSpace t) h

theorem reads_letter {c : Char} (h : dropSpace t = c :: u) : Reads (blanks * letter c) t u :=
  reads_of_dropSpace h (.letter c u)

/-- A value with its blanks, up to the sign behind it. -/
theorem reads_element {c : Char} (ht : Reads (blanks * derived .value) t u)
    (hu : dropSpace u = c :: v) : Reads (derived .element * letter c) t v := by
  have := ht.trans (reads_letter hu)
  rw [← mul_assoc] at this
  exact this.mono (mul_le_mul_left element_le _)

theorem reads_lastElement (ht : Reads (blanks * derived .value) t u)
    (hu : dropSpace u = ']' :: rest) : Reads (derived .elements * letter ']') t rest :=
  (reads_element ht hu).mono (mul_le_mul_left (fun _ h => .lastElement h) _)

theorem reads_moreElements (ht : Reads (blanks * derived .value) t u)
    (hu : dropSpace u = ',' :: v) (hv : Reads (derived .elements * letter ']') v rest) :
    Reads (derived .elements * letter ']') t rest := by
  have := (reads_element ht hu).trans hv
  rw [← mul_assoc] at this
  refine this.mono (mul_le_mul_left ?_ _)
  rintro _ ⟨_, ⟨a, ha, _, rfl, rfl⟩, b, hb, rfl⟩
  show Derives .elements _
  simpa using Derives.moreElements ha hb

/-- A member with its blanks, up to the sign behind it. -/
theorem reads_member {c : Char} (ht : Reads (blanks * anyString) t u) (hu : dropSpace u = ':' :: v)
    (hv : Reads (blanks * derived .value) v w) (hw : dropSpace w = c :: rest) :
    Reads (derived .member * letter c) t rest := by
  have := (ht.trans (reads_letter hu)).trans (reads_element hv hw)
  rw [← mul_assoc] at this
  refine this.mono (mul_le_mul_left ?_ _)
  rintro _ ⟨_, ⟨_, ⟨a, ha, s, hs, rfl⟩, _, ⟨b, hb, _, rfl, rfl⟩, rfl⟩, x, hx, rfl⟩
  show Derives .member _
  simpa using Derives.member ha hs hb hx

theorem reads_lastMember (ht : Reads (derived .member * letter '\x7d') t rest) :
    Reads (derived .members * letter '\x7d') t rest :=
  ht.mono (mul_le_mul_left (fun _ h => .lastMember h) _)

theorem reads_moreMembers (ht : Reads (derived .member * letter ',') t u)
    (hu : Reads (derived .members * letter '\x7d') u rest) :
    Reads (derived .members * letter '\x7d') t rest := by
  have := ht.trans hu
  rw [← mul_assoc] at this
  refine this.mono (mul_le_mul_left ?_ _)
  rintro _ ⟨_, ⟨a, ha, _, rfl, rfl⟩, b, hb, rfl⟩
  show Derives .members _
  simpa using Derives.moreMembers ha hb

/-- A list from its bracket. -/
theorem reads_elements (h : Reads (derived .elements * letter ']') t rest) :
    Reads (derived .value) ('[' :: t) rest := by
  refine ((Reads.letter '[' t).trans h).mono ?_
  rintro _ ⟨_, rfl, _, ⟨x, hx, _, rfl, rfl⟩, rfl⟩
  exact .list hx

/-- An object from its brace. -/
theorem reads_members (h : Reads (derived .members * letter '\x7d') t rest) :
    Reads (derived .value) ('\x7b' :: t) rest := by
  refine ((Reads.letter '\x7b' t).trans h).mono ?_
  rintro _ ⟨_, rfl, _, ⟨x, hx, _, rfl, rfl⟩, rfl⟩
  exact .object hx

/-- Blanks in front of something that may begin with blanks. -/
theorem reads_mul_of_dropSpace {l m : Language Char} (hl : blanks * l ≤ l)
    (h : Reads (l * m) (dropSpace t) rest) : Reads (l * m) t rest := by
  have := reads_of_dropSpace rfl h
  rw [← mul_assoc] at this
  exact this.mono (mul_le_mul_left hl _)

theorem reads_emptyList (h : dropSpace t = ']' :: rest) :
    Reads (derived .value) ('[' :: t) rest := by
  refine ((Reads.letter '[' t).trans (reads_letter h)).mono ?_
  rintro _ ⟨_, rfl, _, ⟨b, hb, _, rfl, rfl⟩, rfl⟩
  exact .emptyList hb

theorem reads_emptyObject (h : dropSpace t = '\x7d' :: rest) :
    Reads (derived .value) ('\x7b' :: t) rest := by
  refine ((Reads.letter '\x7b' t).trans (reads_letter h)).mono ?_
  rintro _ ⟨_, rfl, _, ⟨b, hb, _, rfl, rfl⟩, rfl⟩
  exact .emptyObject hb

end Parts

/-! ### Values that are passed over -/

theorem reads_word {w t rest : Text} {c : Char}
    (hw : c :: w ∈ ["null".toList, "true".toList, "false".toList])
    (h : afterWord? w t = some rest) : Reads (derived .value) (c :: t) rest := by
  obtain ⟨u, hu, rfl⟩ := reads_afterWord? h
  obtain rfl : u = w := hu
  exact ⟨c :: u, .word hw, rfl⟩

/-- Whatever a reader takes off the front of a text belongs to a language. -/
def Passes (skip : Text → Option Text) (l : Language Char) : Prop :=
  ∀ t rest, skip t = some rest → Reads l t rest

theorem passes_skipValue {fuel : Nat}
    (helements : Passes (skipElements fuel) (derived .elements * letter ']'))
    (hmembers : Passes (skipMembers fuel) (derived .members * letter '\x7d')) :
    Passes (skipValue (fuel + 1)) (blanks * derived .value) := by
  intro t rest h
  refine (reads_dropSpace t).trans ?_
  rw [skipValue] at h
  generalize dropSpace t = u at h
  split at h
  · exact (reads_anyString (reads_skipString h)).mono fun _ h => .string h
  · exact reads_word (by decide) h
  · exact reads_word (by decide) h
  · exact reads_word (by decide) h
  · split at h
    · rename_i hclose
      cases h
      exact reads_emptyList hclose
    · exact reads_elements (reads_mul_of_dropSpace blanks_mul_elements_le (helements _ _ h))
  · split at h
    · rename_i hclose
      cases h
      exact reads_emptyObject hclose
    · exact reads_members (reads_mul_of_dropSpace blanks_mul_members_le (hmembers _ _ h))
  · exact (reads_skipNumber h).mono fun _ h => .number h

theorem passes_skipElements {fuel : Nat}
    (hvalue : Passes (skipValue fuel) (blanks * derived .value))
    (helements : Passes (skipElements fuel) (derived .elements * letter ']')) :
    Passes (skipElements (fuel + 1)) (derived .elements * letter ']') := by
  intro t rest h
  rw [skipElements] at h
  split at h
  · cases h
  · rename_i u hu
    split at h
    · rename_i v hcomma
      exact reads_moreElements (hvalue _ _ hu) hcomma (helements _ _ h)
    · rename_i v hclose
      cases h
      exact reads_lastElement (hvalue _ _ hu) hclose
    · cases h

/-- The name in front of a colon. -/
theorem reads_name {name t v : Text} (ht : dropSpace t = '"' :: name)
    (hv : (skipString name).map dropSpace = some (':' :: v)) :
    ∃ u, Reads (blanks * anyString) t u ∧ dropSpace u = ':' :: v := by
  obtain ⟨u, hu, hcolon⟩ := Option.map_eq_some_iff.1 hv
  exact ⟨u, reads_of_dropSpace ht (reads_anyString (reads_skipString hu)), hcolon⟩

theorem passes_skipMembers {fuel : Nat}
    (hvalue : Passes (skipValue fuel) (blanks * derived .value))
    (hmembers : Passes (skipMembers fuel) (derived .members * letter '\x7d')) :
    Passes (skipMembers (fuel + 1)) (derived .members * letter '\x7d') := by
  intro t rest h
  rw [skipMembers] at h
  split at h
  · rename_i name hname
    split at h
    · rename_i v hv
      obtain ⟨u, hkey, hcolon⟩ := reads_name hname hv
      split at h
      · cases h
      · rename_i w hw
        split at h
        · rename_i more hcomma
          exact reads_moreMembers (reads_member hkey hcolon (hvalue _ _ hw) hcomma)
            (hmembers _ _ h)
        · rename_i hclose
          cases h
          exact reads_lastMember (reads_member hkey hcolon (hvalue _ _ hw) hclose)
        · cases h
    · cases h
  · cases h

/-- What is passed over is a value, the elements of a list or the members of an object. -/
theorem passes_skip (fuel : Nat) :
    Passes (skipValue fuel) (blanks * derived .value) ∧
    Passes (skipElements fuel) (derived .elements * letter ']') ∧
    Passes (skipMembers fuel) (derived .members * letter '\x7d') := by
  induction fuel with
  | zero => exact ⟨nofun, nofun, nofun⟩
  | succ fuel ih =>
    obtain ⟨hvalue, helements, hmembers⟩ := ih
    exact ⟨passes_skipValue helements hmembers, passes_skipElements hvalue helements,
      passes_skipMembers hvalue hmembers⟩

end Json

end PocketCalc
