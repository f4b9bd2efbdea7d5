import Mathlib.Algebra.Order.Kleene
import Mathlib.Computability.Language
import Mathlib.Order.CompletePartialOrder
import PocketCalc.History.Basic

/-!
# The grammar of JSON

The texts of JSON by the productions of its standard, and among them the texts of a list of entries:
a list of objects with the two strings `expression` and `result`. Blanks may stand between any two
parts of a text, and a string may spell each of its characters in several ways.

* `Derives`: the productions; a text of JSON is an `element`.
* `Spells`, `string`: the ways to write a character and a string.
* `entries`: the texts of a list of entries, given what may stand between their parts.
* `derives_of_mem_entries`: they are texts of JSON.
-/

namespace PocketCalc

namespace Json

open Computability

/-- The text of one character. -/
def letter (c : Char) : Language Char := {[c]}

/-! ## Blanks -/

/-- The blanks. -/
def space : Set Char := {' ', '\n', '\t', '\r'}

/-- The rows of blanks. -/
def blanks : Language Char := {t | ∀ c ∈ t, c ∈ space}

theorem nil_mem_blanks : [] ∈ blanks := by
  intro c hc
  cases hc

theorem one_le_blanks : (1 : Language Char) ≤ blanks := by
  rintro t rfl
  exact nil_mem_blanks

/-! ## Strings -/

/-- The characters that stand for themselves in a string. -/
def plain : Set Char := {c | c ≠ '"' ∧ c ≠ '\\' ∧ 32 ≤ c.toNat}

/-- The signs that stand behind a backslash, each with the character that they spell. -/
def shortEscapes : List (Char × Char) :=
  [('"', '"'), ('\\', '\\'), ('/', '/'), ('b', '\x08'), ('f', '\x0c'), ('n', '\n'), ('r', '\r'),
    ('t', '\t')]

/-- A hexadecimal digit, in either case, has a value. -/
def IsHex (c : Char) (n : Nat) : Prop :=
  n < 16 ∧ (c = Nat.digitChar n ∨ c = (Nat.digitChar n).toUpper)

/-- An escape by a number of four hexadecimal digits. -/
inductive Code : Nat → Text → Prop
  | digits {a b c d : Char} {i j k l : Nat} (ha : IsHex a i) (hb : IsHex b j) (hc : IsHex c k)
      (hd : IsHex d l) : Code (((i * 16 + j) * 16 + k) * 16 + l) ['\\', 'u', a, b, c, d]

/-- The ways to write a character in a string. -/
inductive Spells : Char → Text → Prop
  | plain {c : Char} (h : c ∈ plain) : Spells c [c]
  | short {c x : Char} (h : (x, c) ∈ shortEscapes) : Spells c ['\\', x]
  | code {c : Char} {t : Text} (h : Code c.toNat t) : Spells c t
  /-- A character beyond the first plane, by a high and a low surrogate. -/
  | pair {c : Char} {high low : Nat} {t u : Text} (ht : Code (0xD800 + high) t)
      (hu : Code (0xDC00 + low) u) (hhigh : high < 0x400) (hlow : low < 0x400)
      (hc : c.toNat = 0x10000 + high * 0x400 + low) : Spells c (t ++ u)

/-- The ways to write a character, as a language. -/
def spellings (c : Char) : Language Char := {t | Spells c t}

/-- The ways to write the characters of a string. -/
def characters (s : Text) : Language Char := (s.map spellings).prod

/-- The ways to write a string. -/
def string (s : Text) : Language Char := letter '"' * characters s * letter '"'

/-- A part of a string, whether it spells a character or half of a pair. -/
inductive Piece : Text → Prop
  | plain {c : Char} (h : c ∈ plain) : Piece [c]
  | short {c x : Char} (h : (x, c) ∈ shortEscapes) : Piece ['\\', x]
  | code {n : Nat} {t : Text} (h : Code n t) : Piece t

/-- The parts of strings, as a language. -/
def pieces : Language Char := {t | Piece t}

/-- The strings: all their parts are well formed. -/
def anyString : Language Char := letter '"' * pieces∗ * letter '"'

theorem spellings_le (c : Char) : spellings c ≤ pieces∗ := by
  have one {t : Text} (ht : Piece t) : t ∈ pieces∗ := le_kstar (a := pieces) ht
  rintro t (h | h | h | ⟨ht, hu, -, -, -⟩)
  · exact one (.plain h)
  · exact one (.short h)
  · exact one (.code h)
  · rw [← kstar_mul_kstar]
    exact Language.append_mem_mul (one (.code ht)) (one (.code hu))

theorem characters_le (s : Text) : characters s ≤ pieces∗ := by
  unfold characters
  induction s with
  | nil => exact one_le_kstar
  | cons c s ih =>
    calc spellings c * (s.map spellings).prod
      _ ≤ pieces∗ * pieces∗ := mul_le_mul' (spellings_le c) ih
      _ = pieces∗ := kstar_mul_kstar pieces

theorem string_le (s : Text) : string s ≤ anyString := by
  unfold string anyString
  gcongr
  exact characters_le s

/-! ## Numbers -/

/-- The rows of digits. -/
def digits : Language Char := {t | t ≠ [] ∧ ∀ c ∈ t, c.isDigit = true}

/-- The rows of digits with no zero in front. -/
def significant : Language Char := {t | t ∈ digits ∧ t.head? ≠ some '0'}

/-- The numbers. -/
def number : Language Char :=
  (1 + letter '-') * (letter '0' + significant) *
    (1 + letter '.' * digits) *
    (1 + (letter 'e' + letter 'E') * (1 + letter '+' + letter '-') * digits)

/-! ## Values -/

/-- What the productions derive. -/
inductive Symbol where
  | value
  /-- A value with blanks around it. -/
  | element
  | elements
  | member
  | members

/-- The productions. -/
inductive Derives : Symbol → Text → Prop
  | word {t : Text} (h : t ∈ ["null".toList, "true".toList, "false".toList]) : Derives .value t
  | number {t : Text} (h : t ∈ number) : Derives .value t
  | string {t : Text} (h : t ∈ anyString) : Derives .value t
  | emptyList {b : Text} (h : b ∈ blanks) : Derives .value ('[' :: b ++ [']'])
  | list {t : Text} (h : Derives .elements t) : Derives .value ('[' :: t ++ [']'])
  | emptyObject {b : Text} (h : b ∈ blanks) : Derives .value ('\x7b' :: b ++ ['\x7d'])
  | object {t : Text} (h : Derives .members t) : Derives .value ('\x7b' :: t ++ ['\x7d'])
  | element {a t b : Text} (ha : a ∈ blanks) (ht : Derives .value t) (hb : b ∈ blanks) :
      Derives .element (a ++ t ++ b)
  | lastElement {t : Text} (h : Derives .element t) : Derives .elements t
  | moreElements {t u : Text} (ht : Derives .element t) (hu : Derives .elements u) :
      Derives .elements (t ++ ',' :: u)
  | member {a s b t : Text} (ha : a ∈ blanks) (hs : s ∈ anyString) (hb : b ∈ blanks)
      (ht : Derives .element t) : Derives .member (a ++ s ++ b ++ ':' :: t)
  | lastMember {t : Text} (h : Derives .member t) : Derives .members t
  | moreMembers {t u : Text} (ht : Derives .member t) (hu : Derives .members u) :
      Derives .members (t ++ ',' :: u)

/-! ## Lists of entries -/

section Entries

variable (gap : Language Char)

/-- The texts of a member with a string. -/
def member (name s : Text) : Language Char :=
  gap * string name * gap * letter ':' * (gap * string s * gap)

/-- The texts of an entry. -/
def entry (e : Entry) : Language Char :=
  letter '\x7b' * (member gap "expression".toList e.expression * letter ',' *
    member gap "result".toList e.result) * letter '\x7d'

/-- The texts of entries with commas between them. -/
def listed : List Entry → Language Char
  | [] => gap
  | [e] => gap * entry gap e * gap
  | e :: l => gap * entry gap e * gap * letter ',' * listed l

/-- The texts of a list of entries. -/
def entries (l : List Entry) : Language Char := letter '[' * listed gap l * letter ']'

end Entries

variable {gap wide : Language Char}

theorem member_mono (h : gap ≤ wide) (name s : Text) : member gap name s ≤ member wide name s := by
  unfold member
  gcongr

theorem entry_mono (h : gap ≤ wide) (e : Entry) : entry gap e ≤ entry wide e := by
  unfold entry
  gcongr <;> exact member_mono h _ _

theorem listed_mono (h : gap ≤ wide) (l : List Entry) : listed gap l ≤ listed wide l := by
  fun_induction listed gap l with
  | case1 => exact h
  | case2 e =>
    unfold listed
    gcongr
    exact entry_mono h e
  | case3 e l hl ih =>
    rw [listed.eq_3 wide e l hl]
    gcongr
    exact entry_mono h e

/-- What is written with less between its parts is a text of the same list. -/
theorem entries_mono (h : gap ≤ wide) (l : List Entry) : entries gap l ≤ entries wide l := by
  unfold entries
  gcongr
  exact listed_mono h l

/-! ## Lists of entries are texts of JSON -/

theorem derives_of_mem_member {name s t : Text} (h : t ∈ member blanks name s) :
    Derives .member t := by
  obtain ⟨_, ⟨_, ⟨_, ⟨a, ha, n, hn, rfl⟩, b, hb, rfl⟩, _, rfl, rfl⟩, _,
    ⟨_, ⟨a', ha', v, hv, rfl⟩, b', hb', rfl⟩, rfl⟩ := h
  have := Derives.member ha (string_le name hn) hb (.element ha' (.string (string_le s hv)) hb')
  simpa using this

theorem derives_of_mem_entry {e : Entry} {t : Text} (h : t ∈ entry blanks e) :
    Derives .value t := by
  obtain ⟨_, ⟨_, rfl, _, ⟨_, ⟨x, hx, _, rfl, rfl⟩, y, hy, rfl⟩, rfl⟩, _, rfl, rfl⟩ := h
  have := Derives.object
    (.moreMembers (derives_of_mem_member hx) (.lastMember (derives_of_mem_member hy)))
  simpa using this

theorem derives_of_mem_listed {l : List Entry} (hl : l ≠ []) {t : Text} (h : t ∈ listed blanks l) :
    Derives .elements t := by
  have hentry {e : Entry} {t : Text} (ht : t ∈ blanks * entry blanks e * blanks) :
      Derives .element t := by
    obtain ⟨_, ⟨a, ha, v, hv, rfl⟩, b, hb, rfl⟩ := ht
    exact .element ha (derives_of_mem_entry hv) hb
  fun_induction listed blanks l generalizing t with
  | case1 => exact absurd rfl hl
  | case2 e => exact .lastElement (hentry h)
  | case3 e l hne ih =>
    obtain ⟨_, ⟨x, hx, _, rfl, rfl⟩, y, hy, rfl⟩ := h
    have := Derives.moreElements (hentry hx) (ih (fun hl => hne hl) hy)
    simpa using this

/-- A text of a list of entries is a text of JSON. -/
theorem derives_of_mem_entries {l : List Entry} {t : Text} (h : t ∈ entries blanks l) :
    Derives .value t := by
  obtain ⟨_, ⟨_, rfl, u, hu, rfl⟩, _, rfl, rfl⟩ := h
  cases l with
  | nil => exact Derives.emptyList hu
  | cons e l => exact Derives.list (derives_of_mem_listed (List.cons_ne_nil e l) hu)

end Json

end PocketCalc
