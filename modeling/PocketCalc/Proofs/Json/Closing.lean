import PocketCalc.Proofs.Json.Grammar

/-!
# Where a bracket closes

The bracket at which a list or an object ends is found by counting brackets, with those in strings
left out. What the grammar derives has an equal number of both kinds and leaves the count as it was,
so a value that begins with a bracket ends where that one closes: no such value is a proper
beginning of another.

* `balanced_of_derives`: what the grammar derives leaves the count as it is.
* `append_inj_of_derives`: two lists that begin the same text are the same.
* `eq_of_beginning`, `mem_blanks_of_derives`: so a list that was cut short is no text of JSON, and
  with more behind it only where that is blank.
-/

namespace PocketCalc

namespace Json

open Computability

/-- Where a reader of a text stands. -/
inductive Place where
  | plain
  /-- In a string. -/
  | quoted
  /-- Behind a backslash in a string. -/
  | escaped

/-- The text behind the bracket that closes one more than are opened, with some open already. -/
def behind : Nat → Place → Text → Option Text
  | _, _, [] => none
  | n, .plain, c :: t =>
    if c = '"' then behind n .quoted t
    else if c = '[' ∨ c = '\x7b' then behind (n + 1) .plain t
    else if c = ']' ∨ c = '\x7d' then
      match n with
      | 0 => some t
      | n + 1 => behind n .plain t
    else behind n .plain t
  | n, .quoted, c :: t =>
    if c = '"' then behind n .plain t
    else if c = '\\' then behind n .escaped t
    else behind n .quoted t
  | n, .escaped, _ :: t => behind n .quoted t

/-- A text that leaves the count as it is. -/
def Balanced (t : Text) : Prop := ∀ n x, behind n .plain (t ++ x) = behind n .plain x

namespace Balanced

theorem append {t u : Text} (ht : Balanced t) (hu : Balanced u) : Balanced (t ++ u) := by
  intro n x
  rw [List.append_assoc, ht, hu]

/-- A text without brackets and quotes. -/
theorem of_ordinary {t : Text} (h : ∀ c ∈ t, c ∉ "\"[]\x7b\x7d".toList) : Balanced t := by
  intro n x
  induction t with
  | nil => rfl
  | cons c t ih =>
    have hc : c ≠ '"' ∧ c ≠ '[' ∧ c ≠ ']' ∧ c ≠ '\x7b' ∧ c ≠ '\x7d' := by simpa using h c (by simp)
    obtain ⟨h₁, h₂, h₃, h₄, h₅⟩ := hc
    rw [← ih fun d hd => h d (List.mem_cons_of_mem _ hd)]
    simp [behind, h₁, h₂, h₃, h₄, h₅]

theorem cons {c : Char} {t : Text} (hc : c ∉ "\"[]\x7b\x7d".toList) (ht : Balanced t) :
    Balanced (c :: t) :=
  append (t := [c]) (of_ordinary fun d hd => by rwa [List.mem_singleton.1 hd]) ht

theorem list {t : Text} (h : Balanced t) : Balanced ('[' :: t ++ [']']) := by
  intro n x
  rw [List.append_assoc]
  exact h (n + 1) (']' :: x)

theorem object {t : Text} (h : Balanced t) : Balanced ('\x7b' :: t ++ ['\x7d']) := by
  intro n x
  rw [List.append_assoc]
  exact h (n + 1) ('\x7d' :: x)

end Balanced

theorem balanced_of_mem_blanks {b : Text} (h : b ∈ blanks) : Balanced b := by
  refine .of_ordinary fun c hc => ?_
  rcases h c hc with rfl | rfl | rfl | rfl <;> decide

/-! ## Strings -/

theorem IsHex.ordinary {c : Char} {n : Nat} (h : IsHex c n) : c ≠ '"' ∧ c ≠ '\\' := by
  obtain ⟨hn, h⟩ := h
  have key : ∀ n < 16, (Nat.digitChar n ≠ '"' ∧ Nat.digitChar n ≠ '\\') ∧
      (Nat.digitChar n).toUpper ≠ '"' ∧ (Nat.digitChar n).toUpper ≠ '\\' := by decide
  rcases h with rfl | rfl
  · exact (key n hn).1
  · exact (key n hn).2

theorem behind_piece {t : Text} (h : Piece t) (n : Nat) (x : Text) :
    behind n .quoted (t ++ x) = behind n .quoted x := by
  rcases h with ⟨hquote, hslash, -⟩ | - | ⟨ha, hb, hc, hd⟩
  · simp [behind, hquote, hslash]
  · simp [behind]
  · simp [behind, ha.ordinary, hb.ordinary, hc.ordinary, hd.ordinary]

theorem behind_pieces {t : Text} (h : t ∈ pieces∗) (n : Nat) (x : Text) :
    behind n .quoted (t ++ x) = behind n .quoted x := by
  obtain ⟨ts, rfl, hts⟩ := Language.mem_kstar.1 h
  clear h
  induction ts with
  | nil => rfl
  | cons t ts ih =>
    rw [List.flatten_cons, List.append_assoc, behind_piece (hts t (by simp)),
      ih fun u hu => hts u (List.mem_cons_of_mem _ hu)]

theorem balanced_of_mem_anyString {t : Text} (h : t ∈ anyString) : Balanced t := by
  obtain ⟨_, ⟨_, rfl, u, hu, rfl⟩, _, rfl, rfl⟩ := h
  intro n x
  have : behind n .quoted (u ++ '"' :: x) = behind n .quoted ('"' :: x) := behind_pieces hu n _
  simpa [behind] using this

/-! ## Numbers and words -/

theorem isDigit_ordinary {c : Char} (h : c.isDigit = true) : c ∉ "\"[]\x7b\x7d".toList := by
  intro hc
  have : c = '"' ∨ c = '[' ∨ c = ']' ∨ c = '\x7b' ∨ c = '\x7d' := by simpa using hc
  rcases this with rfl | rfl | rfl | rfl | rfl <;> cases h

/-- The languages whose texts have neither brackets nor quotes. -/
def ordinary : Language Char := {t | ∀ c ∈ t, c ∉ "\"[]\x7b\x7d".toList}

theorem mul_le_ordinary {l m : Language Char} (hl : l ≤ ordinary) (hm : m ≤ ordinary) :
    l * m ≤ ordinary := by
  rintro _ ⟨t, ht, u, hu, rfl⟩ c hc
  exact (List.mem_append.1 hc).elim (hl ht c) (hm hu c)

theorem add_le_ordinary {l m : Language Char} (hl : l ≤ ordinary) (hm : m ≤ ordinary) :
    l + m ≤ ordinary := sup_le hl hm

theorem one_le_ordinary : (1 : Language Char) ≤ ordinary := by
  rintro t rfl c hc
  cases hc

theorem letter_le_ordinary {c : Char} (h : c ∉ "\"[]\x7b\x7d".toList) : letter c ≤ ordinary := by
  rintro t rfl d hd
  rwa [List.mem_singleton.1 hd]

theorem digits_le_ordinary : digits ≤ ordinary := fun _ ht c hc => isDigit_ordinary (ht.2 c hc)

theorem number_le_ordinary : number ≤ ordinary := by
  have hsignificant : significant ≤ ordinary := fun _ ht => digits_le_ordinary ht.1
  refine mul_le_ordinary (mul_le_ordinary (mul_le_ordinary ?_ ?_) ?_) ?_
  · exact add_le_ordinary one_le_ordinary (letter_le_ordinary (by decide))
  · exact add_le_ordinary (letter_le_ordinary (by decide)) hsignificant
  · exact add_le_ordinary one_le_ordinary
      (mul_le_ordinary (letter_le_ordinary (by decide)) digits_le_ordinary)
  · refine add_le_ordinary one_le_ordinary (mul_le_ordinary (mul_le_ordinary ?_ ?_) ?_)
    · exact add_le_ordinary (letter_le_ordinary (by decide)) (letter_le_ordinary (by decide))
    · exact add_le_ordinary (add_le_ordinary one_le_ordinary (letter_le_ordinary (by decide)))
        (letter_le_ordinary (by decide))
    · exact digits_le_ordinary

theorem word_mem_ordinary {t : Text}
    (h : t ∈ ["null".toList, "true".toList, "false".toList]) : t ∈ ordinary := by
  have hall : ["null".toList, "true".toList, "false".toList].all
      (fun t => t.all fun c => c ∉ "\"[]\x7b\x7d".toList) = true := by decide
  intro c hc
  exact of_decide_eq_true (List.all_eq_true.1 (List.all_eq_true.1 hall t h) c hc)

/-! ## Values -/

/-- What the grammar derives leaves the count as it is. -/
theorem balanced_of_derives {s : Symbol} {t : Text} (h : Derives s t) : Balanced t := by
  have hcomma : ',' ∉ "\"[]\x7b\x7d".toList := by decide
  have hcolon : ':' ∉ "\"[]\x7b\x7d".toList := by decide
  induction h with
  | word h => exact .of_ordinary (word_mem_ordinary h)
  | number h => exact .of_ordinary (number_le_ordinary h)
  | string h => exact balanced_of_mem_anyString h
  | emptyList h => exact (balanced_of_mem_blanks h).list
  | list _ ih => exact ih.list
  | emptyObject h => exact (balanced_of_mem_blanks h).object
  | object _ ih => exact ih.object
  | element ha _ hb ih =>
    exact ((balanced_of_mem_blanks ha).append ih).append (balanced_of_mem_blanks hb)
  | lastElement _ ih => exact ih
  | moreElements _ _ iht ihu => exact iht.append (ihu.cons hcomma)
  | member ha hs hb _ ih =>
    exact (((balanced_of_mem_blanks ha).append (balanced_of_mem_anyString hs)).append
      (balanced_of_mem_blanks hb)).append (ih.cons hcolon)
  | lastMember _ ih => exact ih
  | moreMembers _ _ iht ihu => exact iht.append (ihu.cons hcomma)

theorem not_mem_ordinary {c : Char} {t : Text} (h : c ∈ "\"[]\x7b\x7d".toList) :
    c :: t ∉ ordinary := fun ht => ht c (by simp) h

/-- A value that begins with a bracket is balanced up to its end, where that bracket closes. -/
theorem exists_balanced_of_derives {t : Text} (h : Derives .value ('[' :: t)) :
    ∃ u, t = u ++ [']'] ∧ Balanced u := by
  have hbracket : '[' ∈ "\"[]\x7b\x7d".toList := by decide
  generalize hv : '[' :: t = v at h
  cases h with
  | word h => exact absurd (word_mem_ordinary (hv ▸ h)) (not_mem_ordinary hbracket)
  | number h => exact absurd (number_le_ordinary (hv ▸ h)) (not_mem_ordinary hbracket)
  | string h =>
    obtain ⟨_, ⟨_, rfl, _, -, rfl⟩, _, rfl, rfl⟩ := h
    cases hv
  | emptyList h =>
    cases hv
    exact ⟨_, rfl, balanced_of_mem_blanks h⟩
  | list h =>
    cases hv
    exact ⟨_, rfl, balanced_of_derives h⟩
  | emptyObject => cases hv
  | object => cases hv

/-- The text behind a list is the same, however the list is taken apart. -/
theorem append_inj_of_derives {t u x y : Text} (ht : Derives .value ('[' :: t))
    (hu : Derives .value ('[' :: u)) (h : t ++ x = u ++ y) : t = u ∧ x = y := by
  have hend {t : Text} (ht : Derives .value ('[' :: t)) (x : Text) :
      behind 0 .plain (t ++ x) = some x := by
    obtain ⟨v, rfl, hv⟩ := exists_balanced_of_derives ht
    rw [List.append_assoc, hv]
    rfl
  have hxy : x = y := Option.some.inj <| calc
    some x = behind 0 .plain (t ++ x) := (hend ht x).symm
    _ = behind 0 .plain (u ++ y) := by rw [h]
    _ = some y := hend hu y
  subst hxy
  exact ⟨List.append_cancel_right h, rfl⟩

/-- A text of JSON that begins with the bracket of a list is a list with blanks behind it. -/
theorem exists_list_of_derives {t : Text} (h : Derives .element ('[' :: t)) :
    ∃ u b, t = u ++ b ∧ Derives .value ('[' :: u) ∧ b ∈ blanks := by
  have hbracket : '[' ∉ space := by rintro (h | h | h | h) <;> cases h
  generalize hv : '[' :: t = v at h
  cases h with
  | @element a u b ha hu hb =>
    match a, u with
    | c :: a, u =>
      obtain ⟨rfl, -⟩ := List.cons.inj hv
      exact absurd (ha _ (by simp)) hbracket
    | [], [] =>
      obtain rfl : '[' :: t = b := hv
      exact absurd (hb _ (by simp)) hbracket
    | [], c :: u =>
      obtain ⟨rfl, rfl⟩ := List.cons.inj hv
      exact ⟨u, b, rfl, hu, hb⟩

/-- Behind a list only blanks make a text of JSON. -/
theorem mem_blanks_of_derives {t x : Text} (ht : Derives .value ('[' :: t))
    (h : Derives .element ('[' :: t ++ x)) : x ∈ blanks := by
  obtain ⟨u, b, htu, hu, hb⟩ := exists_list_of_derives h
  obtain ⟨-, rfl⟩ := append_inj_of_derives ht hu htu
  exact hb

theorem nil_not_mem_number : [] ∉ number := by
  rintro ⟨_, ⟨_, ⟨a, -, w, hw, rfl⟩, b, -, rfl⟩, c, -, h⟩
  have hnil : w = [] := by simp_all
  subst hnil
  rcases hw with h | ⟨⟨h, -⟩, -⟩
  · cases h
  · exact h rfl

theorem not_derives_nil : ¬ Derives .element [] := by
  intro h
  generalize hv : ([] : Text) = v at h
  cases h with
  | @element a u b ha hu hb =>
    have hnil : u = [] := by simp_all
    subst hnil
    generalize hw : ([] : Text) = w at hu
    cases hu with
    | word h =>
      subst hw
      simp at h
    | number h => exact nil_not_mem_number (hw ▸ h)
    | string h =>
      obtain ⟨_, ⟨_, rfl, _, -, rfl⟩, _, rfl, rfl⟩ := h
      cases hw
    | _ => cases hw

/-- Of a list no part is a text of JSON but the whole. -/
theorem eq_of_beginning {p t : Text} (ht : Derives .value ('[' :: t))
    (hp : Derives .element p) (h : p <+: '[' :: t) : p = '[' :: t := by
  obtain ⟨x, hx⟩ := h
  cases p with
  | nil => exact absurd hp not_derives_nil
  | cons c p =>
    obtain ⟨rfl, rfl⟩ := List.cons.inj hx
    obtain ⟨u, b, rfl, hu, hb⟩ := exists_list_of_derives hp
    have hrest : u ++ b ++ x ++ [] = u ++ (b ++ x) := by simp
    obtain ⟨-, hnil⟩ := append_inj_of_derives ht hu hrest
    obtain ⟨-, rfl⟩ := List.append_eq_nil_iff.1 hnil.symm
    simp

end Json

end PocketCalc
