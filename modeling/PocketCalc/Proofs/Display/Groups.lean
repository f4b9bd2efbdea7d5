import PocketCalc.Proofs.Display.Number

/-!
# Groups of digits

A row of digits falls into groups of three, counted from its end, and a first group of what is left.
One more digit in front goes to the first group, or begins a new one where the first group is full.
This is also when `groupDigits` puts a comma behind it, so what it writes is the groups with a comma
in front of each but the first. Nothing else in a text is changed.

* `Groups.cons`, `exists_groups`: the step for one digit, and from it the groups of any row.
* `filter_group`: without the commas it is the text again.
* `takeWhile_groupUnsigned`, `dropWhile_groupUnsigned`, `head?_group`: where the parts of a text stand
  once it is grouped; so `group_injective` holds of all texts, also of those with commas of their own.
* `group_faithful`: all of it for a number without an exponent.
-/

namespace PocketCalc

namespace Display

open Computability

/-! ## Groups -/

/-- The groups of a row of digits: one of at most three in front, and groups of three. -/
structure Groups where
  first : Text
  rest : List Text
  first_ne_nil : first ≠ []
  length_first : first.length ≤ 3
  length_rest : ∀ ds ∈ rest, ds.length = 3

namespace Groups

variable (g : Groups)

/-- The row of digits itself. -/
def digits : Text := g.first ++ g.rest.flatten

/-- The row with a comma in front of each group but the first. -/
def text : Text := g.first ++ g.rest.flatMap (',' :: ·)

theorem length_digits : g.digits.length = g.first.length + 3 * g.rest.length := by
  have hrest : (g.rest.map List.length).sum = g.rest.length * 3 := by
    simpa using List.sum_eq_card_nsmul (g.rest.map List.length) 3 (by simpa using g.length_rest)
  rw [digits, List.length_append, List.length_flatten, hrest, Nat.mul_comm]

theorem digits_ne_nil : g.digits ≠ [] := List.append_ne_nil_of_left_ne_nil g.first_ne_nil _

/-- The first digit stays in front. -/
theorem head?_text : g.text.head? = g.digits.head? := by
  rw [text, digits, List.head?_append_of_ne_nil _ g.first_ne_nil,
    List.head?_append_of_ne_nil _ g.first_ne_nil]

/-- The last digit stays at the end. -/
theorem getLast?_text : g.text.getLast? = g.digits.getLast? := by
  have hrest := g.length_rest
  rcases List.eq_nil_or_concat' g.rest with h | ⟨front, ds, h⟩
  · simp [text, digits, h]
  · have hds : ds ≠ [] := by
      rintro rfl
      simpa using hrest [] (by simp [h])
    have htext : g.text = g.first ++ front.flatMap (',' :: ·) ++ [','] ++ ds := by simp [text, h]
    have hdigits : g.digits = g.first ++ front.flatten ++ ds := by simp [digits, h]
    rw [htext, hdigits, List.getLast?_append_of_ne_nil _ hds, List.getLast?_append_of_ne_nil _ hds]

/-- There is no room in the first group where all groups have three digits. -/
theorem length_digits_mod_eq_zero_iff : g.digits.length % 3 = 0 ↔ g.first.length = 3 := by
  have hpos := List.length_pos_iff.2 g.first_ne_nil
  have hle := g.length_first
  rw [g.length_digits]
  omega

/-- The groups of the row with one more digit in front. -/
def cons (d : Char) : Groups :=
  if h : g.first.length = 3 then
    { first := [d]
      rest := g.first :: g.rest
      first_ne_nil := by simp
      length_first := by simp
      length_rest := List.forall_mem_cons.2 ⟨h, g.length_rest⟩ }
  else
    { first := d :: g.first
      rest := g.rest
      first_ne_nil := by simp
      length_first := Nat.lt_of_le_of_ne g.length_first h
      length_rest := g.length_rest }

theorem digits_cons (d : Char) : (g.cons d).digits = d :: g.digits := by
  unfold cons digits
  split <;> simp

theorem text_cons (d : Char) : (g.cons d).text =
    if g.digits.length % 3 = 0 then d :: ',' :: g.text else d :: g.text := by
  simp only [length_digits_mod_eq_zero_iff]
  unfold cons text
  split <;> simp

end Groups

/-- Any row of digits has its groups, and they are what is written. -/
theorem exists_groups {ds : Text} (hne : ds ≠ []) :
    ∃ g : Groups, g.digits = ds ∧ groupDigits ds = g.text := by
  induction ds with
  | nil => exact absurd rfl hne
  | cons d ds ih =>
    by_cases hds : ds = []
    · subst hds
      exact ⟨⟨[d], [], by simp, by simp, by simp⟩, rfl, rfl⟩
    · obtain ⟨g, rfl, htext⟩ := ih hds
      exact ⟨g.cons d, g.digits_cons d, by rw [groupDigits_cons d hds, g.text_cons, htext]⟩

/-! ## Rows that are grouped alike -/

theorem length_groupDigits (ds : Text) :
    (groupDigits ds).length = ds.length + (ds.length - 1) / 3 := by
  induction ds with
  | nil => rfl
  | cons d ds ih =>
    by_cases hds : ds = []
    · subst hds
      simp [groupDigits]
    · have hpos := List.length_pos_iff.2 hds
      rw [groupDigits_cons d hds]
      split
      · simp only [List.length_cons, ih]
        omega
      · simp only [List.length_cons, ih]
        omega

/-- The length of what is written tells the length of the row, and that tells where its commas
stand. -/
theorem groupDigits_injective : Function.Injective groupDigits := by
  intro ds es h
  have hlen : ds.length = es.length := by
    have := congrArg List.length h
    rw [length_groupDigits, length_groupDigits] at this
    omega
  induction ds generalizing es with
  | nil => exact (List.length_eq_zero_iff.1 hlen.symm).symm
  | cons d ds ih =>
    obtain ⟨e, es, rfl⟩ := List.exists_cons_of_length_eq_add_one hlen.symm
    have hrest : ds.length = es.length := Nat.succ.inj hlen
    by_cases hds : ds = []
    · subst hds
      obtain rfl := List.length_eq_zero_iff.1 hrest.symm
      exact h
    · have hes : es ≠ [] := by
        rintro rfl
        exact hds (List.length_eq_zero_iff.1 hrest)
      -- Of the same length, both rows have a comma here or neither has one.
      rw [groupDigits_cons d hds, groupDigits_cons e hes, hrest] at h
      split at h
      · obtain ⟨rfl, htail⟩ := List.cons.inj h
        rw [ih (List.cons.inj htail).2 hrest]
      · obtain ⟨rfl, htail⟩ := List.cons.inj h
        rw [ih htail hrest]

/-! ## The other parts of a text -/

theorem ne_point_of_mem_groupDigits (t : Text) :
    ∀ c ∈ groupDigits (t.takeWhile (· != '.')), (c != '.') = true := by
  intro c hc
  rcases mem_groupDigits hc with hc | rfl
  · exact List.mem_takeWhile_imp (p := (· != '.')) hc
  · rfl

/-- What stands behind the whole part begins with a point, or there is nothing. -/
theorem takeWhile_dropWhile_point (t : Text) :
    (t.dropWhile (· != '.')).takeWhile (· != '.') = [] :=
  List.takeWhile_eq_nil_iff.2 fun hpos => List.dropWhile_get_zero_not _ _ hpos

theorem takeWhile_groupUnsigned (t : Text) :
    (group.groupUnsigned t).takeWhile (· != '.') = groupDigits (t.takeWhile (· != '.')) := by
  rw [group.groupUnsigned, List.takeWhile_append_of_pos (ne_point_of_mem_groupDigits t),
    takeWhile_dropWhile_point, List.append_nil]

/-- From the point on a text stays as it is. -/
theorem dropWhile_groupUnsigned (t : Text) :
    (group.groupUnsigned t).dropWhile (· != '.') = t.dropWhile (· != '.') := by
  rw [group.groupUnsigned, List.dropWhile_append_of_pos (ne_point_of_mem_groupDigits t),
    List.dropWhile_idempotent]

theorem groupUnsigned_injective : Function.Injective group.groupUnsigned := by
  intro s t h
  have hwhole : s.takeWhile (· != '.') = t.takeWhile (· != '.') := by
    refine groupDigits_injective ?_
    rw [← takeWhile_groupUnsigned, h, takeWhile_groupUnsigned]
  have hbehind : s.dropWhile (· != '.') = t.dropWhile (· != '.') := by
    rw [← dropWhile_groupUnsigned, h, dropWhile_groupUnsigned]
  calc s = s.takeWhile (· != '.') ++ s.dropWhile (· != '.') := List.takeWhile_append_dropWhile.symm
    _ = t.takeWhile (· != '.') ++ t.dropWhile (· != '.') := by rw [hwhole, hbehind]
    _ = t := List.takeWhile_append_dropWhile

theorem head?_groupUnsigned (t : Text) : (group.groupUnsigned t).head? = t.head? := by
  cases t with
  | nil => rfl
  | cons c t =>
    by_cases hc : c = '.'
    · subst hc
      rfl
    · obtain ⟨rest, hrest⟩ := exists_groupDigits_cons c (t.takeWhile (· != '.'))
      simp [group.groupUnsigned, hc, hrest]

/-! ## Signs -/

theorem group_of_ne {t : Text} (h : t.head? ≠ some '-') : group t = group.groupUnsigned t := by
  unfold group
  split
  · exact absurd rfl h
  · rfl

/-- A text keeps its sign. -/
theorem head?_group (t : Text) : (group t).head? = t.head? := by
  by_cases h : t.head? = some '-'
  · obtain ⟨t, rfl⟩ := List.head?_eq_some_iff.1 h
    rfl
  · rw [group_of_ne h, head?_groupUnsigned]

/-- Texts that are grouped alike are the same, whatever commas they have of their own. -/
theorem group_injective : Function.Injective group := by
  intro s t h
  have hhead : s.head? = t.head? := by rw [← head?_group, h, head?_group]
  by_cases hs : s.head? = some '-'
  · obtain ⟨s, rfl⟩ := List.head?_eq_some_iff.1 hs
    obtain ⟨t, rfl⟩ := List.head?_eq_some_iff.1 (hhead.symm.trans hs)
    rw [groupUnsigned_injective (List.cons.inj h).2]
  · have ht : t.head? ≠ some '-' := hhead ▸ hs
    rw [group_of_ne hs, group_of_ne ht] at h
    exact groupUnsigned_injective h

/-! ## Without the commas -/

theorem filter_groupUnsigned {t : Text} (h : ',' ∉ t) :
    (group.groupUnsigned t).filter (· != ',') = t := by
  have hwhole : (groupDigits (t.takeWhile (· != '.'))).filter (· != ',') =
      t.takeWhile (· != '.') :=
    filter_groupDigits fun c hc => ne_of_mem_of_not_mem ((List.takeWhile_prefix _).mem hc) h
  have hbehind : (t.dropWhile (· != '.')).filter (· != ',') = t.dropWhile (· != '.') :=
    List.filter_eq_self.2 fun c hc =>
      bne_iff_ne.2 (ne_of_mem_of_not_mem ((List.dropWhile_suffix _).mem hc) h)
  rw [group.groupUnsigned, List.filter_append, hwhole, hbehind, List.takeWhile_append_dropWhile]

/-- Without its commas a grouped text is the text again. -/
theorem filter_group {t : Text} (h : ',' ∉ t) : (group t).filter (· != ',') = t := by
  by_cases ht : t.head? = some '-'
  · obtain ⟨t, rfl⟩ := List.head?_eq_some_iff.1 ht
    have hfilter := filter_groupUnsigned (List.not_mem_of_not_mem_cons h)
    rw [group, List.filter_cons_of_pos (by decide), hfilter]
  · rw [group_of_ne ht, filter_groupUnsigned h]

/-! ## Numbers -/

/-- The numbers without an exponent, also with a bare point: `-? D+ ('.' D*)?`. -/
def positional : Language Char :=
  optional (letter '-') * (digit * digit∗) * optional (letter '.' * digit∗)

/-- Such a number with its whole digits in groups: `-? D D? D? (',' D D D)* ('.' D*)?`. -/
structure GroupedNumber where
  sign : Text
  whole : Groups
  /-- The point and the digits behind it. -/
  behind : Text
  sign_mem : sign ∈ optional (letter '-')
  isDigit : ∀ c ∈ whole.digits, c.isDigit = true
  behind_mem : behind ∈ optional (letter '.' * digit∗)

theorem mem_kstar_digit_iff {t : Text} : t ∈ digit∗ ↔ ∀ c ∈ t, c.isDigit = true := by
  refine ⟨fun h c hc => ?_, fun h => mem_kstar_of_forall fun c hc => singleton_mem_digit (h c hc)⟩
  obtain ⟨pieces, rfl, hpieces⟩ := Language.mem_kstar.1 h
  obtain ⟨piece, hpiece, hc⟩ := List.mem_flatten.1 hc
  obtain ⟨d, hd, rfl⟩ := hpieces piece hpiece
  rwa [List.mem_singleton.1 hc]

namespace GroupedNumber

variable (n : GroupedNumber)

/-- The number without commas. -/
def plain : Text := n.sign ++ n.whole.digits ++ n.behind

/-- The number as it is shown. -/
def text : Text := n.sign ++ n.whole.text ++ n.behind

theorem sign_eq : n.sign = [] ∨ n.sign = ['-'] := n.sign_mem

theorem behind_eq : n.behind = [] ∨
    ∃ fs : Text, n.behind = '.' :: fs ∧ ∀ c ∈ fs, c.isDigit = true := by
  rcases n.behind_mem with h | h
  · exact .inl h
  · obtain ⟨point, rfl, fs, hfs, hbehind⟩ := Language.mem_mul.1 h
    exact .inr ⟨fs, hbehind.symm, mem_kstar_digit_iff.1 hfs⟩

theorem comma_not_mem_sign : ',' ∉ n.sign := by
  rcases n.sign_eq with h | h
  · simp [h]
  · simp [h]

theorem comma_not_mem_digits : ',' ∉ n.whole.digits := Text.not_mem_of_digits n.isDigit rfl

theorem comma_not_mem_behind : ',' ∉ n.behind := by
  rcases n.behind_eq with h | ⟨fs, h, hfs⟩
  · simp [h]
  · have hcomma : ',' ∉ fs := Text.not_mem_of_digits hfs rfl
    simp [h, hcomma]

theorem comma_not_mem_plain : ',' ∉ n.plain := by
  simp [plain, n.comma_not_mem_sign, n.comma_not_mem_digits, n.comma_not_mem_behind]

/-- Only the whole digits are grouped. -/
theorem group_plain : group n.plain = n.sign ++ groupDigits n.whole.digits ++ n.behind := by
  have hbehind : n.behind = [] ∨ ∃ fs, n.behind = '.' :: fs :=
    n.behind_eq.imp_right fun ⟨fs, h, _⟩ => ⟨fs, h⟩
  have hgroup := fun negative => group_signed negative n.whole.digits_ne_nil n.isDigit n.behind
  rw [groupUnsigned_behind n.isDigit hbehind] at hgroup
  rcases n.sign_eq with h | h
  · rw [plain, h]
    exact hgroup false
  · rw [plain, h]
    exact hgroup true

end GroupedNumber

/-- A number falls into groups, and is shown with a comma in front of each but the first. -/
theorem exists_groupedNumber {b : Text} (hb : b ∈ positional) :
    ∃ n : GroupedNumber, n.plain = b ∧ group b = n.text := by
  obtain ⟨front, hfront, behind, hbehind, rfl⟩ := Language.mem_mul.1 hb
  obtain ⟨sign, hsign, ds, hds, rfl⟩ := Language.mem_mul.1 hfront
  obtain ⟨one, ⟨d, hd, rfl⟩, more, hmore, rfl⟩ := Language.mem_mul.1 hds
  obtain ⟨g, hg, htext⟩ := exists_groups (show [d] ++ more ≠ [] by simp)
  have hdigits : ∀ c ∈ g.digits, c.isDigit = true := by
    rw [hg]
    exact List.forall_mem_cons.2 ⟨hd, mem_kstar_digit_iff.1 hmore⟩
  let n : GroupedNumber := ⟨sign, g, behind, hsign, hdigits, hbehind⟩
  have hplain : n.plain = sign ++ ([d] ++ more) ++ behind := by rw [GroupedNumber.plain, hg]
  refine ⟨n, hplain, ?_⟩
  rw [← hplain, n.group_plain, hg, htext, GroupedNumber.text]

/-- A number of any length without an exponent keeps its sign and all from its point on, and its
whole digits get commas between groups of three and a first group of one to three. Deleting the
commas gives the number back, and no two texts are grouped alike. -/
theorem group_faithful :
    (∀ b ∈ positional, (group b).filter (· != ',') = b ∧ ∃ n : GroupedNumber,
      b = n.sign ++ n.whole.digits ++ n.behind ∧
      group b = n.sign ++ n.whole.text ++ n.behind ∧ ',' ∉ n.sign ∧ ',' ∉ n.behind ∧
      n.whole.text.head? ≠ some ',' ∧ n.whole.text.getLast? ≠ some ',') ∧
    Function.Injective group := by
  refine ⟨fun b hb => ?_, group_injective⟩
  obtain ⟨n, rfl, htext⟩ := exists_groupedNumber hb
  refine ⟨filter_group n.comma_not_mem_plain, n, rfl, htext, n.comma_not_mem_sign,
    n.comma_not_mem_behind, fun hhead => ?_, fun hlast => ?_⟩
  · rw [n.whole.head?_text] at hhead
    exact n.comma_not_mem_digits (List.mem_of_mem_head? hhead)
  · rw [n.whole.getLast?_text] at hlast
    exact n.comma_not_mem_digits (List.mem_of_mem_getLast? hlast)

/-- A negative number of seven digits and decimals. -/
theorem group_faithful_of_millions : "-1234567.25".toList ∈ positional ∧
    (group "-1234567.25".toList).filter (· != ',') = "-1234567.25".toList ∧
    ∃ n : GroupedNumber, "-1234567.25".toList = n.sign ++ n.whole.digits ++ n.behind ∧
      "-1,234,567.25".toList = n.sign ++ n.whole.text ++ n.behind ∧
      ',' ∉ n.sign ∧ ',' ∉ n.behind ∧
      n.whole.text.head? ≠ some ',' ∧ n.whole.text.getLast? ≠ some ',' := by
  have hsign : ['-'] ∈ optional (letter '-') := .inr rfl
  have hmore : "234567".toList ∈ digit∗ :=
    mem_kstar_digit_iff.2 (List.all_eq_true.1 (by decide +kernel))
  have hwhole : ['1'] ++ "234567".toList ∈ digit * digit∗ :=
    Language.append_mem_mul (singleton_mem_digit rfl) hmore
  have hplaces : "25".toList ∈ digit∗ :=
    mem_kstar_digit_iff.2 (List.all_eq_true.1 (by decide +kernel))
  have hbehind : ['.'] ++ "25".toList ∈ optional (letter '.' * digit∗) :=
    .inr (Language.append_mem_mul (show ['.'] ∈ letter '.' from rfl) hplaces)
  have hmem : "-1234567.25".toList ∈ positional :=
    Language.append_mem_mul (Language.append_mem_mul hsign hwhole) hbehind
  exact ⟨hmem, group_faithful.1 _ hmem⟩

end Display

end PocketCalc
