import PocketCalc.History.Json
import PocketCalc.Proofs.History.Lawful
import PocketCalc.Proofs.Json.Reading

/-!
# The program's own format is JSON

The reader of entries takes each text of a list of entries to the list, with blanks where they may
stand and in every spelling of the strings, and whatever it takes is a text of JSON. The writer puts
nothing between the parts.

* `Entry.ofJson?_of_mem`, `History.entries?_of_mem`: what the grammar has for an entry, and for a
  list of them, is read as that.
* `Entry.reads_ofJson?`, `History.derives_of_entries?`: what is read is derived by the grammar.
-/

namespace PocketCalc

open Json

/-! ## Reading what the grammar has -/

namespace Json

theorem dropSpace_append {b : Text} (hb : b ∈ blanks) (t : Text) :
    dropSpace (b ++ t) = dropSpace t :=
  List.dropWhile_append_of_pos fun c hc => isSpace_iff.2 (hb c hc)

theorem dropSpace_cons {c : Char} (hc : c ∉ space) (t : Text) : dropSpace (c :: t) = c :: t :=
  List.dropWhile_cons_of_neg fun h => hc (isSpace_iff.1 h)

theorem quote_not_mem_space : '"' ∉ space := by rintro (h | h | h | h) <;> cases h

end Json

namespace Entry

theorem after_append {b : Text} (hb : b ∈ blanks) (c : Char) (t : Text) :
    after c (b ++ t) = after c t := by
  rw [after, dropSpace_append hb, after]

theorem after_cons {c : Char} (hc : isSpace c = false) (t : Text) :
    after c (c :: t) = some t := by
  simp [after, dropSpace, hc]

theorem after_of_ne {c d : Char} (hd : isSpace d = false) (hne : d ≠ c) (t : Text) :
    after c (d :: t) = none := by
  simp [after, dropSpace, hd, hne]

theorem string?_of_mem {b s t : Text} (hb : b ∈ blanks) (ht : t ∈ string s) (x : Text) :
    string? (b ++ (t ++ x)) = some (s, x) := by
  obtain ⟨u, rfl⟩ : ∃ u, t = '"' :: u := by
    obtain ⟨_, ⟨_, rfl, u, -, rfl⟩, _, rfl, rfl⟩ := ht
    exact ⟨_, rfl⟩
  rw [string?, dropSpace_append hb, List.cons_append, dropSpace_cons quote_not_mem_space]
  exact readQuoted_of_mem ht x

theorem after_congr {t u : Text} (h : dropSpace t = dropSpace u) (c : Char) :
    after c t = after c u := by
  rw [after, h, after]

/-- The parts of a member: its name, its string, and what is behind it up to blanks. -/
theorem exists_of_mem_member {name s t : Text} (ht : t ∈ member blanks name s) (x : Text) :
    ∃ u v w, string? (t ++ x) = some (name, u) ∧ after ':' u = some v ∧ string? v = some (s, w) ∧
      dropSpace w = dropSpace x := by
  obtain ⟨_, ⟨_, ⟨_, ⟨a, ha, n, hn, rfl⟩, b, hb, rfl⟩, _, rfl, rfl⟩, _,
    ⟨_, ⟨a', ha', v, hv, rfl⟩, b', hb', rfl⟩, rfl⟩ := ht
  simp only [List.append_assoc, List.cons_append, List.nil_append]
  refine ⟨_, _, _, string?_of_mem ha hn _, ?_, string?_of_mem ha' hv _, dropSpace_append hb' x⟩
  rw [after_append hb, after_cons rfl]

theorem readMember_expression (fuel : Nat) (result : Option Text) {s t : Text}
    (ht : t ∈ member blanks expressionField s) (x : Text) :
    ∃ w, dropSpace w = dropSpace x ∧
      readMember fuel none result (t ++ x) = some (some s, result, w) := by
  obtain ⟨u, v, w, hname, hcolon, hstring, hw⟩ := exists_of_mem_member ht x
  exact ⟨w, hw, by simp [readMember, hname, hcolon, hstring]⟩

theorem readMember_result (fuel : Nat) (expression : Option Text) {s t : Text}
    (ht : t ∈ member blanks resultField s) (x : Text) :
    ∃ w, dropSpace w = dropSpace x ∧
      readMember fuel expression none (t ++ x) = some (expression, some s, w) := by
  have hne : resultField ≠ expressionField := by decide
  obtain ⟨u, v, w, hname, hcolon, hstring, hw⟩ := exists_of_mem_member ht x
  exact ⟨w, hw, by simp [readMember, hname, hcolon, hstring, hne]⟩

theorem readMembers_of_mem {fuel : Nat} {e : Entry} {t u : Text}
    (ht : t ∈ member blanks expressionField e.expression)
    (hu : u ∈ member blanks resultField e.result) (x : Text) :
    readMembers (fuel + 2) none none (t ++ ',' :: (u ++ '\x7d' :: x)) = some (e, x) := by
  obtain ⟨v, hv, hexpression⟩ := readMember_expression (fuel + 1) none ht
    (',' :: (u ++ '\x7d' :: x))
  obtain ⟨w, hw, hresult⟩ := readMember_result fuel (some e.expression) hu
    ('\x7d' :: x)
  rw [readMembers, hexpression]
  simp only [Option.bind_eq_bind, Option.bind_some]
  rw [after_congr hv, after_cons rfl]
  dsimp only
  rw [readMembers, hresult]
  simp only [Option.bind_eq_bind, Option.bind_some]
  rw [after_congr hw, after_of_ne rfl (by decide), after_congr hw, after_cons rfl]
  rfl

/-- What the grammar has for an entry is read as the entry. -/
theorem ofJson?_of_mem {fuel : Nat} {e : Entry} {b t : Text} (hb : b ∈ blanks)
    (ht : t ∈ entry blanks e) (x : Text) : ofJson? (fuel + 2) (b ++ (t ++ x)) = some (e, x) := by
  obtain ⟨_, ⟨_, rfl, _, ⟨_, ⟨u, hu, _, rfl, rfl⟩, v, hv, rfl⟩, rfl⟩, _, rfl, rfl⟩ := ht
  simp only [List.append_assoc, List.cons_append, List.nil_append]
  rw [ofJson?, dropSpace_append hb]
  exact readMembers_of_mem hu hv x

end Entry

namespace History

theorem length_le_of_mem_listed {l : List Entry} {t : Text} (h : t ∈ listed blanks l) :
    l.length ≤ t.length := by
  have hentry {e : Entry} {t : Text} (ht : t ∈ blanks * entry blanks e * blanks) :
      0 < t.length := by
    obtain ⟨_, ⟨a, -, _, ⟨_, ⟨_, rfl, _, -, rfl⟩, _, rfl, rfl⟩, rfl⟩, b, -, rfl⟩ := ht
    simp only [List.length_append, List.length_cons]
    omega
  fun_induction listed blanks l generalizing t with
  | case1 => simp
  | case2 e => exact hentry h
  | case3 e l hne ih =>
    obtain ⟨_, ⟨u, hu, _, rfl, rfl⟩, v, hv, rfl⟩ := h
    have := ih hv
    have := hentry hu
    simp only [List.length_cons, List.length_append]
    omega

/-- The first of some entries begins with its brace. -/
theorem exists_of_mem_listed {e : Entry} {l : List Entry} {t : Text}
    (h : t ∈ listed blanks (e :: l)) : ∃ b ∈ blanks, ∃ u, t = b ++ '\x7b' :: u := by
  have hentry {t : Text} (ht : t ∈ blanks * entry blanks e * blanks) :
      ∃ b ∈ blanks, ∃ u, t = b ++ '\x7b' :: u := by
    obtain ⟨_, ⟨b, hb, _, ⟨_, ⟨_, rfl, _, -, rfl⟩, _, rfl, rfl⟩, rfl⟩, c, -, rfl⟩ := ht
    exact ⟨b, hb, _, by simp only [List.append_assoc, List.cons_append, List.nil_append]; rfl⟩
  cases l with
  | nil => exact hentry h
  | cons e' l =>
    obtain ⟨_, ⟨u, hu, _, rfl, rfl⟩, v, -, rfl⟩ := h
    obtain ⟨b, hb, w, rfl⟩ := hentry hu
    exact ⟨b, hb, _, by simp only [List.append_assoc, List.cons_append, List.nil_append]; rfl⟩

/-- Entries are read from one of them on, with more fuel than there are entries. -/
theorem readEntries_of_mem {fuel : Nat} {l : List Entry} {t : Text} (hl : l ≠ [])
    (ht : t ∈ listed blanks l) (hfuel : l.length + 2 ≤ fuel) (x : Text) :
    readEntries fuel (t ++ ']' :: x) = some (l, x) := by
  fun_induction listed blanks l generalizing fuel t with
  | case1 => exact absurd rfl hl
  | case2 e =>
    obtain ⟨n, rfl⟩ : ∃ n, fuel = n + 2 + 1 := ⟨fuel - 3, by simp at hfuel; omega⟩
    obtain ⟨_, ⟨a, ha, u, hu, rfl⟩, b, hb, rfl⟩ := ht
    simp only [List.append_assoc]
    rw [readEntries, Entry.ofJson?_of_mem ha hu]
    simp only [Option.bind_eq_bind, Option.bind_some]
    rw [Entry.after_append hb, Entry.after_of_ne rfl (by decide), Entry.after_append hb,
      Entry.after_cons rfl]
    rfl
  | case3 e l hne ih =>
    simp only [List.length_cons] at hfuel
    obtain ⟨n, rfl⟩ : ∃ n, fuel = n + 2 + 1 := ⟨fuel - 3, by omega⟩
    obtain ⟨_, ⟨_, ⟨_, ⟨a, ha, u, hu, rfl⟩, b, hb, rfl⟩, _, rfl, rfl⟩, v, hv, rfl⟩ := ht
    simp only [List.append_assoc, List.cons_append, List.nil_append]
    rw [readEntries, Entry.ofJson?_of_mem ha hu]
    simp only [Option.bind_eq_bind, Option.bind_some]
    rw [Entry.after_append hb, Entry.after_cons rfl]
    dsimp only
    rw [ih (fun h => hne h) hv (by omega)]
    rfl

theorem readList_of_mem {l : List Entry} {t : Text} (ht : t ∈ listed blanks l) (x : Text) :
    readList (t ++ ']' :: x) = some (l, x) := by
  have hlength := length_le_of_mem_listed ht
  unfold readList
  cases l with
  | nil => rw [Entry.after_append ht, Entry.after_cons rfl]
  | cons e l =>
    have hfirst : Entry.after ']' (t ++ ']' :: x) = none := by
      obtain ⟨b, hb, u, rfl⟩ := exists_of_mem_listed ht
      rw [List.append_assoc, Entry.after_append hb]
      exact Entry.after_of_ne rfl (by decide) _
    rw [hfirst]
    refine readEntries_of_mem (List.cons_ne_nil e l) ht ?_ x
    simp only [List.length_append, List.length_cons] at hlength ⊢
    omega

/-- What the grammar has for a list of entries is read as the list. -/
theorem entries?_of_mem {l : List Entry} {t : Text}
    (h : t ∈ blanks * Json.entries blanks l * blanks) : entries? t = some l := by
  obtain ⟨_, ⟨a, ha, _, ⟨_, ⟨_, rfl, u, hu, rfl⟩, _, rfl, rfl⟩, rfl⟩, b, hb, rfl⟩ := h
  have hend : dropSpace b = [] := by simpa [dropSpace] using dropSpace_append hb []
  simp only [List.append_assoc, List.cons_append, List.nil_append]
  rw [entries?, Entry.after_append ha, Entry.after_cons rfl]
  simp only [Option.bind_eq_bind, Option.bind_some]
  rw [readList_of_mem hu]
  exact if_pos hend

end History

/-! ## What is read is JSON -/

namespace Entry

theorem after_eq_some_iff {c : Char} {t u : Text} : after c t = some u ↔ dropSpace t = c :: u := by
  unfold after
  split
  · rename_i d v hd
    rw [hd]
    simp [eq_comm]
  · rename_i hnil
    simp [hnil]

theorem reads_string? {s t u : Text} (h : string? t = some (s, u)) :
    Reads (blanks * anyString) t u :=
  (reads_dropSpace t).trans (reads_readQuoted h)

theorem reads_value_of_string? {s t u : Text} (h : string? t = some (s, u)) :
    Reads (blanks * derived .value) t u :=
  (reads_dropSpace t).trans ((reads_readQuoted h).mono fun _ h => .string h)

/-- A member is a name and a value, whether it is one of the two fields or not. -/
theorem exists_of_readMember {fuel : Nat} {expression result expression' result' : Option Text}
    {t rest : Text}
    (h : readMember fuel expression result t = some (expression', result', rest)) :
    ∃ u v, Reads (blanks * anyString) t u ∧ dropSpace u = ':' :: v ∧
      Reads (blanks * derived .value) v rest := by
  simp only [readMember, Option.bind_eq_bind, Option.bind_eq_some_iff] at h
  obtain ⟨⟨name, u⟩, hname, v, hcolon, h⟩ := h
  refine ⟨u, v, reads_string? hname, after_eq_some_iff.1 hcolon, ?_⟩
  split_ifs at h
  · obtain ⟨⟨s, w⟩, hs, he⟩ := Option.map_eq_some_iff.1 h
    cases he
    exact reads_value_of_string? hs
  · obtain ⟨⟨s, w⟩, hs, he⟩ := Option.map_eq_some_iff.1 h
    cases he
    exact reads_value_of_string? hs
  · obtain ⟨w, hw, he⟩ := Option.map_eq_some_iff.1 h
    cases he
    exact (passes_skip fuel).1 v _ hw

theorem reads_readMembers {fuel : Nat} {expression result : Option Text} {t rest : Text} {e : Entry}
    (h : readMembers fuel expression result t = some (e, rest)) :
    Reads (derived .members * letter '\x7d') t rest := by
  induction fuel generalizing expression result t with
  | zero => cases h
  | succ fuel ih =>
    simp only [readMembers, Option.bind_eq_bind, Option.bind_eq_some_iff] at h
    obtain ⟨⟨expression', result', w⟩, hread, h⟩ := h
    obtain ⟨u, v, hname, hcolon, hvalue⟩ := exists_of_readMember hread
    have hmember {c : Char} {x : Text} (hw : after c w = some x) :
        Reads (derived .member * letter c) t x :=
      reads_member hname hcolon hvalue (after_eq_some_iff.1 hw)
    dsimp only at h
    split at h
    · rename_i more hmore
      exact reads_moreMembers (hmember hmore) (ih h)
    · simp only [Option.bind_eq_some_iff, Option.pure_def, Option.some.injEq, Prod.mk.injEq] at h
      obtain ⟨behind, hclose, _, -, _, -, -, rfl⟩ := h
      exact reads_lastMember (hmember hclose)

theorem reads_readPair {t rest : Text} {e : Entry} (h : readPair t = some (e, rest)) :
    Reads (derived .elements * letter ']') t rest := by
  simp only [readPair, Option.bind_eq_bind, Option.bind_eq_some_iff] at h
  obtain ⟨⟨s, u⟩, hs, v, hcomma, ⟨r, w⟩, hr, x, hclose, he⟩ := h
  cases he
  exact reads_moreElements (reads_value_of_string? hs) (after_eq_some_iff.1 hcomma)
    (reads_lastElement (reads_value_of_string? hr) (after_eq_some_iff.1 hclose))

theorem reads_ofJson? {fuel : Nat} {t rest : Text} {e : Entry}
    (h : ofJson? fuel t = some (e, rest)) : Reads (blanks * derived .value) t rest := by
  refine (reads_dropSpace t).trans ?_
  unfold ofJson? at h
  generalize dropSpace t = u at h
  split at h
  · exact reads_members (reads_readMembers h)
  · exact reads_elements (reads_readPair h)
  · cases h

end Entry

namespace History

theorem reads_readEntries {fuel : Nat} {t rest : Text} {l : List Entry}
    (h : readEntries fuel t = some (l, rest)) :
    Reads (derived .elements * letter ']') t rest := by
  induction fuel generalizing t l with
  | zero => cases h
  | succ fuel ih =>
    simp only [readEntries, Option.bind_eq_bind, Option.bind_eq_some_iff] at h
    obtain ⟨⟨e, u⟩, he, h⟩ := h
    have hentry := Entry.reads_ofJson? he
    split at h
    · rename_i more hmore
      obtain ⟨⟨es, v⟩, hes, hr⟩ := Option.map_eq_some_iff.1 h
      cases hr
      exact reads_moreElements hentry (Entry.after_eq_some_iff.1 hmore) (ih hes)
    · obtain ⟨v, hv, hr⟩ := Option.map_eq_some_iff.1 h
      cases hr
      exact reads_lastElement hentry (Entry.after_eq_some_iff.1 hv)

theorem reads_readList {t rest : Text} {l : List Entry} (h : readList t = some (l, rest)) :
    Reads (derived .value) ('[' :: t) rest := by
  unfold readList at h
  split at h
  · rename_i behind hclose
    cases h
    exact reads_emptyList (Entry.after_eq_some_iff.1 hclose)
  · exact reads_elements (reads_readEntries h)

/-- A text that is read as entries is a text of JSON. -/
theorem derives_of_entries? {t : Text} {l : List Entry} (h : entries? t = some l) :
    Derives .element t := by
  simp only [entries?, Option.bind_eq_bind, Option.bind_eq_some_iff] at h
  obtain ⟨u, hu, ⟨l', rest⟩, hlist, h⟩ := h
  split at h
  · rename_i hend
    have hbehind := reads_dropSpace rest
    rw [hend] at hbehind
    have hlist' : Reads (blanks * derived .value) t rest :=
      reads_of_dropSpace (Entry.after_eq_some_iff.1 hu) (reads_readList hlist)
    obtain ⟨v, hv, rfl⟩ := (hlist'.trans hbehind).mono element_le
    rwa [List.append_nil]
  · cases h

end History

/-! ## What is written -/

theorem memberText_mem (name s : Text) :
    stringText name ++ ':' :: stringText s ∈ member 1 name s := by
  have hcolon : [':'] ∈ letter ':' := rfl
  have := Language.append_mem_mul (Language.append_mem_mul (stringText_mem name) hcolon)
    (stringText_mem s)
  simpa [member] using this

theorem Entry.toJson_mem (e : Entry) : e.toJson ∈ entry 1 e := by
  have hopen : ['\x7b'] ∈ letter '\x7b' := rfl
  have hcomma : [','] ∈ letter ',' := rfl
  have hclose : ['\x7d'] ∈ letter '\x7d' := rfl
  have hform : e.toJson = ['\x7b'] ++
      ((stringText expressionField ++ ':' :: stringText e.expression) ++ [','] ++
        (stringText resultField ++ ':' :: stringText e.result)) ++ ['\x7d'] := by
    simp [Entry.toJson]
  rw [hform]
  exact Language.append_mem_mul (Language.append_mem_mul hopen
    (Language.append_mem_mul (Language.append_mem_mul
      (memberText_mem expressionField e.expression) hcomma)
      (memberText_mem resultField e.result))) hclose

namespace History

theorem separated_mem (l : List Entry) : separated (l.map Entry.toJson) ∈ listed 1 l := by
  fun_induction listed 1 l with
  | case1 => rfl
  | case2 e => simpa [separated] using e.toJson_mem
  | case3 e l hne ih =>
    have hcomma : [','] ∈ letter ',' := rfl
    have hrest : separated ((e :: l).map Entry.toJson) =
        e.toJson ++ [','] ++ separated (l.map Entry.toJson) := by
      cases l with
      | nil => exact absurd rfl hne
      | cons e' l => simp [separated]
    rw [hrest]
    simpa using Language.append_mem_mul (Language.append_mem_mul e.toJson_mem hcomma) ih

theorem entriesJson_mem (l : List Entry) : entriesJson l ∈ Json.entries 1 l :=
  Language.append_mem_mul (Language.append_mem_mul (a := ['[']) rfl (separated_mem l)) rfl

end History

/-- The program's own format is JSON. -/
instance : HistoryFormat.IsJson where
  write_mem := History.entriesJson_mem
  read?_of_mem := History.entries?_of_mem
  derives_of_read? := History.derives_of_entries?

end PocketCalc
