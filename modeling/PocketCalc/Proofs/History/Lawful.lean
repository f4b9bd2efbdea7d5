import PocketCalc.History.Format
import PocketCalc.Proofs.Json.Grammar

/-!
# What is taken of the format of histories

The program relies on its format in two ways. For most of what it does it is enough that entries
that were written are read again. What it makes of a text that something else has changed depends on
the format being JSON.

* `ReadsBack`, `IsJson`: the two conditions; the second one implies the first.
* `History.ofJson_toJson`: under the first, a history that was written is read again.
* `write_nil`: under the second, the text of no entries.
-/

namespace PocketCalc

namespace HistoryFormat

/-- Entries that were written are read again. -/
class ReadsBack [HistoryFormat] : Prop where
  read?_write (l : List Entry) : read? (write l) = some l

/-- The format is JSON: entries are written without blanks, in some spelling; they are read from
each of their texts, with blanks anywhere; and what is no text of JSON has no entries in it. -/
class IsJson [HistoryFormat] : Prop where
  write_mem (l : List Entry) : write l ∈ Json.entries 1 l
  read?_of_mem {l : List Entry} {t : Text}
    (h : t ∈ Json.blanks * Json.entries Json.blanks l * Json.blanks) : read? t = some l
  derives_of_read? {l : List Entry} {t : Text} (h : read? t = some l) : Json.Derives .element t

variable [HistoryFormat] [IsJson]

theorem write_mem_entries (l : List Entry) : write l ∈ Json.entries Json.blanks l :=
  Json.entries_mono Json.one_le_blanks l (IsJson.write_mem l)

/-- Blanks may stand behind what is written. -/
theorem read?_write_append (l : List Entry) {x : Text} (hx : x ∈ Json.blanks) :
    read? (write l ++ x) = some l := by
  refine IsJson.read?_of_mem (Language.append_mem_mul ?_ hx)
  exact Language.append_mem_mul Json.nil_mem_blanks (write_mem_entries l)

instance : ReadsBack where
  read?_write l := by simpa using read?_write_append l Json.nil_mem_blanks

theorem write_nil : write [] = "[]".toList := by
  obtain ⟨_, ⟨_, rfl, _, rfl, rfl⟩, _, rfl, h⟩ := IsJson.write_mem []
  exact h.symm

/-- What is written begins with the bracket of a list. -/
theorem exists_write_eq (l : List Entry) :
    ∃ t, write l = '[' :: t ∧ Json.Derives .value ('[' :: t) := by
  have hl := write_mem_entries l
  have hvalue := Json.derives_of_mem_entries hl
  obtain ⟨_, ⟨_, rfl, t, -, rfl⟩, _, rfl, h⟩ := hl
  rw [← h] at hvalue ⊢
  exact ⟨t ++ [']'], rfl, hvalue⟩

end HistoryFormat

namespace History

variable [HistoryFormat] [HistoryFormat.ReadsBack]

theorem ofJson_write (l : List Entry) : ofJson (HistoryFormat.write l) = ofList l :=
  ofJson_of_read? (HistoryFormat.ReadsBack.read?_write l)

theorem ofJson_toJson (h : History) : ofJson h.toJson = h := by
  rw [toJson, ofJson_write, ofList_entries]

end History

end PocketCalc
