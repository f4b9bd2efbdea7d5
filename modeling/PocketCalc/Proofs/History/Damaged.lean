import PocketCalc.Proofs.History.Json
import PocketCalc.Proofs.Json.Closing

/-!
# A history text that was damaged

A text of a history that was cut short, wherever it was cut, holds no history: not even the entries
in front of the cut. It is a list up to the bracket that closes it, and neither a part of a list nor
a list with more than blanks behind it is a text of JSON.

* `read?_beginning`: what is read from a text that was cut short.
* `ofJson_damaged`: what is read from a text that was cut short or made longer.
-/

namespace PocketCalc

namespace History

section

variable [HistoryFormat] [HistoryFormat.IsJson]

open HistoryFormat

theorem read?_beginning {l : List Entry} {p : Text} (h : p <+: write l) (hne : p ≠ write l) :
    read? p = none := by
  obtain ⟨t, ht, hvalue⟩ := exists_write_eq l
  rw [ht] at h hne
  refine Option.eq_none_iff_forall_ne_some.2 fun es hes => ?_
  exact hne (Json.eq_of_beginning hvalue (IsJson.derives_of_read? hes) h)

theorem read?_append_of_not_mem {l : List Entry} {x : Text} (hx : x ∉ Json.blanks) :
    read? (write l ++ x) = none := by
  obtain ⟨t, ht, hvalue⟩ := exists_write_eq l
  rw [ht]
  refine Option.eq_none_iff_forall_ne_some.2 fun es hes => ?_
  exact hx (Json.mem_blanks_of_derives hvalue (IsJson.derives_of_read? hes))

/-- A written history that was cut short, wherever it was cut, reads as the empty one. With blanks
behind it, it reads as the history that was written, and with anything else as the empty one. -/
theorem ofJson_damaged (h : History) :
    (∀ p, p <+: h.toJson → p ≠ h.toJson → ofJson p = empty) ∧
    (∀ x, (∀ c ∈ x, c ∈ Json.space) → ofJson (h.toJson ++ x) = h) ∧
    ∀ x, (∃ c ∈ x, c ∉ Json.space) → ofJson (h.toJson ++ x) = empty := by
  refine ⟨fun p hp hne => ?_, fun x hx => ?_, fun x ⟨c, hc, hspace⟩ => ?_⟩
  · exact ofJson_of_read?_eq_none (read?_beginning hp hne)
  · rw [toJson, ofJson_of_read? (read?_write_append h.entries hx), ofList_entries]
  · exact ofJson_of_read?_eq_none (read?_append_of_not_mem fun hx => hspace (hx c hc))

end

/-- An entry whose strings look like the end of the list: cut behind that, and with more behind its
own end. -/
theorem ofJson_damaged_of_brackets :
    let h := ofList [⟨"\"\x7d]".toList, "1\\".toList⟩]
    let p := "[\x7b\"expression\":\"\\\"\x7d]".toList
    p <+: h.toJson ∧ p ≠ h.toJson ∧ ofJson p = empty ∧
    (∀ c ∈ " \n".toList, c ∈ Json.space) ∧ ofJson (h.toJson ++ " \n".toList) = h ∧
    (∃ c ∈ " ]".toList, c ∉ Json.space) ∧ ofJson (h.toJson ++ " ]".toList) = empty := by
  intro h p
  have hp : p <+: h.toJson := by decide
  have hne : p ≠ h.toJson := by decide
  have hblank : ∀ c ∈ " \n".toList, c ∈ Json.space := by simp [Json.space]
  have hother : ∃ c ∈ " ]".toList, c ∉ Json.space := ⟨']', by simp, by simp [Json.space]⟩
  exact ⟨hp, hne, (ofJson_damaged h).1 p hp hne, hblank, (ofJson_damaged h).2.1 _ hblank, hother,
    (ofJson_damaged h).2.2 _ hother⟩

end History

end PocketCalc
