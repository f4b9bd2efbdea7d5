import PocketCalc.Proofs.History.Json

/-!
# Reading a history that was written

In a format of JSON a list of entries of any length reads as its first ten entries. A history has no
more than that, so it reads back as it was.

* `History.toJson_roundTrip`: the lists, the histories, and that no two histories are written alike.
-/

namespace PocketCalc

namespace History

/-- Each list of entries, of any length and with any strings in it, is read from its text as its
first ten entries, in their order. So a history reads back as it was, and no two histories are
written alike. -/
theorem toJson_roundTrip [HistoryFormat] [HistoryFormat.IsJson] :
    (∀ l : List Entry, (ofJson (HistoryFormat.write l)).entries = l.take 10) ∧
    (∀ h : History, h.toJson = HistoryFormat.write h.entries ∧ ofJson h.toJson = h) ∧
    Function.Injective toJson := by
  refine ⟨fun l => ?_, fun h => ⟨rfl, ofJson_toJson h⟩, fun g h hgh => ?_⟩
  · rw [ofJson_write]
    rfl
  · calc g = ofJson g.toJson := (ofJson_toJson g).symm
      _ = ofJson h.toJson := by rw [hgh]
      _ = h := ofJson_toJson h

/-- In the program's own format: eleven entries with a quote, a backslash, controls, and characters
of the first plane and beyond it. -/
theorem toJson_roundTrip_of_escapes :
    let e : Entry := ⟨"\"\\\n".toList, "\x01é😀".toList⟩
    let t := "\x7b\"expression\":\"\\\"\\\\\\n\",\"result\":\"\\u0001é😀\"\x7d".toList
    HistoryFormat.write [e] = '[' :: t ++ [']'] ∧
    (ofJson (HistoryFormat.write (List.replicate 11 e))).entries = List.replicate 10 e ∧
    ofJson (ofList [e]).toJson = ofList [e] ∧ (ofList [e]).toJson ≠ empty.toJson := by
  intro e t
  have hroundTrip := toJson_roundTrip
  refine ⟨by decide, hroundTrip.1 _, (hroundTrip.2.1 _).2, fun h => ?_⟩
  have := congrArg entries (hroundTrip.2.2 h)
  cases this

end History

end PocketCalc
