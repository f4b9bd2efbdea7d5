import PocketCalc.History.Basic

/-!
# The format of a stored history

A history is stored as one text. How a list of entries is written as a text, and which lists a text
holds, is up to a format that the program is given. Of what it reads, the program takes the ten
entries that fit.

* `ofJson_of_read?`: of a text that holds entries, the first ten are taken.
-/

namespace PocketCalc

/-- A format for lists of entries. -/
class HistoryFormat where
  /-- The text of a list of entries. -/
  write : List Entry → Text
  /-- The entries that a text holds, if it is a text of the format. -/
  read? : Text → Option (List Entry)

namespace History

variable [HistoryFormat]

/-- The text that a history is stored as. -/
def toJson (h : History) : Text := HistoryFormat.write h.entries

/-- The history that a stored text holds: its first entries, or none at all. -/
def ofJson (t : Text) : History := ofList ((HistoryFormat.read? t).getD [])

theorem ofJson_of_read? {t : Text} {l : List Entry} (h : HistoryFormat.read? t = some l) :
    ofJson t = ofList l := by
  simp [ofJson, h]

theorem ofJson_of_read?_eq_none {t : Text} (h : HistoryFormat.read? t = none) :
    ofJson t = empty := by
  simp [ofJson, h, ofList, empty]

end History

end PocketCalc
