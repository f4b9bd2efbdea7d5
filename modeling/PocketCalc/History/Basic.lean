import PocketCalc.Text.Blank

/-!
# The history of calculations

The last ten calculations, newest first. A new one drops the oldest when there is no room.

* `entries_record`: recording puts the entry in front and keeps ten.
-/

namespace PocketCalc

/-- A calculation and its result, as they were shown. -/
structure Entry where
  expression : Text
  result : Text
deriving DecidableEq

/-- The latest calculations, newest first. -/
structure History where
  entries : List Entry
  length_le : entries.length ≤ 10
deriving DecidableEq

namespace History

/-- How many calculations are kept. -/
def capacity : Nat := 10

/-- No calculation. -/
def empty : History := ⟨[], by decide⟩

/-- The first calculations of a list, as many as are kept. -/
def ofList (l : List Entry) : History := ⟨l.take capacity, List.length_take_le capacity l⟩

/-- The history after one more calculation. -/
def record (h : History) (e : Entry) : History := ofList (e :: h.entries)

/-- The number of calculations. -/
def length (h : History) : Nat := h.entries.length

/-- Whether there is no calculation. -/
def isEmpty (h : History) : Bool := h.entries.isEmpty

@[ext] theorem ext {g h : History} (e : g.entries = h.entries) : g = h := by
  cases g
  cases h
  cases e
  rfl

@[simp] theorem entries_empty : empty.entries = [] := rfl

@[simp] theorem entries_ofList (l : List Entry) : (ofList l).entries = l.take capacity := rfl

@[simp] theorem entries_record (h : History) (e : Entry) :
    (h.record e).entries = (e :: h.entries).take capacity := rfl

theorem ofList_entries (h : History) : ofList h.entries = h :=
  ext (List.take_of_length_le h.length_le)

end History

end PocketCalc
