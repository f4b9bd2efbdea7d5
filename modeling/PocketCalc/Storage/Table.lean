/-!
# Tables

Values under keys, at most one under each key.

* `find?_put`, `find?_erase`: putting and erasing change what is under one key and nothing else.
-/

namespace PocketCalc

/-- Values under keys; of two values under one key the first counts. -/
structure Table (κ α : Type) where
  entries : List (κ × α)
deriving DecidableEq

namespace Table

variable {κ α : Type} [DecidableEq κ]

/-- The table without values. -/
def empty : Table κ α := ⟨[]⟩

/-- The value under a key. -/
def find? (t : Table κ α) (k : κ) : Option α :=
  (t.entries.find? fun entry => entry.1 = k).map Prod.snd

/-- The table without a value under a key. -/
def erase (t : Table κ α) (k : κ) : Table κ α := ⟨t.entries.filter fun entry => entry.1 ≠ k⟩

/-- The table with a value under a key, in the place of the one that was there. -/
def put (t : Table κ α) (k : κ) (a : α) : Table κ α := ⟨(k, a) :: (t.erase k).entries⟩

@[simp] theorem find?_empty (k : κ) : (empty : Table κ α).find? k = none := rfl

theorem find?_erase (t : Table κ α) (k q : κ) :
    (t.erase k).find? q = if q = k then none else t.find? q := by
  unfold find? erase
  rw [List.find?_filter]
  by_cases h : q = k
  · subst h
    simp
  · rw [if_neg h]
    congr 2
    funext entry
    by_cases hq : entry.1 = q
    · simp [hq, h]
    · simp [hq]

theorem find?_put (t : Table κ α) (k : κ) (a : α) (q : κ) :
    (t.put k a).find? q = if q = k then some a else t.find? q := by
  by_cases h : q = k
  · simp [find?, put, h]
  · have hk : ¬ k = q := fun e => h e.symm
    have : (t.put k a).find? q = (t.erase k).find? q := by
      simp [find?, put, hk]
    rw [this, find?_erase]
    simp [h]

end Table

end PocketCalc
