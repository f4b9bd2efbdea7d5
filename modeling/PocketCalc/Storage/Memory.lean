import PocketCalc.Storage.Basic
import PocketCalc.Storage.Table

/-!
# Stores in memory

A store that forgets everything when the program ends; the same store with reads or writes that
fail; and any store together with a record of what it was asked.

* `read_write`: what was written under a key is read there, and nothing else changes.
-/

namespace PocketCalc

/-- Texts under keys. -/
structure MemoryStore where
  texts : Table Text Text
deriving DecidableEq

namespace MemoryStore

/-- A store without any text. -/
def empty : MemoryStore := ⟨.empty⟩

/-- The text under a key. -/
def find? (s : MemoryStore) (key : Text) : Option Text := s.texts.find? key

/-- The store with a text under a key, in the place of what was there. -/
def put (s : MemoryStore) (key value : Text) : MemoryStore := ⟨s.texts.put key value⟩

instance : Store MemoryStore where
  read s key := (.ok (s.find? key), s)
  write s key value := (.ok (), s.put key value)

theorem read_write (s : MemoryStore) (key value other : Text) :
    (Store.read (Store.write s key value).2 other).1 =
      if other = key then .ok (some value) else (Store.read s other).1 := by
  simp only [Store.read, Store.write, find?, put, Table.find?_put]
  split <;> rfl

end MemoryStore

/-! ## Failures -/

/-- A store in memory of which reads or writes may fail. -/
structure FaultyStore where
  memory : MemoryStore
  /-- Why reads fail, if they do. -/
  readFault : Option StoreError
  /-- Why writes fail, if they do. -/
  writeFault : Option StoreError
deriving DecidableEq

instance : Store FaultyStore where
  read s key :=
    match s.readFault with
    | some e => (.error e, s)
    | none => (.ok (s.memory.find? key), s)
  write s key value :=
    match s.writeFault with
    | some e => (.error e, s)
    | none => (.ok (), { s with memory := s.memory.put key value })

/-! ## Records -/

/-- A store and what it was asked, latest last, granted or not. -/
structure RecordingStore (σ : Type) where
  store : σ
  reads : List Text
  writes : List (Text × Text)

namespace RecordingStore

/-- A store that was not asked anything yet. -/
def fresh {σ : Type} (store : σ) : RecordingStore σ := ⟨store, [], []⟩

instance {σ : Type} [Store σ] : Store (RecordingStore σ) where
  read s key :=
    let (answer, store) := Store.read s.store key
    (answer, { s with store := store, reads := s.reads ++ [key] })
  write s key value :=
    let (answer, store) := Store.write s.store key value
    (answer, { s with store := store, writes := s.writes ++ [(key, value)] })

end RecordingStore

end PocketCalc
