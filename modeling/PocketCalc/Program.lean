import PocketCalc.History.Json
import PocketCalc.Storage.Files
import PocketCalc.Storage.Location
import PocketCalc.Storage.Memory
import PocketCalc.View.Sheet

/-!
# The program

A launch looks for the folder of the user's data and opens a window on the store in that folder, or
on a store in memory where there is no such folder. The window is one of texts.

* `store_of_folder`: with a folder the program works on it.
-/

namespace PocketCalc

/-- The store of a launch. -/
inductive ProgramStore where
  | files (s : FileStore)
  | memory (s : MemoryStore)

instance : Store ProgramStore where
  read
    | .files s, key => let (answer, s) := Store.read s key; (answer, .files s)
    | .memory s, key => let (answer, s) := Store.read s key; (answer, .memory s)
  write
    | .files s, key, value => let (answer, s) := Store.write s key value; (answer, .files s)
    | .memory s, key, value => let (answer, s) := Store.write s key value; (answer, .memory s)

namespace Program

/-- The name of the program and the title of its window. -/
def title : Text := "Calculatrice".toList

/-- Width and height of the window at first. -/
def size : Nat × Nat := (380, 620)

/-- The smallest width and height of the window. -/
def leastSize : Nat × Nat := (320, 520)

/-- The store that an environment asks for, on a disk. -/
def store (e : Environment) (d : Disk) : ProgramStore :=
  match e.folder with
  | .ok folder => .files ⟨Disk.routeOf folder, d⟩
  | .error _ => .memory .empty

/-- The window of a launch in an environment, on a disk. -/
def launch (e : Environment) (d : Disk) : Window ProgramStore Sheet :=
  ((Window.start (store e d)).frame []).1

/-- The disk as the program has left it, given the disk it was launched on. -/
def diskAfter (d : Disk) (w : Window ProgramStore Sheet) : Disk :=
  match w.session.store with
  | .files s => s.disk
  | .memory _ => d

theorem store_of_folder {e : Environment} {folder : Text} (h : e.folder = .ok folder) (d : Disk) :
    store e d = .files ⟨Disk.routeOf folder, d⟩ := by
  simp [store, h]

end Program

end PocketCalc
