import PocketCalc.Program
import PocketCalc.Proofs.Storage.Atomic
import PocketCalc.Proofs.Storage.FileMap
import PocketCalc.Proofs.Storage.Reliable

/-!
# The store of the program works

A store on disk works for the keys of the program if its folder can be written to and is there, or
is still missing on a plain way to it. So a launch has a store that works in each such folder, and
in memory anyway.

* `FileStore.works_of_missing`: a folder that is missing and can be made.
* `FileStore.Works.read_of_stopped`: a write is not noticed before its renaming.
* `FileStore.reliable`, `ProgramStore.reliable`: the two kinds of stores.
* `Program.works_of_missing_folder`: the store of a first launch.
-/

namespace PocketCalc

open Disk

/-! ## The keys -/

theorem isPlain_of_mem_programKeys {k : Text} (hk : k ∈ programKeys) :
    ∀ c ∈ k, FileStore.isPlain c = true := by
  have hall : programKeys.all (fun k => k.all FileStore.isPlain) = true := by decide
  simpa using List.all_eq_true.1 hall k hk

theorem tooLong_of_mem_programKeys {k : Text} (hk : k ∈ programKeys) :
    tooLong (FileStore.temporaryName k) = false := by
  have hall : programKeys.all (fun k => !tooLong (FileStore.temporaryName k)) = true := by
    decide +kernel
  simpa using List.all_eq_true.1 hall k hk

/-- The keys of the program have files of their own. -/
theorem stem_ne_of_mem_programKeys {k q : Text} (hk : k ∈ programKeys) (hq : q ∈ programKeys)
    (hne : q ≠ k) : FileStore.stem q ≠ FileStore.stem k := by
  rwa [FileStore.stem_of_isPlain (isPlain_of_mem_programKeys hq),
    FileStore.stem_of_isPlain (isPlain_of_mem_programKeys hk)]

namespace FileStore

variable {s : FileStore} {k q v : Text} {d : Disk}

/-! ## On disk -/

/-- The folder can be written to, and it is there, or it can be made on a plain way. -/
structure Works (s : FileStore) : Prop where
  writable : s.Writable
  settled : s.disk.folderAt s.folder = .ok s.home ∨ s.Regular

/-- A folder that is missing on a plain way to it will do if it can be made. -/
theorem works_of_missing (hs : s.Regular) (h : s.disk.folderAt s.folder = .error .notFound)
    (hmade : (s.disk.makeFolders s.folder).1 = .ok ()) : s.Works where
  writable :=
    { made := hmade
      free := fun name => by
        have hnone := s.making_withFolder.node?_of_direct hs.direct name
        rw [home, hnone, ← home, hs.node?_of_notFound h]
        simp }
  settled := .inr hs

theorem Works.write_ok (h : s.Works) (hk : k ∈ programKeys) (v : Text) :
    (s.write k v).1 = .ok () :=
  h.writable.write_ok (tooLong_of_mem_programKeys hk) v

/-- Once a text is written the folder is there. -/
theorem Works.write (h : s.Works) (hk : k ∈ programKeys) (v : Text) :
    (s.write k v).2.Works where
  writable := h.writable.write (h.write_ok hk v)
  settled := by
    obtain ⟨d, e, f, hst, hw⟩ := exists_stages_of_write_ok (h.write_ok hk v)
    rw [hw]
    exact .inl hst.folderAt

theorem Works.read_of_stopped (h : s.Works) (hd : s.Stopped k v d) (hq : q ∈ programKeys) :
    read ⟨s.folder, d⟩ q = s.read q := by
  obtain hp | hs := h.settled
  · exact hd.read_eq (by simp [hp]) q
  · exact hd.read_eq_of_regular hs (tooLong_fileName (tooLong_of_mem_programKeys hq))

theorem Works.read_write (h : s.Works) (hk : k ∈ programKeys) (hq : q ∈ programKeys) (v : Text) :
    (s.write k v).2.read q = if q = k then .ok (some v) else s.read q := by
  obtain ⟨d, e, f, hst, hw⟩ := exists_stages_of_write_ok (h.write_ok hk v)
  rw [hw]
  by_cases hqk : q = k
  · rw [if_pos hqk, hqk]
    exact hst.read_self
  · rw [if_neg hqk]
    exact (hst.read_of_stem_ne (stem_ne_of_mem_programKeys hk hq hqk)).trans
      (h.read_of_stopped hst.stopped hq)

theorem reliable : Store.Reliable Works where
  write_ok hs hk v := hs.write_ok hk v
  write_works hs hk v := hs.write hk v
  read_works hs _ := hs
  read_write hs hk hq v := hs.read_write hk hq v
  read_read _ _ _ := rfl

end FileStore

/-! ## In a launch -/

namespace ProgramStore

/-- A store in memory works, a store on disk if its folder does. -/
def Works : ProgramStore → Prop
  | .files s => s.Works
  | .memory _ => True

theorem reliable : Store.Reliable Works where
  write_ok {s _} hs hk v := by
    cases s with
    | files s => exact FileStore.reliable.write_ok hs hk v
    | memory s => exact MemoryStore.reliable.write_ok (s := s) hs hk v
  write_works {s _} hs hk v := by
    cases s with
    | files s => exact FileStore.reliable.write_works hs hk v
    | memory s => exact MemoryStore.reliable.write_works (s := s) hs hk v
  read_works {s _} hs hk := by
    cases s with
    | files s => exact FileStore.reliable.read_works hs hk
    | memory s => exact MemoryStore.reliable.read_works (s := s) hs hk
  read_write {s _ _} hs hk hq v := by
    cases s with
    | files s => exact FileStore.reliable.read_write hs hk hq v
    | memory s => exact MemoryStore.reliable.read_write (s := s) hs hk hq v
  read_read {s _ _} hs hk hq := by
    cases s with
    | files s => exact FileStore.reliable.read_read hs hk hq
    | memory s => exact MemoryStore.reliable.read_read (s := s) hs hk hq

end ProgramStore

namespace Program

/-- The first launch in a folder: it is missing on a plain way to it and can be made. -/
theorem works_of_missing_folder {e : Environment} {folder : Text} {d : Disk}
    (h : e.folder = .ok folder) (hs : FileStore.Regular ⟨routeOf folder, d⟩)
    (hmissing : d.folderAt (routeOf folder) = .error .notFound)
    (hmade : (d.makeFolders (routeOf folder)).1 = .ok ()) : (store e d).Works := by
  rw [store_of_folder h]
  exact FileStore.works_of_missing hs hmissing hmade

/-- An empty disk and an account with a home folder. -/
example : (store ⟨none, some "/home/a/.local/share".toList⟩ .empty).Works :=
  works_of_missing_folder rfl ⟨isTree_empty, direct_of_not_mem (by decide), by decide +kernel⟩
    (by decide +kernel) (by decide +kernel)

end Program

end PocketCalc
