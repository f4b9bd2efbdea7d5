import PocketCalc.Proofs.Storage.KeyFile

/-!
# Writes are all or nothing

Until the temporary file is renamed, a write has changed no key's file: wherever it is stopped, by a
refusal or by the end of the program, each key that had a text still has it. The renaming gives the
key its new text and changes no other file. Before that a write is noticed only if its folder was
missing, and then only in two cases: where a name in the route of the folder or the name of the
key's file is too long, an error may take the place of the answer that there is nothing, and a route
that goes back out of the missing folder may find texts that it did not find before.

* `Stopped.read_eq`: where the folder was there, every key reads as before.
* `Stopped.read_eq_of_regular`: and also where it was missing, with a route that does not go back
  and names that fit.
* `Stopped.read_eq_some`: a key that reads as a text did so before, or its folder was not found.
* `Stages.read_of_stem_ne`: the renaming is seen under its own key only.
* `write_atomic`: all of it, for each write.
* `refused_write_seen`: a write that is refused and noticed.
-/

namespace PocketCalc

open Disk

namespace FileStore

variable {s : FileStore} {key value k t : Text} {d e f : Disk}

/-- The file of a key holds a text, in a folder that the route of the store does not find. -/
def Hidden (s : FileStore) (k t : Text) : Prop :=
  s.disk.folderAt s.folder = .error .notFound ∧
    s.disk.node? (s.home ++ [fileName k]) = some (.file (bytesOf t))

/-- On a tree, a route that does not go back out of a missing folder hides nothing. -/
theorem not_hidden (ht : s.disk.IsTree) (hr : s.disk.Direct s.folder) (k t : Text) :
    ¬ s.Hidden k t :=
  fun h => ht.folderAt_ne_notFound hr h.2 h.1

/-- The disk is a tree, and the route of the folder has no name that is too long and does not go
back out of a missing folder. -/
structure Regular (s : FileStore) : Prop where
  tree : s.disk.IsTree
  direct : s.disk.Direct s.folder
  fits : ∀ name ∈ s.folder, tooLong name = false

/-- In a regular folder that is not found there are no files. -/
theorem Regular.node?_of_notFound (h : s.Regular)
    (hr : s.disk.folderAt s.folder = .error .notFound) (name : Text) :
    s.disk.node? (s.home ++ [name]) = none := by
  cases hn : s.disk.node? (s.home ++ [name]) with
  | none => rfl
  | some n => exact absurd hr (h.tree.folderAt_ne_notFound h.direct hn)

/-! ## Before the renaming -/

theorem node?_writeFile_fileName (d : Disk) (r : Route) (key k : Text) (b : ByteArray) (p : Path) :
    (d.writeFile r (temporaryName key) b).2.node? (p ++ [fileName k]) =
      d.node? (p ++ [fileName k]) := by
  by_contra hne
  obtain ⟨q, -, hq⟩ := node?_writeFile_of_ne hne
  have hname : fileName k = temporaryName key := by simpa using List.append_inj_right' hq rfl
  exact temporaryName_ne_fileName key k hname.symm

namespace Stopped

/-- A file that a stopped write leaves for a key was there before. -/
theorem node?_file (h : s.Stopped key value d) {b : ByteArray}
    (hd : d.node? (s.home ++ [fileName k]) = some (.file b)) :
    s.disk.node? (s.home ++ [fileName k]) = some (.file b) := by
  cases h with
  | folders hm => exact hm.grows.node?_file hd
  | @temporary d hm part rest hpart =>
    rw [node?_writeFile_fileName, ← withFolder_of_makeFolders hm] at hd
    exact s.making_withFolder.grows.node?_file hd

/-- Where the folder is found, or refused for another reason, a stopped write is not noticed. -/
theorem read_eq (h : s.Stopped key value d) (hr : s.disk.folderAt s.folder ≠ .error .notFound)
    (k : Text) : read ⟨s.folder, d⟩ k = s.read k := by
  cases h with
  | folders hm => exact read_congr (hm.grows.folderAt hr) fun hp => by rw [hm.eq_of_folderAt hp]
  | @temporary d hm part rest hpart =>
    have hp : s.disk.folderAt s.folder = .ok s.home := by
      rw [← s.making_withFolder.grows.folderAt hr, withFolder_of_makeFolders hm]
      exact folderAt_of_makeFolders hm
    obtain rfl : s.disk = d := (withFolder_of_folderAt hp).symm.trans (withFolder_of_makeFolders hm)
    exact read_congr ((folderAt_writeFile hp ..).trans hp.symm) fun _ => node?_writeFile_fileName ..

/-- A stopped write leaves a folder that was not found as it was, or made. -/
theorem folderAt_of_regular (h : s.Stopped key value d) (hs : s.Regular)
    (hr : s.disk.folderAt s.folder = .error .notFound) :
    d.folderAt s.folder = .error .notFound ∨ d.folderAt s.folder = .ok s.home := by
  cases h with
  | folders hm => exact hs.tree.folderAt_of_grows hm.grows hs.direct hs.fits hr
  | temporary hm => exact .inr (folderAt_writeFile (folderAt_of_makeFolders hm) ..)

/-- A stopped write puts no key's file into a regular folder. -/
theorem node?_of_regular (h : s.Stopped key value d) (hs : s.Regular) (k : Text) :
    d.node? (s.home ++ [fileName k]) = s.disk.node? (s.home ++ [fileName k]) := by
  cases h with
  | folders hm => exact hm.node?_of_direct hs.direct _
  | temporary hm =>
    rw [node?_writeFile_fileName, ← withFolder_of_makeFolders hm]
    exact s.making_withFolder.node?_of_direct hs.direct _

/-- With a regular folder, found or not, a stopped write is not noticed under a key whose file name
is not too long. -/
theorem read_eq_of_regular (h : s.Stopped key value d) (hs : s.Regular)
    (hk : tooLong (fileName k) = false) : read ⟨s.folder, d⟩ k = s.read k := by
  by_cases hr : s.disk.folderAt s.folder = .error .notFound
  · have hnone : d.node? (s.home ++ [fileName k]) = none :=
      (h.node?_of_regular hs k).trans (hs.node?_of_notFound hr _)
    rw [read_of_notFound hr]
    obtain hd | hd := h.folderAt_of_regular hs hr
    · exact read_of_notFound (s := ⟨s.folder, d⟩) hd k
    · exact read_of_node?_eq_none (s := ⟨s.folder, d⟩) hd hk hnone
  · exact h.read_eq hr k

/-- A text that is read on the disk of a stopped write was read before, or lay where the folder was
not found. -/
theorem read_eq_some (h : s.Stopped key value d) (ht : read ⟨s.folder, d⟩ k = .ok (some t)) :
    s.read k = .ok (some t) ∨ s.Hidden k t := by
  by_cases hr : s.disk.folderAt s.folder = .error .notFound
  · exact .inr ⟨hr, h.node?_file (read_eq_some_iff.1 ht).2.2⟩
  · exact .inl ((h.read_eq hr k).symm.trans ht)

/-- A text that was read before is still read. -/
theorem read_of_eq_some (h : s.Stopped key value d) (ht : s.read k = .ok (some t)) :
    read ⟨s.folder, d⟩ k = .ok (some t) := by
  have hr : s.disk.folderAt s.folder ≠ .error .notFound := by
    rw [(read_eq_some_iff.1 ht).1]
    simp
  rw [h.read_eq hr, ht]

end Stopped

/-! ## The renaming -/

namespace Stages

theorem stopped (h : s.Stages key value d e f) : s.Stopped key value e := by
  have := stopped_of_written (k := key) (v := value) h.made
  rwa [h.written] at this

/-- The renaming is seen under keys with the same file only. -/
theorem read_of_stem_ne (h : s.Stages key value d e f) (hk : stem k ≠ stem key) :
    read ⟨s.folder, f⟩ k = read ⟨s.folder, e⟩ k := by
  refine read_congr (s := ⟨s.folder, e⟩) (h.folderAt.trans h.folderAt_written.symm) fun _ => ?_
  have hfile : s.home ++ [fileName k] ≠ s.home ++ [fileName key] := by simpa [fileName_eq_iff]
  have htemporary : s.home ++ [fileName k] ≠ s.home ++ [temporaryName key] := by
    simpa using (temporaryName_ne_fileName key k).symm
  have he : e.node? (s.home ++ [fileName k]) = d.node? (s.home ++ [fileName k]) := by
    have := node?_writeFile_fileName d s.folder key k (bytesOf value) s.home
    rwa [h.written] at this
  show f.node? (s.home ++ [fileName k]) = e.node? (s.home ++ [fileName k])
  rw [h.node?, if_neg hfile, if_neg htemporary, he]

end Stages

/-- Writing is all or nothing. Wherever it is stopped before the renaming, each key that read as a
text reads as the same text, and a key that reads as a text did so before, or its file lay with that
text in a folder which the route did not find. On a tree, that takes a route that goes back out of a
missing folder. Every key reads as before unless the folder was not found, and even then if the
route does not go back and neither it nor the key has a name that is too long. A write that is
refused is stopped there. One that is granted ends with the renaming: then its key reads as the new
text, and no key with another file is changed by it. It is granted if the folder can be made, the
name of the temporary file is not too long, and no folder is in the place of one of the files. -/
theorem write_atomic (s : FileStore) (key value : Text) :
    (∀ d, s.Stopped key value d → ∀ k,
      (∀ t, s.read k = .ok (some t) → read ⟨s.folder, d⟩ k = .ok (some t)) ∧
      (∀ t, read ⟨s.folder, d⟩ k = .ok (some t) → s.read k = .ok (some t) ∨ s.Hidden k t) ∧
      (s.disk.folderAt s.folder ≠ .error .notFound → read ⟨s.folder, d⟩ k = s.read k) ∧
      (s.Regular → tooLong (fileName k) = false → read ⟨s.folder, d⟩ k = s.read k)) ∧
    (s.disk.IsTree → s.disk.Direct s.folder → ∀ k t, ¬ s.Hidden k t) ∧
    ((∃ x d, s.Stopped key value d ∧ s.write key value = (.error (.file x), ⟨s.folder, d⟩)) ∨
      ∃ e f, s.Stopped key value e ∧
        e.renameFile s.folder (temporaryName key) (fileName key) = (.ok (), f) ∧
        s.write key value = (.ok (), ⟨s.folder, f⟩) ∧
        read ⟨s.folder, f⟩ key = .ok (some value) ∧
        ∀ k, stem k ≠ stem key → read ⟨s.folder, f⟩ k = read ⟨s.folder, e⟩ k) ∧
    ((s.write key value).1 = .ok () ↔
      (s.disk.makeFolders s.folder).1 = .ok () ∧ tooLong (temporaryName key) = false ∧
        s.withFolder.node? (s.home ++ [temporaryName key]) ≠ some .folder ∧
        s.withFolder.node? (s.home ++ [fileName key]) ≠ some .folder) := by
  refine ⟨fun d h k => ⟨fun t => h.read_of_eq_some, fun t => h.read_eq_some, fun hr =>
    h.read_eq hr k, h.read_eq_of_regular⟩, not_hidden, ?_, write_eq_ok_iff⟩
  obtain hrefused | ⟨d, e, f, h, hw⟩ := s.write_cases key value
  · exact .inl hrefused
  · exact .inr ⟨e, f, h.stopped, h.renamed, hw, h.read_self, fun k => h.read_of_stem_ne⟩

/-- A write that is refused can be noticed where the folder was missing. On an empty disk a key that
is too long reads as nothing, and as an error once the folder is made; and so does each key where a
name in the route is too long, once the folders in front of that name are made. And with a route
through a missing folder and back into one that is there, the old text of the key is only found once
the missing folder is made. -/
theorem refused_write_seen :
    (let s : FileStore := ⟨["d".toList], .empty⟩
     let key := List.replicate 300 'x'
     s.read key = .ok none ∧ (s.write key ['v']).1 = .error (.file .nameTooLong) ∧
       (s.write key ['v']).2.read key = .error (.file .nameTooLong)) ∧
    (let s : FileStore := ⟨["d".toList, List.replicate 300 'x'], .empty⟩
     s.read ['k'] = .ok none ∧ (s.write ['k'] ['v']).1 = .error (.file .nameTooLong) ∧
       (s.write ['k'] ['v']).2.read ['k'] = .error (.file .nameTooLong)) ∧
    (let disk : Disk := ⟨⟨[(["b".toList], .folder),
       (["b".toList, "k.json".toList], .file (bytesOf ['v'])),
       (["b".toList, "k.json.tmp".toList], .folder)]⟩⟩
     let s : FileStore := ⟨["a".toList, "..".toList, "b".toList], disk⟩
     s.read ['k'] = .ok none ∧ (s.write ['k'] ['w']).1 = .error (.file .isADirectory) ∧
       (s.write ['k'] ['w']).2.read ['k'] = .ok (some ['v'])) := by
  decide +kernel

end FileStore

end PocketCalc
