import PocketCalc.Proofs.Storage.Folders
import PocketCalc.Storage.Files

/-!
# The file of a key

What a key reads as is decided by one node, the one under the name of its file in the folder of the
store. That name is a plain name whatever the key is, and no temporary file has it. A write goes
through three disks: one with the folder, one with the temporary file too, and one where that file
has its new name.

* `isName_fileName`, `isName_temporaryName`, `temporaryName_ne_fileName`: the names.
* `read_eq_some_iff`: when a key reads as a text.
* `write_cases`: a write is stopped on the way, or goes through its three disks.
* `Stages.node?`: what a write leaves behind.
* `write_eq_ok_iff`: when a write is granted.
-/

namespace PocketCalc

open Disk

namespace FileStore

variable {s : FileStore} {j k t v : Text} {d e f : Disk} {p q : Path}

/-! ## Names -/

theorem stem_of_isPlain (h : ∀ c ∈ k, isPlain c = true) : stem k = k :=
  (List.map_congr_left fun c hc => if_pos (h c hc)).trans (List.map_id k)

theorem fileName_eq_iff : fileName j = fileName k ↔ stem j = stem k := by simp [fileName]

/-- No temporary file has the name of a key's file. -/
theorem temporaryName_ne_fileName (j k : Text) : temporaryName j ≠ fileName k := by
  intro h
  have hlast := congrArg List.getLast? h
  simp [temporaryName, fileName, List.getLast?_append] at hlast

/-- The ending of a temporary file only adds to the name of the key's file. -/
theorem fileName_prefix_temporaryName (k : Text) : fileName k <+: temporaryName k := by
  unfold temporaryName
  split
  · exact List.prefix_append ..
  · exact ⟨".tmp".toList, by simp [fileName]⟩

theorem tooLong_of_prefix (h : j <+: k) (hk : tooLong k = false) : tooLong j = false := by
  obtain ⟨t, rfl⟩ := h
  simp only [tooLong, decide_eq_false_iff_not, String.ofList_append,
    String.utf8ByteSize_append] at hk ⊢
  omega

theorem tooLong_fileName (h : tooLong (temporaryName k) = false) : tooLong (fileName k) = false :=
  tooLong_of_prefix (fileName_prefix_temporaryName k) h

theorem isName_of_forall (h : ∀ c ∈ t, isPlain c = true ∨ c = '.') (hlen : 2 < t.length) :
    IsName t where
  single := by
    have hslash : ∀ c ∈ t, (c == '/') = false := by
      intro c hc
      obtain hplain | rfl := h c hc
      · have : c ≠ '/' := by rintro rfl; exact absurd hplain (by decide)
        simpa using this
      · decide
    have hne : t ≠ [] := by rintro rfl; simp at hlen
    rw [routeOf, List.splitOn, List.splitOnP_eq_singleton hslash]
    simp [hne]
  ne_same := by rintro rfl; simp [sameFolder] at hlen
  ne_outer := by rintro rfl; simp [outerFolder] at hlen

theorem isPlain_or_point_of_mem_fileName {c : Char} (hc : c ∈ fileName k) :
    isPlain c = true ∨ c = '.' := by
  obtain hc | hc := List.mem_append.1 hc
  · exact .inl (isPlain_of_mem_stem hc)
  · have hall : (".json".toList.all fun c => isPlain c || c == '.') = true := by decide
    simpa using List.all_eq_true.1 hall c hc

theorem isName_fileName (k : Text) : IsName (fileName k) :=
  isName_of_forall (fun _ => isPlain_or_point_of_mem_fileName) (by simp [fileName])

theorem isName_temporaryName (k : Text) : IsName (temporaryName k) := by
  refine isName_of_forall (fun c hc => ?_) (by simp [temporaryName])
  obtain hc | hc := List.mem_append.1 hc
  · split at hc
    · exact isPlain_or_point_of_mem_fileName hc
    · exact .inl (isPlain_of_mem_stem hc)
  · have hall : (".json.tmp".toList.all fun c => isPlain c || c == '.') = true := by decide
    simpa using List.all_eq_true.1 hall c hc

/-! ## Reading -/

/-- The path that the route of the folder leads to. -/
def home (s : FileStore) : Path := place [] s.folder

theorem fromUTF8?_eq_some_iff {b : ByteArray} {u : String} :
    String.fromUTF8? b = some u ↔ b = u.toUTF8 := by
  unfold String.fromUTF8?
  split
  · rw [Option.some_inj, ← String.toByteArray_inj]
    exact Iff.rfl
  · rename_i hb
    constructor
    · intro h
      cases h
    · rintro rfl
      exact absurd u.isValidUTF8 hb

theorem bytesOf_eq_toUTF8_iff {u : String} : u.toUTF8 = bytesOf t ↔ u.toList = t := by
  rw [bytesOf, String.toUTF8, String.toUTF8, String.toByteArray_inj]
  exact ⟨fun h => h ▸ String.toList_ofList, fun h => h ▸ String.ofList_toList.symm⟩

theorem readText_eq_ok_iff {r : Route} :
    d.readText r = .ok t ↔ d.readBytes r = .ok (bytesOf t) := by
  unfold Disk.readText
  cases d.readBytes r with
  | error x => simp
  | ok b =>
    cases hb : String.fromUTF8? b with
    | none =>
      have hne : b ≠ bytesOf t := by
        rintro rfl
        rw [bytesOf, fromUTF8?_eq_some_iff.2 rfl] at hb
        cases hb
      simp [hb, hne]
    | some u =>
      have htext : u.toList = t ↔ b = bytesOf t := by
        rw [fromUTF8?_eq_some_iff.1 hb]
        exact bytesOf_eq_toUTF8_iff.symm
      simpa [hb] using htext

theorem read_eq_some_iff_readBytes :
    s.read k = .ok (some t) ↔ s.disk.readBytes (s.fileRoute k) = .ok (bytesOf t) := by
  rw [← readText_eq_ok_iff, read]
  split <;> simp_all

/-- A key reads as a text if the folder is reached and the key's file has the bytes of the text. -/
theorem read_eq_some_iff : s.read k = .ok (some t) ↔ s.disk.folderAt s.folder = .ok s.home ∧
    tooLong (fileName k) = false ∧
    s.disk.node? (s.home ++ [fileName k]) = some (.file (bytesOf t)) := by
  rw [read_eq_some_iff_readBytes, fileRoute]
  cases hp : s.disk.folderAt s.folder with
  | error x => simp [readBytes_of_error hp]
  | ok p =>
    obtain rfl : p = s.home := eq_place_of_folderAt hp
    rw [readBytes_of_folderAt hp (isName_fileName k)]
    cases hlong : tooLong (fileName k) with
    | true => simp
    | false =>
      cases hn : s.disk.node? (s.home ++ [fileName k]) with
      | none => simp
      | some n => cases n <;> simp

theorem read_of_notFound (h : s.disk.folderAt s.folder = .error .notFound) (k : Text) :
    s.read k = .ok none := by
  rw [read, readText, fileRoute, readBytes_of_error h]

theorem read_of_node?_eq_none (hp : s.disk.folderAt s.folder = .ok p)
    (hk : tooLong (fileName k) = false) (hn : s.disk.node? (p ++ [fileName k]) = none) :
    s.read k = .ok none := by
  rw [read, readText, fileRoute, readBytes_of_folderAt hp (isName_fileName k), hk, hn]
  rfl

/-- A key that is read depends on the node of its own file only. -/
theorem read_congr (hr : d.folderAt s.folder = s.disk.folderAt s.folder)
    (h : s.disk.folderAt s.folder = .ok s.home →
      d.node? (s.home ++ [fileName k]) = s.disk.node? (s.home ++ [fileName k])) :
    read ⟨s.folder, d⟩ k = s.read k := by
  have hbytes : d.readBytes (s.folder ++ [fileName k]) =
      s.disk.readBytes (s.folder ++ [fileName k]) := by
    refine readBytes_congr hr (isName_fileName k) fun p hp => ?_
    obtain rfl := eq_place_of_folderAt hp
    exact h hp
  simp only [read, readText, fileRoute, hbytes]

/-! ## Writing -/

/-- The disk once the folder is made, as far as it can be made. -/
def withFolder (s : FileStore) : Disk := (s.disk.makeFolders s.folder).2

theorem making_withFolder (s : FileStore) : Making s.disk [] s.folder s.withFolder :=
  making_makeFoldersFrom s.disk [] s.folder

theorem withFolder_of_folderAt (h : s.disk.folderAt s.folder = .ok p) : s.withFolder = s.disk :=
  s.making_withFolder.eq_of_folderAt h

theorem withFolder_of_makeFolders {x : Except FileError Unit}
    (h : s.disk.makeFolders s.folder = (x, d)) : s.withFolder = d := congrArg Prod.snd h

/-- The disks on which a write can be stopped before its file is renamed: while the folders are
made, and while the bytes of the text, from the first on, are written to the temporary file. -/
inductive Stopped (s : FileStore) (key value : Text) : Disk → Prop where
  | folders {d : Disk} (h : Making s.disk [] s.folder d) : Stopped s key value d
  | temporary {d : Disk} (h : s.disk.makeFolders s.folder = (.ok (), d)) {part rest : ByteArray}
    (hpart : part ++ rest = bytesOf value) :
    Stopped s key value (d.writeFile s.folder (temporaryName key) part).2

/-- The disks of a write that is granted: with the folder, with the temporary file, and with that
file under its new name. -/
structure Stages (s : FileStore) (key value : Text) (d e f : Disk) : Prop where
  made : s.disk.makeFolders s.folder = (.ok (), d)
  written : d.writeFile s.folder (temporaryName key) (bytesOf value) = (.ok (), e)
  renamed : e.renameFile s.folder (temporaryName key) (fileName key) = (.ok (), f)

theorem stopped_of_written (h : s.disk.makeFolders s.folder = (.ok (), d)) :
    s.Stopped k v (d.writeFile s.folder (temporaryName k) (bytesOf v)).2 :=
  .temporary h ByteArray.append_empty

/-- A write is refused where it is stopped, or it is granted and goes through all stages. -/
theorem write_cases (s : FileStore) (k v : Text) :
    (∃ x d, s.Stopped k v d ∧ s.write k v = (.error (.file x), ⟨s.folder, d⟩)) ∨
      ∃ d e f, s.Stages k v d e f ∧ s.write k v = (.ok (), ⟨s.folder, f⟩) := by
  rcases hmade : s.disk.makeFolders s.folder with ⟨x | ⟨⟩, d⟩
  · have hstop : s.Stopped k v d :=
      .folders (withFolder_of_makeFolders hmade ▸ s.making_withFolder)
    exact .inl ⟨x, d, hstop, by simp [write, writeStages, runStages, hmade, Except.mapError]⟩
  have hstop := stopped_of_written (k := k) (v := v) hmade
  rcases hw : d.writeFile s.folder (temporaryName k) (bytesOf v) with ⟨x | ⟨⟩, e⟩
  · rw [hw] at hstop
    exact .inl ⟨x, e, hstop, by simp [write, writeStages, runStages, hmade, hw, Except.mapError]⟩
  rw [hw] at hstop
  obtain ⟨x, hr⟩ | ⟨p, content, -, -, -, -, hr⟩ :=
    renameFile_cases e s.folder (temporaryName k) (fileName k)
  · exact .inl ⟨x, e, hstop,
      by simp [write, writeStages, runStages, hmade, hw, hr, Except.mapError]⟩
  · exact .inr ⟨d, e, _, ⟨hmade, hw, hr⟩,
      by simp [write, writeStages, runStages, hmade, hw, hr, Except.mapError]⟩

theorem exists_stages_of_write_ok (h : (s.write k v).1 = .ok ()) :
    ∃ d e f, s.Stages k v d e f ∧ s.write k v = (.ok (), ⟨s.folder, f⟩) := by
  obtain ⟨x, d, -, hw⟩ | hok := s.write_cases k v
  · rw [hw] at h
    cases h
  · exact hok

namespace Stages

variable (h : s.Stages k v d e f)
include h

theorem folderAt_made : d.folderAt s.folder = .ok s.home := folderAt_of_makeFolders h.made

theorem written_eq : d.node? (s.home ++ [temporaryName k]) ≠ some .folder ∧
    tooLong (temporaryName k) = false ∧
    e = d.put (s.home ++ [temporaryName k]) (.file (bytesOf v)) := by
  obtain ⟨x, hw⟩ | ⟨p, hp, hn, hlong, hw⟩ :=
    writeFile_cases d s.folder (temporaryName k) (bytesOf v)
  · cases hw.symm.trans h.written
  · obtain rfl := Except.ok.inj (hp.symm.trans h.folderAt_made)
    exact ⟨hn, hlong, (Prod.mk.inj (hw.symm.trans h.written)).2.symm⟩

theorem folderAt_written : e.folderAt s.folder = .ok s.home := by
  have := folderAt_writeFile h.folderAt_made s.folder (temporaryName k) (bytesOf v)
  rwa [h.written] at this

theorem renamed_eq : e.node? (s.home ++ [fileName k]) ≠ some .folder ∧
    tooLong (fileName k) = false ∧
    f = (e.erase (s.home ++ [temporaryName k])).put (s.home ++ [fileName k])
      (.file (bytesOf v)) := by
  obtain ⟨x, hr⟩ | ⟨p, b, hp, hb, hn, hlong, hr⟩ :=
    renameFile_cases e s.folder (temporaryName k) (fileName k)
  · cases hr.symm.trans h.renamed
  · obtain rfl := Except.ok.inj (hp.symm.trans h.folderAt_written)
    obtain ⟨-, -, he⟩ := h.written_eq
    have hfile : e.node? (s.home ++ [temporaryName k]) = some (.file (bytesOf v)) := by
      rw [he, node?_put d (by simp), if_pos rfl]
    obtain rfl : b = bytesOf v := by simpa [hfile] using hb.symm
    exact ⟨hn, hlong, (Prod.mk.inj (hr.symm.trans h.renamed)).2.symm⟩

/-- A write changes the folders that were missing, the file of its key, and its temporary file,
which is gone afterwards. -/
theorem node? (q : Path) : f.node? q =
    if q = s.home ++ [fileName k] then some (.file (bytesOf v))
    else if q = s.home ++ [temporaryName k] then none
    else d.node? q := by
  obtain ⟨-, -, rfl⟩ := h.renamed_eq
  obtain ⟨-, -, rfl⟩ := h.written_eq
  rw [node?_put _ (by simp)]
  split
  · rfl
  · rw [node?_erase _ (by simp)]
    split
    · rfl
    · rename_i hq
      rw [node?_put d (by simp), if_neg hq]

theorem folderAt : f.folderAt s.folder = .ok s.home := by
  have := folderAt_renameFile h.folderAt_written s.folder (temporaryName k) (fileName k)
  rwa [h.renamed] at this

theorem withFolder_renamed : withFolder ⟨s.folder, f⟩ = f :=
  withFolder_of_folderAt (s := ⟨s.folder, f⟩) h.folderAt

theorem read_self : read ⟨s.folder, f⟩ k = .ok (some v) :=
  read_eq_some_iff.2 ⟨h.folderAt, h.renamed_eq.2.1, (h.node? _).trans (if_pos rfl)⟩

end Stages

/-- A write is granted if the folder can be made, the name of the temporary file is not too long,
and there is no folder in the place of one of the two files. -/
theorem write_eq_ok_iff : (s.write k v).1 = .ok () ↔
    (s.disk.makeFolders s.folder).1 = .ok () ∧ tooLong (temporaryName k) = false ∧
      s.withFolder.node? (s.home ++ [temporaryName k]) ≠ some .folder ∧
      s.withFolder.node? (s.home ++ [fileName k]) ≠ some .folder := by
  have hne : s.home ++ [fileName k] ≠ s.home ++ [temporaryName k] := by
    simpa using (temporaryName_ne_fileName k k).symm
  constructor
  · intro hok
    obtain ⟨d, e, f, h, -⟩ := exists_stages_of_write_ok hok
    obtain rfl : s.withFolder = d := withFolder_of_makeFolders h.made
    obtain ⟨htemporary, hlong, rfl⟩ := h.written_eq
    have hfile := h.renamed_eq.1
    rw [node?_put _ (by simp), if_neg hne] at hfile
    exact ⟨congrArg Prod.fst h.made, hlong, htemporary, hfile⟩
  · rintro ⟨hok, hlong, htemporary, hfile⟩
    have hmade : s.disk.makeFolders s.folder = (.ok (), s.withFolder) := Prod.ext hok rfl
    have hp : s.withFolder.folderAt s.folder = .ok s.home := folderAt_of_makeFolders hmade
    have hw := writeFile_eq hp hlong htemporary (bytesOf v)
    have hp' := folderAt_writeFile hp s.folder (temporaryName k) (bytesOf v)
    rw [hw] at hp'
    generalize he : s.withFolder.put (s.home ++ [temporaryName k]) (.file (bytesOf v)) = e at hw hp'
    have ho : e.node? (s.home ++ [temporaryName k]) = some (.file (bytesOf v)) := by
      rw [← he, node?_put _ (by simp), if_pos rfl]
    have hn : e.node? (s.home ++ [fileName k]) ≠ some .folder := by
      rwa [← he, node?_put _ (by simp), if_neg hne]
    have hr := renameFile_eq hp' ho (tooLong_fileName hlong) hn
    simp [write, writeStages, runStages, hmade, hw, hr, Except.mapError]

end FileStore

end PocketCalc
