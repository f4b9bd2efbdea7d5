import PocketCalc.Proofs.Storage.KeyFile
import PocketCalc.Storage.Memory

/-!
# The store on disk is a map

As long as nobody else touches its folder and no write is refused, a store on disk answers as a
store in memory under the stems of the keys. The folder may be missing at first, but it must be
missing and not out of reach, and the making of it must not put a folder under the name of a key's
file.

* `vacant_of_empty`, `vacant_of_missing`: folders to begin with.
* `Mirrors.read`, `Mirrors.write`: what one call answers and keeps.
* `Mirrors.afterAll`, `Mirrors.answers`: the same for a run of calls.
* `Writable.grants`: a run in which no write is refused.
* `refines_memory`: all answers, and the files that are touched for them.
* `answers_ne_memory`: routes that cannot be used, or spoil the folder.
-/

namespace PocketCalc

namespace Store

/-- A question to a store. -/
inductive Call where
  | read (key : Text)
  | write (key value : Text)

namespace Call

/-- The key that a call is about. -/
def key : Call → Text
  | .read key => key
  | .write key _ => key

/-- The call with another key. -/
def rename (f : Text → Text) : Call → Call
  | .read key => .read (f key)
  | .write key value => .write (f key) value

theorem rename_eq_self {f : Text → Text} {c : Call} (h : f c.key = c.key) : c.rename f = c := by
  cases c <;> simpa [rename, key] using h

end Call

variable {σ : Type} [Store σ]

/-- The store after a call. -/
def after (s : σ) : Call → σ
  | .read key => (Store.read s key).2
  | .write key value => (Store.write s key value).2

/-- The store after some calls. -/
def afterAll (s : σ) (cs : List Call) : σ := cs.foldl after s

/-- What a store answers to the reads among some calls. -/
def answers (s : σ) : List Call → List (Except StoreError (Option Text))
  | [] => []
  | .read key :: cs => (Store.read s key).1 :: answers (Store.read s key).2 cs
  | .write key value :: cs => answers (Store.write s key value).2 cs

/-- No write among some calls is refused. -/
def Grants (s : σ) : List Call → Prop
  | [] => True
  | .read key :: cs => Grants (Store.read s key).2 cs
  | .write key value :: cs =>
    (Store.write s key value).1 = .ok () ∧ Grants (Store.write s key value).2 cs

instance decidableGrants : (s : σ) → (cs : List Call) → Decidable (Grants s cs)
  | _, [] => isTrue trivial
  | s, .read key :: cs => decidableGrants (Store.read s key).2 cs
  | s, .write key value :: cs =>
    @instDecidableAnd _ _ _ (decidableGrants (Store.write s key value).2 cs)

theorem Grants.of_append {s : σ} {cs more : List Call} (h : Grants s (cs ++ more)) :
    Grants s cs := by
  induction cs generalizing s with
  | nil => trivial
  | cons c cs ih =>
    cases c with
    | read key => exact ih h
    | write key value => exact ⟨h.1, ih h.2⟩

end Store

open Disk Store

namespace FileStore

variable {s : FileStore} {m : MemoryStore} {k v : Text} {p q : Path} {cs : List Call}

/-! ## Folders to begin with -/

/-- A folder to begin with: it is there, or it is not found; and once it is made, no key has a file
in it. -/
structure Vacant (s : FileStore) : Prop where
  found : (∃ p, s.disk.folderAt s.folder = .ok p) ∨ s.disk.folderAt s.folder = .error .notFound
  empty (k : Text) : s.withFolder.node? (s.home ++ [fileName k]) = none

theorem vacant_of_empty (h : s.disk.folderAt s.folder = .ok p)
    (hempty : ∀ name, s.disk.node? (p ++ [name]) = none) : s.Vacant where
  found := .inl ⟨p, h⟩
  empty k := by
    rw [withFolder_of_folderAt h, home, ← eq_place_of_folderAt h]
    exact hempty _

/-- On a tree, a folder that is missing will do, with a route that does not go back out of it. -/
theorem vacant_of_missing (ht : s.disk.IsTree) (hr : s.disk.Direct s.folder)
    (h : s.disk.folderAt s.folder = .error .notFound) : s.Vacant where
  found := .inr h
  empty k := by
    rw [home, s.making_withFolder.node?_of_direct hr]
    cases hn : s.disk.node? (place [] s.folder ++ [fileName k]) with
    | none => rfl
    | some n => exact absurd h (ht.folderAt_ne_notFound hr hn)

/-! ## One call -/

/-- The texts in the folder are those of a store in memory under the stems of the keys. If the
folder is not found, there are none yet. -/
structure Mirrors (s : FileStore) (m : MemoryStore) : Prop where
  found : s.disk.folderAt s.folder = .ok s.home ∨
    s.disk.folderAt s.folder = .error .notFound ∧ ∀ k, m.find? (stem k) = none
  file (k : Text) : s.withFolder.node? (s.home ++ [fileName k]) =
    (m.find? (stem k)).map fun t => .file (bytesOf t)

theorem Vacant.mirrors (h : s.Vacant) : s.Mirrors .empty where
  found := by
    obtain ⟨p, hp⟩ | hp := h.found
    · obtain rfl := eq_place_of_folderAt hp
      exact .inl hp
    · exact .inr ⟨hp, fun _ => rfl⟩
  file := h.empty

theorem Mirrors.read (h : s.Mirrors m) (hk : tooLong (fileName k) = false) :
    s.read k = .ok (m.find? (stem k)) := by
  obtain hp | ⟨hp, hm⟩ := h.found
  · have hfile := h.file k
    rw [withFolder_of_folderAt hp] at hfile
    cases hm : m.find? (stem k) with
    | none => exact read_of_node?_eq_none hp hk (by rw [hfile, hm]; rfl)
    | some t => exact read_eq_some_iff.2 ⟨hp, hk, by rw [hfile, hm]; rfl⟩
  · rw [read_of_notFound hp, hm]

theorem Mirrors.write (h : s.Mirrors m) (hw : (s.write k v).1 = .ok ()) :
    (s.write k v).2.Mirrors (m.put (stem k) v) := by
  obtain ⟨d, e, f, hst, hs⟩ := exists_stages_of_write_ok hw
  rw [hs]
  refine ⟨.inl hst.folderAt, fun j => ?_⟩
  have htemporary : s.home ++ [fileName j] ≠ s.home ++ [temporaryName k] := by
    simpa using (temporaryName_ne_fileName k j).symm
  have hfind : (m.put (stem k) v).find? (stem j) =
      if stem j = stem k then some v else m.find? (stem j) := m.texts.find?_put ..
  show (withFolder ⟨s.folder, f⟩).node? (s.home ++ [fileName j]) = _
  rw [hst.withFolder_renamed, hst.node?, if_neg htemporary, ← withFolder_of_makeFolders hst.made,
    h.file, hfind]
  by_cases hj : stem j = stem k
  · rw [if_pos hj, if_pos (by rw [fileName_eq_iff.2 hj])]
    rfl
  · have hfile : s.home ++ [fileName j] ≠ s.home ++ [fileName k] := by simpa [fileName_eq_iff]
    rw [if_neg hj, if_neg hfile]

/-! ## A run of calls -/

/-- The text that a call puts into the file of a key. -/
def put? (k : Text) : Call → Option Text
  | .read _ => none
  | .write key value => if stem key = stem k then some value else none

/-- The text that the last of some calls to do so puts into the file of a key. -/
def latest (cs : List Call) (k : Text) : Option Text := cs.reverse.findSome? (put? k)

theorem latest_concat (cs : List Call) (c : Call) (k : Text) :
    latest (cs ++ [c]) k = (put? k c).or (latest cs k) := by
  rw [latest, List.reverse_append, List.reverse_singleton, List.singleton_append,
    List.findSome?_cons]
  cases put? k c <;> rfl

/-- A store in memory under the stems has the latest text of each file. -/
theorem find?_afterAll (cs : List Call) (k : Text) :
    (afterAll MemoryStore.empty (cs.map (.rename stem))).find? (stem k) = latest cs k := by
  induction cs using List.reverseRecOn with
  | nil => rfl
  | append_singleton cs c ih =>
    rw [latest_concat, ← ih, List.map_append, afterAll, List.foldl_append]
    cases c with
    | read key => rfl
    | write key value =>
      refine (Table.find?_put _ (stem key) value (stem k)).trans ?_
      by_cases hk : stem key = stem k
      · simp [put?, hk]
      · simp [put?, hk, Ne.symm hk, MemoryStore.find?, afterAll]

theorem Mirrors.afterAll (h : s.Mirrors m) (hg : Grants s cs) :
    Mirrors (afterAll s cs) (afterAll m (cs.map (.rename stem))) := by
  induction cs generalizing s m with
  | nil => exact h
  | cons c cs ih =>
    cases c with
    | read key => exact ih h hg
    | write key value => exact ih (h.write hg.1) hg.2

theorem Mirrors.answers (h : s.Mirrors m) (hg : Grants s cs)
    (hk : ∀ k, .read k ∈ cs → tooLong (fileName k) = false) :
    answers s cs = answers m (cs.map (.rename stem)) := by
  induction cs generalizing s m with
  | nil => rfl
  | cons c cs ih =>
    have hk' := fun k hm => hk k (List.mem_cons_of_mem c hm)
    cases c with
    | read key => exact congrArg₂ List.cons (h.read (hk key List.mem_cons_self)) (ih h hg hk')
    | write key value => exact ih (h.write hg.1) hg.2 hk'

/-! ## When writes are granted -/

/-- The folder can be made, and there is no folder in it then. -/
structure Writable (s : FileStore) : Prop where
  made : (s.disk.makeFolders s.folder).1 = .ok ()
  free (name : Text) : s.withFolder.node? (s.home ++ [name]) ≠ some .folder

theorem Writable.write_ok (h : s.Writable) (hk : tooLong (temporaryName k) = false) (v : Text) :
    (s.write k v).1 = .ok () :=
  write_eq_ok_iff.2 ⟨h.made, hk, h.free _, h.free _⟩

theorem Writable.write (h : s.Writable) (hw : (s.write k v).1 = .ok ()) :
    (s.write k v).2.Writable := by
  obtain ⟨d, e, f, hst, hs⟩ := exists_stages_of_write_ok hw
  rw [hs]
  refine ⟨makeFolders_of_folderAt hst.folderAt, fun name => ?_⟩
  show (withFolder ⟨s.folder, f⟩).node? (s.home ++ [name]) ≠ some .folder
  rw [hst.withFolder_renamed, hst.node?]
  split
  · simp
  · split
    · simp
    · rw [← withFolder_of_makeFolders hst.made]
      exact h.free name

theorem Writable.grants (h : s.Writable)
    (hk : ∀ k v, .write k v ∈ cs → tooLong (temporaryName k) = false) : Grants s cs := by
  induction cs generalizing s with
  | nil => trivial
  | cons c cs ih =>
    have hk' := fun k v hm => hk k v (List.mem_cons_of_mem c hm)
    cases c with
    | read key => exact ih h hk'
    | write key value =>
      have hok := h.write_ok (hk key value List.mem_cons_self) value
      exact ⟨hok, ih (h.write hok) hk'⟩

/-! ## What is touched -/

/-- A write, granted or not, changes nothing but folders that it makes and two files in the folder
of the store: the key's own and its temporary file. -/
theorem node?_write_of_ne (h : (s.write k v).2.disk.node? q ≠ s.disk.node? q) :
    (s.disk.node? q = none ∧ (s.write k v).2.disk.node? q = some .folder) ∨
      q = s.home ++ [fileName k] ∨ q = s.home ++ [temporaryName k] := by
  obtain ⟨x, d, hstop, hw⟩ | ⟨d, e, f, hst, hw⟩ := s.write_cases k v
  · rw [hw] at h ⊢
    cases hstop with
    | folders hm => exact .inl (hm.grows.node?_of_ne h)
    | @temporary d hm part rest hpart =>
      by_cases hd : (d.writeFile s.folder (temporaryName k) part).2.node? q = d.node? q
      · obtain rfl : s.withFolder = d := withFolder_of_makeFolders hm
        simp only [hd] at h ⊢
        exact .inl (s.making_withFolder.grows.node?_of_ne h)
      · obtain ⟨p, hp, hq⟩ := node?_writeFile_of_ne hd
        obtain rfl := Except.ok.inj (hp.symm.trans (folderAt_of_makeFolders hm))
        exact .inr (.inr hq)
  · rw [hw] at h ⊢
    by_cases hfile : q = s.home ++ [fileName k]
    · exact .inr (.inl hfile)
    by_cases htemporary : q = s.home ++ [temporaryName k]
    · exact .inr (.inr htemporary)
    have hd : f.node? q = s.withFolder.node? q := by
      rw [hst.node?, if_neg hfile, if_neg htemporary, withFolder_of_makeFolders hst.made]
    simp only [hd] at h ⊢
    exact .inl (s.making_withFolder.grows.node?_of_ne h)

/-- A store on disk refines a map under the stems of the keys. From a folder to begin with, along
each run of calls in which no write is refused, a read of a key whose file name is not too long
answers the value of the last write to a key with the same stem, or that there is none. So the
answers are those of a store in memory under the stems, and those of a store in memory if all keys
are plain. If the folder can be made and has no folders in it, a write is refused only for a name
that is too long. No temporary file is the file of a key. In the folder a read depends on the key's
file only, and besides folders that it makes a write changes only that file and the temporary one;
both lie right in the folder, whatever the key is. -/
theorem refines_memory (hs : s.Vacant) (hg : Grants s cs)
    (hk : ∀ k, .read k ∈ cs → tooLong (fileName k) = false) :
    (∀ before k rest, cs = before ++ .read k :: rest →
      (Store.read (afterAll s before) k).1 = .ok (latest before k)) ∧
    answers s cs = answers MemoryStore.empty (cs.map (.rename stem)) ∧
    ((∀ c ∈ cs, ∀ x ∈ c.key, isPlain x = true) → answers s cs = answers MemoryStore.empty cs) ∧
    (s.Writable → ∀ calls, (∀ k v, .write k v ∈ calls → tooLong (temporaryName k) = false) →
      Grants s calls) ∧
    (∀ j k, temporaryName j ≠ fileName k) ∧
    (∀ (t : FileStore) (d : Disk) (key : Text), d.folderAt t.folder = t.disk.folderAt t.folder →
      d.node? (t.home ++ [fileName key]) = t.disk.node? (t.home ++ [fileName key]) →
      FileStore.read ⟨t.folder, d⟩ key = t.read key) ∧
    ∀ (t : FileStore) (key value : Text) (q : Path),
      (t.write key value).2.disk.node? q ≠ t.disk.node? q →
      (t.disk.node? q = none ∧ (t.write key value).2.disk.node? q = some .folder) ∨
        ∃ name, (name = fileName key ∨ name = temporaryName key) ∧ IsName name ∧
          q = t.home ++ [name] := by
  have hanswers : answers s cs = answers MemoryStore.empty (cs.map (.rename stem)) :=
    hs.mirrors.answers hg hk
  refine ⟨?_, hanswers, fun hplain => ?_, fun hw calls => hw.grants, temporaryName_ne_fileName,
    fun t d key hr hn => read_congr hr fun _ => hn, fun t key value q hq => ?_⟩
  · rintro before k rest rfl
    have hafter := hs.mirrors.afterAll hg.of_append
    exact (hafter.read (hk k (by simp))).trans (congrArg _ (find?_afterAll before k))
  · have hmap : cs.map (.rename stem) = cs :=
      (List.map_congr_left fun c hc => Call.rename_eq_self (stem_of_isPlain (hplain c hc))).trans
        (List.map_id cs)
    rw [hanswers, hmap]
  · obtain hfolder | rfl | rfl := node?_write_of_ne hq
    · exact .inl hfolder
    · exact .inr ⟨_, .inl rfl, isName_fileName key, rfl⟩
    · exact .inr ⟨_, .inr rfl, isName_temporaryName key, rfl⟩

/-- A missing folder, and keys with a slash, with points, without characters and with others than
plain ones, two of them with one file. -/
theorem refines_memory_of_odd_keys :
    let s : FileStore := ⟨["data".toList, "calc".toList], .empty⟩
    let cs : List Call := [.read "a/b".toList, .write "a/b".toList "1".toList,
      .write [] "é".toList, .write "a.b".toList "2".toList, .read "a/b".toList, .read [],
      .read "..".toList]
    s.Vacant ∧ Grants s cs ∧ (∀ k, .read k ∈ cs → tooLong (fileName k) = false) ∧
      answers s cs = [.ok none, .ok (some "2".toList), .ok (some "é".toList), .ok none] := by
  intro s cs
  have hs : s.Vacant := vacant_of_missing isTree_empty (direct_of_not_mem (by decide)) rfl
  have hg : Grants s cs := by decide +kernel
  have hk : ∀ k, .read k ∈ cs → tooLong (fileName k) = false := by
    intro k hk
    simp only [cs, List.mem_cons, Call.read.injEq, reduceCtorEq, false_or, List.not_mem_nil,
      or_false] at hk
    obtain rfl | rfl | rfl | rfl := hk <;> decide +kernel
  refine ⟨hs, hg, hk, (refines_memory hs hg hk).2.1.trans ?_⟩
  decide +kernel

/-- A route that does not make do. Through a file every read is refused, though there is no folder.
And a route that goes back out of a folder which it makes can make it under the name of a key's
file: reads of that key are then refused, though all writes are granted. -/
theorem answers_ne_memory :
    (let s : FileStore := ⟨["f".toList, "g".toList], ⟨⟨[(["f".toList], .file (bytesOf []))]⟩⟩⟩
     s.disk.node? s.home = none ∧ answers s [.read ['k']] = [.error (.file .notADirectory)]) ∧
    (let s : FileStore := ⟨["a".toList, "k.json".toList, "..".toList], .empty⟩
     let cs : List Call := [.read ['k'], .write ['j'] ['v'], .read ['k']]
     s.disk.folderAt s.folder = .error .notFound ∧ Grants s cs ∧ latest cs ['k'] = none ∧
      answers s cs = [.ok none, .error (.file .isADirectory)]) := by
  decide +kernel

end FileStore

end PocketCalc
