import Mathlib.Data.List.Induction
import PocketCalc.Storage.Disk

/-!
# Routes and the folders along them

A route has a place, the path that it leads to whatever is there. Following it finds the node at
that place if there is a folder at each step on the way, and making the folders that are missing
changes nothing else. A route can go back out of a folder that was missing: then the folders made
are not all on the way to its place, and a folder may be found there that could not be reached
before.

* `follow_append`: a route in two parts.
* `Grows.follow`: what can be followed stays so while folders are made.
* `making_makeFoldersFrom`, `follow_of_makeFoldersFrom`: making the folders along a route.
* `Making.node?_of_direct`: with no way back out of a missing folder, nothing is put into the place.
* `IsTree.folderAt_of_grows`: on a tree, such a route leads to its place or is still not found while
  folders are made.
-/

namespace PocketCalc

namespace Disk

variable {d e : Disk} {p q : Path} {n m : Node} {r s : Route} {name : Text}

/-! ## Following a route -/

/-- The path that a route leads to from a path, whatever is there. -/
def place : Path → Route → Path
  | p, [] => p
  | p, name :: rest =>
    if name = sameFolder then place p rest
    else if name = outerFolder then place p.dropLast rest
    else place (p ++ [name]) rest

theorem eq_place_of_follow (h : d.follow p n r = .ok (q, m)) : q = place p r := by
  fun_induction follow d p n r with
  | case1 p n => cases h; rfl
  | case2 | case5 | case6 => cases h
  | case3 p rest ih => simpa [place] using ih h
  | case4 p rest hne ih => simpa [place, hne] using ih h
  | case7 p name rest h₁ h₂ h₃ n hn ih => simpa [place, h₁, h₂] using ih h

theorem follow_append (d : Disk) (p : Path) (n : Node) (r s : Route) :
    d.follow p n (r ++ s) = match d.follow p n r with
      | .ok (q, m) => d.follow q m s
      | .error x => .error x := by
  fun_induction follow d p n r with
  | case1 => rfl
  | case2 => simp [follow]
  | case3 p rest ih => simpa [follow] using ih
  | case4 p rest hne ih => simpa [follow, hne] using ih
  | case5 p name rest h₁ h₂ h₃ => simp [follow, h₁, h₂, h₃]
  | case6 p name rest h₁ h₂ h₃ hn => simp [follow, h₁, h₂, h₃, hn]
  | case7 p name rest h₁ h₂ h₃ n hn ih => simpa [follow, h₁, h₂, h₃, hn] using ih

theorem folderAt_eq_ok_iff : d.folderAt r = .ok p ↔ d.follow [] .folder r = .ok (p, .folder) := by
  unfold folderAt
  split <;> simp_all

theorem eq_place_of_folderAt (h : d.folderAt r = .ok p) : p = place [] r :=
  eq_place_of_follow (folderAt_eq_ok_iff.1 h)

/-! ## Names -/

/-- A name that leads from a folder to a node right in it: as a route it is a single name, and not
one of the two that do not lead into a folder. -/
structure IsName (t : Text) : Prop where
  single : routeOf t = [t]
  ne_same : t ≠ sameFolder
  ne_outer : t ≠ outerFolder

theorem follow_name (hn : IsName name) (d : Disk) (p : Path) :
    d.follow p .folder [name] =
      if tooLong name then .error .nameTooLong
      else match d.node? (p ++ [name]) with
        | none => .error .notFound
        | some m => .ok (p ++ [name], m) := by
  rw [follow, if_neg hn.ne_same, if_neg hn.ne_outer]
  rfl

/-- The bytes of a file that is named in a folder. -/
theorem readBytes_of_folderAt (h : d.folderAt r = .ok p) (hn : IsName name) :
    d.readBytes (r ++ [name]) =
      if tooLong name then .error .nameTooLong
      else match d.node? (p ++ [name]) with
        | none => .error .notFound
        | some .folder => .error .isADirectory
        | some (.file content) => .ok content := by
  rw [readBytes, follow_append, folderAt_eq_ok_iff.1 h]
  simp only [follow_name hn]
  by_cases hlong : tooLong name = true
  · simp [hlong]
  · cases hm : d.node? (p ++ [name]) with
    | none => simp [hlong]
    | some m => cases m <;> simp [hlong]

theorem readBytes_of_error {x : FileError} (h : d.folderAt r = .error x) (name : Text) :
    d.readBytes (r ++ [name]) = .error x := by
  rw [readBytes, follow_append]
  rw [folderAt] at h
  cases hr : d.follow [] .folder r with
  | error y => simpa [hr] using h
  | ok qm =>
    obtain ⟨q, m⟩ := qm
    cases m with
    | folder => simp [hr] at h
    | file content => simpa [hr, follow] using h

/-- A file that is named in a folder depends on its own node only. -/
theorem readBytes_congr (hr : e.folderAt r = d.folderAt r) (hn : IsName name)
    (h : ∀ p, d.folderAt r = .ok p → e.node? (p ++ [name]) = d.node? (p ++ [name])) :
    e.readBytes (r ++ [name]) = d.readBytes (r ++ [name]) := by
  cases hd : d.folderAt r with
  | error x => rw [readBytes_of_error hd, readBytes_of_error (hr.trans hd)]
  | ok p => rw [readBytes_of_folderAt hd hn, readBytes_of_folderAt (hr.trans hd) hn, h p hd]

/-- A route leads to a folder as long as no folder is lost. -/
theorem folderAt_of_folders (h : ∀ q, d.node? q = some .folder → e.node? q = some .folder)
    (hd : d.folderAt r = .ok p) : e.folderAt r = .ok p :=
  folderAt_eq_ok_iff.2 (follow_of_folders h (folderAt_eq_ok_iff.1 hd))

/-! ## Files in a folder -/

theorem writeFile_cases (d : Disk) (r : Route) (name : Text) (content : ByteArray) :
    (∃ x, d.writeFile r name content = (.error x, d)) ∨
      ∃ p, d.folderAt r = .ok p ∧ d.node? (p ++ [name]) ≠ some .folder ∧ tooLong name = false ∧
        d.writeFile r name content = (.ok (), d.put (p ++ [name]) (.file content)) := by
  unfold writeFile
  cases hr : d.folderAt r with
  | error x => exact .inl ⟨x, rfl⟩
  | ok p =>
    cases hlong : tooLong name with
    | true => exact .inl ⟨.nameTooLong, by simp⟩
    | false =>
      by_cases hn : d.node? (p ++ [name]) = some .folder
      · exact .inl ⟨.isADirectory, by simp [hn]⟩
      · exact .inr ⟨p, rfl, hn, rfl, by simp⟩

theorem renameFile_cases (d : Disk) (r : Route) (old new : Text) :
    (∃ x, d.renameFile r old new = (.error x, d)) ∨
      ∃ p content, d.folderAt r = .ok p ∧ d.node? (p ++ [old]) = some (.file content) ∧
        d.node? (p ++ [new]) ≠ some .folder ∧ tooLong new = false ∧
        d.renameFile r old new =
          (.ok (), (d.erase (p ++ [old])).put (p ++ [new]) (.file content)) := by
  unfold renameFile
  cases hr : d.folderAt r with
  | error x => exact .inl ⟨x, rfl⟩
  | ok p =>
    cases ho : d.node? (p ++ [old]) with
    | none => exact .inl ⟨.notFound, by simp [ho]⟩
    | some n =>
      cases n with
      | folder => exact .inl ⟨.notFound, by simp [ho]⟩
      | file content =>
        cases hlong : tooLong new with
        | true => exact .inl ⟨.nameTooLong, by simp [ho]⟩
        | false =>
          by_cases hn : d.node? (p ++ [new]) = some .folder
          · exact .inl ⟨.isADirectory, by simp [ho, hn]⟩
          · exact .inr ⟨p, content, rfl, ho, hn, rfl, by simp [ho]⟩

theorem writeFile_eq (h : d.folderAt r = .ok p) (hlong : tooLong name = false)
    (hn : d.node? (p ++ [name]) ≠ some .folder) (content : ByteArray) :
    d.writeFile r name content = (.ok (), d.put (p ++ [name]) (.file content)) := by
  simp [writeFile, h, hlong]

theorem renameFile_eq {old new : Text} {content : ByteArray} (h : d.folderAt r = .ok p)
    (ho : d.node? (p ++ [old]) = some (.file content)) (hlong : tooLong new = false)
    (hn : d.node? (p ++ [new]) ≠ some .folder) : d.renameFile r old new =
      (.ok (), (d.erase (p ++ [old])).put (p ++ [new]) (.file content)) := by
  simp [renameFile, h, ho, hlong]

theorem node?_writeFile_of_ne {content : ByteArray}
    (h : (d.writeFile r name content).2.node? q ≠ d.node? q) :
    ∃ p, d.folderAt r = .ok p ∧ q = p ++ [name] := by
  obtain ⟨x, hw⟩ | ⟨p, hp, -, -, hw⟩ := writeFile_cases d r name content
  · exact absurd (by rw [hw]) h
  · refine ⟨p, hp, ?_⟩
    by_contra hne
    exact h (by rw [hw, node?_put d (by simp), if_neg hne])

theorem folderAt_writeFile (h : d.folderAt s = .ok p) (r : Route) (name : Text)
    (content : ByteArray) : (d.writeFile r name content).2.folderAt s = .ok p := by
  obtain ⟨x, hw⟩ | ⟨p', -, hn, -, hw⟩ := writeFile_cases d r name content
  · rwa [hw]
  · rw [hw]
    refine folderAt_of_folders (fun q hq => ?_) h
    have hne : q ≠ p' ++ [name] := by rintro rfl; exact hn hq
    rw [node?_put d (by simp), if_neg hne, hq]

theorem folderAt_renameFile (h : d.folderAt s = .ok p) (r : Route) (old new : Text) :
    (d.renameFile r old new).2.folderAt s = .ok p := by
  obtain ⟨x, hr⟩ | ⟨p', content, -, ho, hn, -, hr⟩ := renameFile_cases d r old new
  · rwa [hr]
  · rw [hr]
    refine folderAt_of_folders (fun q hq => ?_) h
    have hnew : q ≠ p' ++ [new] := by rintro rfl; exact hn hq
    have hold : q ≠ p' ++ [old] := by rintro rfl; simp [ho] at hq
    rw [node?_put _ (by simp), if_neg hnew, node?_erase d (by simp), if_neg hold, hq]

/-! ## More folders -/

/-- One disk has all that the other has, and besides that only folders. -/
structure Grows (d e : Disk) : Prop where
  kept {q : Path} {n : Node} (h : d.node? q = some n) : e.node? q = some n
  folder {q : Path} {n : Node} (h : d.node? q = none) (hn : e.node? q = some n) : n = .folder

theorem Grows.refl (d : Disk) : Grows d d where
  kept h := h
  folder h hn := by simp [h] at hn

theorem Grows.put_folder (hp : p ≠ []) (h : d.node? p = none) (hg : Grows (d.put p .folder) e) :
    Grows d e where
  kept {q n} hq := by
    refine hg.kept ?_
    have hne : q ≠ p := by rintro rfl; simp [h] at hq
    rw [node?_put d hp, if_neg hne, hq]
  folder {q n} hq hn := by
    by_cases hne : q = p
    · subst hne
      have := hg.kept (q := q) (n := .folder) (by rw [node?_put d hp, if_pos rfl])
      exact Option.some.inj (hn.symm.trans this)
    · exact hg.folder (by rw [node?_put d hp, if_neg hne, hq]) hn

theorem Grows.node?_of_ne (h : Grows d e) (hq : e.node? q ≠ d.node? q) :
    d.node? q = none ∧ e.node? q = some .folder := by
  cases hd : d.node? q with
  | some n => exact absurd ((h.kept hd).trans hd.symm) hq
  | none =>
    cases he : e.node? q with
    | none => exact absurd (he.trans hd.symm) hq
    | some n => exact ⟨rfl, congrArg some (h.folder hd he)⟩

/-- A file is none of the new nodes. -/
theorem Grows.node?_file (h : Grows d e) {content : ByteArray}
    (he : e.node? q = some (.file content)) : d.node? q = some (.file content) := by
  cases hd : d.node? q with
  | none => cases h.folder hd he
  | some n => exact (h.kept hd).symm.trans he

/-- Where following a route ends, or is refused for another reason than that nothing is found, it
does so with more folders too. -/
theorem Grows.follow (h : Grows d e) (hd : d.follow p n r ≠ .error .notFound) :
    e.follow p n r = d.follow p n r := by
  fun_induction Disk.follow d p n r with
  | case1 => rfl
  | case2 => rfl
  | case3 p rest ih => simpa [Disk.follow] using ih hd
  | case4 p rest hne ih => simpa [Disk.follow, hne] using ih hd
  | case5 p name rest h₁ h₂ h₃ => simp [Disk.follow, h₁, h₂, h₃]
  | case6 => exact absurd rfl hd
  | case7 p name rest h₁ h₂ h₃ n hn ih =>
    simpa [Disk.follow, h₁, h₂, h₃, h.kept hn] using ih hd

theorem folderAt_eq_notFound_iff :
    d.folderAt r = .error .notFound ↔ d.follow [] .folder r = .error .notFound := by
  unfold folderAt
  split <;> simp_all

theorem Grows.folderAt (h : Grows d e) (hd : d.folderAt r ≠ .error .notFound) :
    e.folderAt r = d.folderAt r := by
  unfold Disk.folderAt
  rw [h.follow fun hf => hd (folderAt_eq_notFound_iff.2 hf)]

/-! ## Making folders -/

/-- The disks on the way while the folders that are missing along a route from a path are made, from
the outermost inwards: at each step the making may stop. -/
inductive Making : Disk → Path → Route → Disk → Prop where
  | stop {d : Disk} {p : Path} {r : Route} : Making d p r d
  | same {d e : Disk} {p : Path} {rest : Route} (h : Making d p rest e) :
    Making d p (sameFolder :: rest) e
  | outer {d e : Disk} {p : Path} {rest : Route} (h : Making d p.dropLast rest e) :
    Making d p (outerFolder :: rest) e
  | found {d e : Disk} {p : Path} {name : Text} {rest : Route} (hsame : name ≠ sameFolder)
    (houter : name ≠ outerFolder) (hn : d.node? (p ++ [name]) = some .folder)
    (h : Making d (p ++ [name]) rest e) : Making d p (name :: rest) e
  | made {d e : Disk} {p : Path} {name : Text} {rest : Route} (hsame : name ≠ sameFolder)
    (houter : name ≠ outerFolder) (hn : d.node? (p ++ [name]) = none)
    (h : Making (d.put (p ++ [name]) .folder) (p ++ [name]) rest e) : Making d p (name :: rest) e

theorem Making.grows (h : Making d p r e) : Grows d e := by
  induction h with
  | stop => exact .refl _
  | same _ ih | outer _ ih | found _ _ _ _ ih => exact ih
  | made _ _ hn _ ih => exact .put_folder (by simp) hn ih

theorem making_makeFoldersFrom (d : Disk) (p : Path) (r : Route) :
    Making d p r (d.makeFoldersFrom p r).2 := by
  fun_induction makeFoldersFrom d p r with
  | case1 | case4 | case5 | case8 => exact .stop
  | case2 d p rest ih => exact .same ih
  | case3 d p rest hne ih => exact .outer ih
  | case6 d p name rest h₁ h₂ h₃ hn hr ih => exact .made h₁ h₂ hn ih
  | case7 d p name rest h₁ h₂ h₃ hn ih => exact .found h₁ h₂ hn ih

/-- When the folders along a route are made, it leads to its place. -/
theorem follow_of_makeFoldersFrom (h : d.makeFoldersFrom p r = (.ok (), e)) :
    e.follow p .folder r = .ok (place p r, .folder) := by
  fun_induction makeFoldersFrom d p r with
  | case1 => rfl
  | case2 d p rest ih => simpa [follow, place] using ih h
  | case3 d p rest hne ih => simpa [follow, place, hne] using ih h
  | case4 | case5 | case8 => cases h
  | case6 d p name rest h₁ h₂ h₃ hn hr ih =>
    have hg := (making_makeFoldersFrom (d.put (p ++ [name]) .folder) (p ++ [name]) rest).grows
    rw [h] at hg
    have hfolder : e.node? (p ++ [name]) = some .folder :=
      hg.kept (by rw [node?_put d (by simp), if_pos rfl])
    simpa [follow, place, h₁, h₂, h₃, hfolder] using ih h
  | case7 d p name rest h₁ h₂ h₃ hn ih =>
    have hg := (making_makeFoldersFrom d (p ++ [name]) rest).grows
    rw [h] at hg
    simpa [follow, place, h₁, h₂, h₃, hg.kept hn] using ih h

theorem folderAt_of_makeFolders (h : d.makeFolders r = (.ok (), e)) :
    e.folderAt r = .ok (place [] r) :=
  folderAt_eq_ok_iff.2 (follow_of_makeFoldersFrom h)

/-- Behind a part of the route that leads to a folder, folders are made from there on. -/
theorem Making.of_append (h : Making d p (r ++ s) e)
    (hr : d.follow p .folder r = .ok (q, .folder)) : Making d q s e := by
  induction r generalizing p with
  | nil =>
    cases hr
    exact h
  | cons name rest ih =>
    cases h with
    | stop => exact .stop
    | same h => exact ih h (by simpa [follow] using hr)
    | outer h => exact ih h (by simpa [follow, show outerFolder ≠ sameFolder by decide] using hr)
    | found hsame houter hn h =>
      refine ih h ?_
      rw [follow, if_neg hsame, if_neg houter] at hr
      split at hr
      · cases hr
      · simpa [hn] using hr
    | made hsame houter hn h =>
      rw [follow, if_neg hsame, if_neg houter] at hr
      split at hr
      · cases hr
      · simp [hn] at hr

/-- Along a route that leads to a folder nothing is missing. -/
theorem Making.eq_of_folderAt (h : Making d [] r e) (hr : d.folderAt r = .ok p) : e = d := by
  have h' : Making d p [] e :=
    Making.of_append (s := []) (by simpa using h) (folderAt_eq_ok_iff.1 hr)
  cases h'
  rfl

theorem makeFoldersFrom_of_follow (h : d.follow p .folder r = .ok (q, .folder)) :
    (d.makeFoldersFrom p r).1 = .ok () := by
  fun_induction makeFoldersFrom d p r with
  | case1 => rfl
  | case2 d p rest ih => exact ih (by simpa [follow] using h)
  | case3 d p rest hne ih => exact ih (by simpa [follow, hne] using h)
  | case4 d p name rest h₁ h₂ h₃ => simp [follow, h₁, h₂, h₃] at h
  | case5 d p name rest h₁ h₂ h₃ hn | case6 d p name rest h₁ h₂ h₃ hn =>
    simp [follow, h₁, h₂, h₃, hn] at h
  | case7 d p name rest h₁ h₂ h₃ hn ih => exact ih (by simpa [follow, h₁, h₂, h₃, hn] using h)
  | case8 d p name rest h₁ h₂ h₃ content hn =>
    cases rest <;> simp [follow, h₁, h₂, h₃, hn] at h

/-- A folder that is there can be made. -/
theorem makeFolders_of_folderAt (h : d.folderAt r = .ok p) : (d.makeFolders r).1 = .ok () :=
  makeFoldersFrom_of_follow (folderAt_eq_ok_iff.1 h)

/-! ## Routes that do not go back out of a missing folder -/

/-- A route that goes back only out of folders that are there: from some point on that it leads to
it does not go back. -/
def Direct (d : Disk) (r : Route) : Prop :=
  ∃ r₁ r₂ p, r = r₁ ++ r₂ ∧ d.folderAt r₁ = .ok p ∧ outerFolder ∉ r₂

theorem direct_of_not_mem (h : outerFolder ∉ r) : d.Direct r := ⟨[], r, [], rfl, rfl, h⟩

theorem place_append (p : Path) (r s : Route) : place p (r ++ s) = place (place p r) s := by
  fun_induction place p r with
  | case1 => rfl
  | case2 p rest ih => simpa [place] using ih
  | case3 p rest hne ih => simpa [place, hne] using ih
  | case4 p name rest h₁ h₂ ih => simpa [place, h₁, h₂] using ih

theorem prefix_place (h : outerFolder ∉ r) : p <+: place p r := by
  fun_induction place p r with
  | case1 p => exact List.prefix_rfl
  | case2 p rest ih => exact ih fun hm => h (List.mem_cons_of_mem _ hm)
  | case3 p rest hne => exact absurd List.mem_cons_self h
  | case4 p name rest h₁ h₂ ih =>
    exact (List.prefix_append p [name]).trans (ih fun hm => h (List.mem_cons_of_mem _ hm))

/-- Along a route that does not go back, all folders made are on the way to its place. -/
theorem Making.prefix_of_node?_ne (h : Making d p r e) (hr : outerFolder ∉ r)
    (hq : e.node? q ≠ d.node? q) : q <+: place p r := by
  induction h with
  | stop => exact absurd rfl hq
  | same _ ih => simpa [place] using ih (fun hm => hr (List.mem_cons_of_mem _ hm)) hq
  | outer => exact absurd List.mem_cons_self hr
  | found hsame houter _ _ ih =>
    simpa [place, hsame, houter] using ih (fun hm => hr (List.mem_cons_of_mem _ hm)) hq
  | @made d e p name rest hsame houter hn _ ih =>
    have hr' : outerFolder ∉ rest := fun hm => hr (List.mem_cons_of_mem _ hm)
    rw [place, if_neg hsame, if_neg houter]
    by_cases hput : q = p ++ [name]
    · subst hput
      exact prefix_place hr'
    · refine ih hr' ?_
      rwa [node?_put d (by simp), if_neg hput]

/-- Making the folders along a route that does not go back out of a missing one puts nothing into
the folder at its place. -/
theorem Making.node?_of_direct (h : Making d [] r e) (hr : d.Direct r) (name : Text) :
    e.node? (place [] r ++ [name]) = d.node? (place [] r ++ [name]) := by
  obtain ⟨r₁, r₂, p, rfl, hp, hr₂⟩ := hr
  by_contra hne
  have hpre := (h.of_append (folderAt_eq_ok_iff.1 hp)).prefix_of_node?_ne hr₂ hne
  rw [place_append, ← eq_place_of_folderAt hp] at hpre
  exact absurd hpre.length_le (by simp)

/-! ## Trees -/

/-- Each node of the disk lies in a folder. -/
def IsTree (d : Disk) : Prop :=
  ∀ p name n, d.node? (p ++ [name]) = some n → d.node? p = some .folder

theorem isTree_empty : empty.IsTree := by
  intro p name n h
  simp [node?, empty] at h

theorem IsTree.node?_of_prefix (ht : d.IsTree) (h : d.node? (p ++ [name]) = some n)
    (hq : q <+: p) : d.node? q = some .folder := by
  induction p using List.reverseRecOn generalizing name n with
  | nil =>
    rw [List.prefix_nil.1 hq]
    rfl
  | append_singleton p last ih =>
    have hp := ht _ _ _ h
    obtain rfl | hq := List.prefix_concat_iff.1 hq
    · exact hp
    · exact ih hp hq

/-- On a tree, a route that does not go back and has something at its place is found. -/
theorem IsTree.follow_ne_notFound (ht : d.IsTree) (hr : outerFolder ∉ r)
    (h : d.node? (place p r ++ [name]) = some n) : d.follow p .folder r ≠ .error .notFound := by
  induction r generalizing p with
  | nil => simp [follow]
  | cons first rest ih =>
    have hr' : outerFolder ∉ rest := fun hm => hr (List.mem_cons_of_mem _ hm)
    have houter : first ≠ outerFolder := fun he => hr (he ▸ List.mem_cons_self)
    by_cases hsame : first = sameFolder
    · subst hsame
      simpa [follow] using ih hr' (by simpa [place] using h)
    · rw [place, if_neg hsame, if_neg houter] at h
      have hfolder := ht.node?_of_prefix h (prefix_place hr')
      rw [follow, if_neg hsame, if_neg houter, hfolder]
      split
      · simp
      · exact ih hr' h

theorem IsTree.folderAt_ne_notFound (ht : d.IsTree) (hr : d.Direct r)
    (h : d.node? (place [] r ++ [name]) = some n) : d.folderAt r ≠ .error .notFound := by
  obtain ⟨r₁, r₂, p, rfl, hp, hr₂⟩ := hr
  rw [Ne, folderAt_eq_notFound_iff, follow_append, folderAt_eq_ok_iff.1 hp]
  rw [place_append, ← eq_place_of_folderAt hp] at h
  exact ht.follow_ne_notFound hr₂ h

/-- What is not there has nothing in it. -/
theorem IsTree.node?_of_none (ht : d.IsTree) (hp : d.node? p = none) (name : Text) :
    d.node? (p ++ [name]) = none := by
  cases hn : d.node? (p ++ [name]) with
  | none => rfl
  | some n => simp [ht _ _ _ hn] at hp

/-- A route from a folder that was missing meets with new folders only. -/
theorem IsTree.follow_of_none (ht : d.IsTree) (hg : Grows d e) (hr : outerFolder ∉ r)
    (hfits : ∀ name ∈ r, tooLong name = false) (hp : d.node? p = none) :
    e.follow p .folder r = .error .notFound ∨
      e.follow p .folder r = .ok (place p r, .folder) := by
  induction r generalizing p with
  | nil => exact .inr rfl
  | cons name rest ih =>
    obtain ⟨houter, hr⟩ : name ≠ outerFolder ∧ outerFolder ∉ rest := by
      simpa [eq_comm] using hr
    obtain ⟨hname, hfits⟩ := List.forall_mem_cons.1 hfits
    rw [follow, place, hname]
    by_cases hsame : name = sameFolder
    · simpa [hsame] using ih hr hfits hp
    have hd := ht.node?_of_none hp name
    cases he : e.node? (p ++ [name]) with
    | none => simp [hsame, houter]
    | some n =>
      obtain rfl := hg.folder hd he
      simpa [hsame, houter] using ih hr hfits hd

/-- A route that is not found leads to its place or is still not found with more folders. -/
theorem IsTree.follow_of_grows (ht : d.IsTree) (hg : Grows d e) (hr : outerFolder ∉ r)
    (hfits : ∀ name ∈ r, tooLong name = false)
    (hd : d.follow p .folder r = .error .notFound) :
    e.follow p .folder r = .error .notFound ∨
      e.follow p .folder r = .ok (place p r, .folder) := by
  induction r generalizing p with
  | nil => cases hd
  | cons name rest ih =>
    obtain ⟨houter, hr⟩ : name ≠ outerFolder ∧ outerFolder ∉ rest := by
      simpa [eq_comm] using hr
    obtain ⟨hname, hfits⟩ := List.forall_mem_cons.1 hfits
    rw [follow, hname] at hd
    rw [follow, place, hname]
    by_cases hsame : name = sameFolder
    · simpa [hsame] using ih hr hfits (by simpa [hsame] using hd)
    cases hn : d.node? (p ++ [name]) with
    | none =>
      -- From here on the route leads through what was missing.
      cases he : e.node? (p ++ [name]) with
      | none => simp [hsame, houter]
      | some n =>
        obtain rfl := hg.folder hn he
        simpa [hsame, houter] using ht.follow_of_none hg hr hfits hn
    | some n =>
      cases n with
      | file content => cases rest <;> simp [hsame, houter, hn, follow] at hd
      | folder =>
        simpa [hsame, houter, hg.kept hn] using
          ih hr hfits (by simpa [hsame, houter, hn] using hd)

/-- On a tree, where no name is too long, a route that is not found and does not go back out of a
missing folder leads to its place or is still not found with more folders. -/
theorem IsTree.folderAt_of_grows (ht : d.IsTree) (hg : Grows d e) (hr : d.Direct r)
    (hfits : ∀ name ∈ r, tooLong name = false) (hd : d.folderAt r = .error .notFound) :
    e.folderAt r = .error .notFound ∨ e.folderAt r = .ok (place [] r) := by
  obtain ⟨r₁, r₂, p, rfl, hp, hr₂⟩ := hr
  have hp := folderAt_eq_ok_iff.1 hp
  have hp' : e.follow [] .folder r₁ = .ok (p, .folder) := by rw [hg.follow (by simp [hp]), hp]
  rw [folderAt_eq_notFound_iff, follow_append, hp] at hd
  rw [folderAt_eq_notFound_iff, folderAt_eq_ok_iff, follow_append, hp', place_append,
    ← eq_place_of_follow hp]
  exact ht.follow_of_grows hg hr₂ (fun name hn => hfits name (List.mem_append_right r₁ hn)) hd

end Disk

end PocketCalc
