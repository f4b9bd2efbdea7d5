import PocketCalc.Storage.Basic
import PocketCalc.Storage.Table

/-!
# A file system

Folders and files under a root folder, with the refusals that come from what is there and from names
that are too long. It is assumed that there is no other reason to refuse: everything may be read and
written, there is always room, and a path as a whole is never too long. A node has a path, the list
of the names that lead to it from the root. A route leads to it too, but it may stay where it is or
go back on the way.

* `node?_put`, `node?_erase`: putting and erasing change the node at one path only.
* `follow_of_folders`: a route to a folder leads there as long as no folder is lost.
-/

namespace PocketCalc

/-- The names that lead from the root to a node. -/
abbrev Path := List Text

/-- Names to follow, among them `.` for the same folder and `..` for the one around it. -/
abbrev Route := List Text

/-- A folder, or a file with its bytes. -/
inductive Node where
  | folder
  | file (content : ByteArray)

/-- The nodes other than the root, each under its path. -/
structure Disk where
  nodes : Table Path Node

namespace Disk

/-- A disk with nothing but its root folder. -/
def empty : Disk := ⟨.empty⟩

/-- The node at a path. The root is a folder. -/
def node? (d : Disk) (p : Path) : Option Node := if p = [] then some .folder else d.nodes.find? p

/-- The disk without what is at a path. -/
def erase (d : Disk) (p : Path) : Disk := ⟨d.nodes.erase p⟩

/-- The disk with a node at a path, in the place of what was there. -/
def put (d : Disk) (p : Path) (n : Node) : Disk := ⟨d.nodes.put p n⟩

theorem node?_erase (d : Disk) {p : Path} (hp : p ≠ []) (q : Path) :
    (d.erase p).node? q = if q = p then none else d.node? q := by
  simp only [node?, erase, Table.find?_erase]
  split
  · rename_i hq
    simp [hq, Ne.symm hp]
  · rfl

theorem node?_put (d : Disk) {p : Path} (hp : p ≠ []) (n : Node) (q : Path) :
    (d.put p n).node? q = if q = p then some n else d.node? q := by
  simp only [node?, put, Table.find?_put]
  split
  · rename_i hq
    simp [hq, Ne.symm hp]
  · rfl

/-! ## Names -/

/-- The longest name that a node can have, in bytes. -/
def nameLimit : Nat := 255

/-- Whether a name is too long for a node. -/
def tooLong (name : Text) : Bool := nameLimit < (String.ofList name).utf8ByteSize

/-- The name of the same folder. -/
def sameFolder : Text := ['.']

/-- The name of the folder around. -/
def outerFolder : Text := ['.', '.']

/-- The route that a text with slashes stands for. -/
def routeOf (t : Text) : Route := (t.splitOn '/').filter fun name => name ≠ []

/-! ## What the program asks of a file system -/

/-- The node at the end of a route that starts from a node at a path, and its own path. -/
def follow (d : Disk) : Path → Node → Route → Except FileError (Path × Node)
  | p, n, [] => .ok (p, n)
  | _, .file _, _ :: _ => .error .notADirectory
  | p, .folder, name :: rest =>
    if name = sameFolder then d.follow p .folder rest
    else if name = outerFolder then d.follow p.dropLast .folder rest
    else if tooLong name then .error .nameTooLong
    else match d.node? (p ++ [name]) with
      | none => .error .notFound
      | some n => d.follow (p ++ [name]) n rest

theorem follow_of_folders {d e : Disk}
    (h : ∀ q, d.node? q = some .folder → e.node? q = some .folder) {p q : Path} {n : Node}
    {r : Route} (hd : d.follow p n r = .ok (q, .folder)) : e.follow p n r = .ok (q, .folder) := by
  fun_induction follow d p n r with
  | case1 => simpa [follow] using hd
  | case2 | case5 | case6 => simp at hd
  | case3 p rest ih => simpa [follow] using ih hd
  | case4 p rest hne ih => simpa [follow, hne] using ih hd
  | case7 p name rest h₁ h₂ h₃ n hn ih =>
    cases n with
    | folder => simpa [follow, h₁, h₂, h₃, h _ hn] using ih hd
    | file content => cases rest <;> simp [follow] at hd

/-- The path of the folder at the end of a route. -/
def folderAt (d : Disk) (r : Route) : Except FileError Path :=
  match d.follow [] .folder r with
  | .error e => .error e
  | .ok (_, .file _) => .error .notADirectory
  | .ok (p, .folder) => .ok p

/-- The bytes of a file. -/
def readBytes (d : Disk) (r : Route) : Except FileError ByteArray :=
  match d.follow [] .folder r with
  | .error e => .error e
  | .ok (_, .folder) => .error .isADirectory
  | .ok (_, .file content) => .ok content

/-- The text in a file. -/
def readText (d : Disk) (r : Route) : Except FileError Text :=
  match d.readBytes r with
  | .error e => .error e
  | .ok content =>
    match String.fromUTF8? content with
    | some s => .ok s.toList
    | none => .error .notText

/-- Makes the folders that are missing along a route from a folder at a path. Where that is refused,
the folders made before stay. No folder is made under the name `.`. -/
def makeFoldersFrom (d : Disk) : Path → Route → Except FileError Unit × Disk
  | _, [] => (.ok (), d)
  | p, name :: rest =>
    if name = sameFolder then d.makeFoldersFrom p rest
    else if name = outerFolder then d.makeFoldersFrom p.dropLast rest
    else if tooLong name then (.error .nameTooLong, d)
    else match d.node? (p ++ [name]) with
      | none =>
        if rest ≠ [] ∧ rest.all (· = sameFolder) then (.error .notFound, d)
        else (d.put (p ++ [name]) .folder).makeFoldersFrom (p ++ [name]) rest
      | some .folder => d.makeFoldersFrom (p ++ [name]) rest
      | some (.file _) => (.error (if rest = [] then .alreadyExists else .notADirectory), d)

/-- Makes a folder and the folders on the way to it, those that are missing. -/
def makeFolders (d : Disk) (r : Route) : Except FileError Unit × Disk := d.makeFoldersFrom [] r

/-- Writes a file into a folder, in the place of a file of that name. -/
def writeFile (d : Disk) (folder : Route) (name : Text) (content : ByteArray) :
    Except FileError Unit × Disk :=
  match d.folderAt folder with
  | .error e => (.error e, d)
  | .ok p =>
    if tooLong name then (.error .nameTooLong, d)
    else match d.node? (p ++ [name]) with
      | some .folder => (.error .isADirectory, d)
      | _ => (.ok (), d.put (p ++ [name]) (.file content))

/-- Gives a file of a folder another name, in the place of a file of that name. -/
def renameFile (d : Disk) (folder : Route) (old new : Text) : Except FileError Unit × Disk :=
  match d.folderAt folder with
  | .error e => (.error e, d)
  | .ok p =>
    match d.node? (p ++ [old]) with
    | some (.file content) =>
      if tooLong new then (.error .nameTooLong, d)
      else match d.node? (p ++ [new]) with
        | some .folder => (.error .isADirectory, d)
        | _ => (.ok (), (d.erase (p ++ [old])).put (p ++ [new]) (.file content))
    | _ => (.error .notFound, d)

/-! ## What is there -/

/-- The names in a folder, in the order of their characters; none if there is no such folder. -/
def names (d : Disk) (folder : Route) : List Text :=
  match d.folderAt folder with
  | .error _ => []
  | .ok p =>
    let inside := d.nodes.entries.filterMap fun entry =>
      match entry.1.getLast? with
      | some name => if entry.1.dropLast = p then some name else none
      | none => none
    inside.mergeSort fun a b => !b.lex a fun c d => c.toNat < d.toNat

/-- All files with their paths. -/
def files (d : Disk) : List (Path × ByteArray) :=
  d.nodes.entries.filterMap fun entry =>
    match entry.2 with
    | .file content => some (entry.1, content)
    | .folder => none

end Disk

end PocketCalc
