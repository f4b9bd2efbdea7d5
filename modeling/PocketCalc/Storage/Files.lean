import PocketCalc.Storage.Disk

/-!
# The store on disk

Each key has a file of its own in one folder. A text is written to a temporary file first, which is
then given the name of the key's file, so that the old text stays until the new one is complete.

* `isPlain_of_mem_stem`: a file name has no character that could lead out of the folder.
-/

namespace PocketCalc

/-- A folder of a disk. -/
structure FileStore where
  folder : Route
  disk : Disk

namespace FileStore

/-- The characters that a key keeps in the name of its file. -/
def isPlain (c : Char) : Bool := c.isAlphanum || c == '-' || c == '_'

/-- A key with an underscore in the place of each other character. -/
def stem (key : Text) : Text := key.map fun c => if isPlain c then c else '_'

theorem isPlain_of_mem_stem {key : Text} {c : Char} (h : c ∈ stem key) : isPlain c = true := by
  obtain ⟨d, -, rfl⟩ := List.mem_map.1 h
  by_cases hd : isPlain d <;> simp [hd, show isPlain '_' = true from by decide]

/-- The name of a key's file. -/
def fileName (key : Text) : Text := stem key ++ ".json".toList

/-- The name of the temporary file, from the name of the file it becomes. A name that is nothing but
an ending is kept whole in front of the new ending. -/
def temporaryName (key : Text) : Text :=
  (if stem key = [] then fileName key else stem key) ++ ".json.tmp".toList

/-- The route to a key's file. -/
def fileRoute (s : FileStore) (key : Text) : Route := s.folder ++ [fileName key]

/-- The bytes of a text. -/
def bytesOf (t : Text) : ByteArray := (String.ofList t).toUTF8

/-- The text under a key: no file, no text. -/
def read (s : FileStore) (key : Text) : Except StoreError (Option Text) :=
  match s.disk.readText (s.fileRoute key) with
  | .ok t => .ok (some t)
  | .error .notFound => .ok none
  | .error e => .error (.file e)

/-- The stages of writing, each of which can be refused: the folder, the temporary file, its new
name. -/
def writeStages (s : FileStore) (key value : Text) : List (Disk → Except FileError Unit × Disk) :=
  [fun d => d.makeFolders s.folder,
    fun d => d.writeFile s.folder (temporaryName key) (bytesOf value),
    fun d => d.renameFile s.folder (temporaryName key) (fileName key)]

/-- Goes through stages until one is refused. -/
def runStages : List (Disk → Except FileError Unit × Disk) → Disk → Except FileError Unit × Disk
  | [], d => (.ok (), d)
  | stage :: rest, d =>
    match stage d with
    | (.ok (), d) => runStages rest d
    | (.error e, d) => (.error e, d)

/-- Puts a text under a key. -/
def write (s : FileStore) (key value : Text) : Except StoreError Unit × FileStore :=
  let (answer, disk) := runStages (s.writeStages key value) s.disk
  (answer.mapError .file, { s with disk := disk })

instance : Store FileStore where
  read s key := (s.read key, s)
  write := FileStore.write

end FileStore

end PocketCalc
