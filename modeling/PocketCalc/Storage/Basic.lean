import PocketCalc.History.Format

/-!
# Stores of texts under keys

The program keeps two texts, its history and its theme, in a store that can refuse to read or write.
A store that is asked may change, so each question gives the store afterwards too.

* `load_of_missing`, `load_of_error`: without a readable text the history is empty.
-/

namespace PocketCalc

/-- Why a file system refuses. -/
inductive FileError where
  | notFound
  | alreadyExists
  | notADirectory
  | isADirectory
  | nameTooLong
  /-- The bytes of a file are no text. -/
  | notText
deriving DecidableEq

/-- The words of the file system. -/
def FileError.message : FileError → Text
  | .notFound => "No such file or directory (os error 2)".toList
  | .alreadyExists => "File exists (os error 17)".toList
  | .notADirectory => "Not a directory (os error 20)".toList
  | .isADirectory => "Is a directory (os error 21)".toList
  | .nameTooLong => "File name too long (os error 36)".toList
  | .notText => "stream did not contain valid UTF-8".toList

/-- Why a store refuses. -/
inductive StoreError where
  | file (e : FileError)
  /-- The store will not answer. -/
  | refused (reason : Text)
  /-- There is no store. -/
  | unavailable (reason : Text)
deriving DecidableEq

/-- The message for the log. -/
def StoreError.message : StoreError → Text
  | .file e => "stockage: ".toList ++ e.message
  | .refused reason => "localStorage: ".toList ++ reason
  | .unavailable reason => "stockage indisponible: ".toList ++ reason

/-- A place that keeps a text under each of some keys. -/
class Store (σ : Type) where
  /-- The text under a key, if there is one. -/
  read : σ → Text → Except StoreError (Option Text) × σ
  /-- Puts a text under a key. -/
  write : σ → Text → Text → Except StoreError Unit × σ

/-- Under this key lies the history. -/
def historyKey : Text := "calculator-history".toList

/-- Under this key lies the theme. -/
def themeKey : Text := "calculator-theme".toList

namespace History

variable [HistoryFormat]

/-- The history in what a store answers: empty unless there is a text that holds one. -/
def ofAnswer : Except StoreError (Option Text) → History
  | .ok (some t) => ofJson t
  | .ok none => empty
  | .error _ => empty

/-- The history that a store holds, and the store after reading. -/
def load {σ : Type} [Store σ] (s : σ) : History × σ :=
  let (answer, s) := Store.read s historyKey
  (ofAnswer answer, s)

/-- Asks a store to keep the history. -/
def save {σ : Type} [Store σ] (h : History) (s : σ) : Except StoreError Unit × σ :=
  Store.write s historyKey h.toJson

theorem load_of_missing {σ : Type} [Store σ] {s : σ}
    (h : (Store.read s historyKey).1 = .ok none) : (load s).1 = empty := by
  simp [load, h, ofAnswer]

theorem load_of_error {σ : Type} [Store σ] {s : σ} {e : StoreError}
    (h : (Store.read s historyKey).1 = .error e) : (load s).1 = empty := by
  simp [load, h, ofAnswer]

end History

end PocketCalc
