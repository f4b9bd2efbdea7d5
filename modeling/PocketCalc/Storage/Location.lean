import PocketCalc.Storage.Basic

/-!
# Where the texts are kept

The environment can name the folder outright. Otherwise it is a folder of the program's own below
the user's data folder, which is where the system says it is.

* `folder_of_named`: a folder that is named outright is taken as it is.
-/

namespace PocketCalc

/-- A path with another one behind it. -/
def joinPath (base rest : Text) : Text :=
  if base = [] then rest
  else if base.getLast? = some '/' then base ++ rest
  else base ++ '/' :: rest

/-- What the environment says about folders. -/
structure Environment where
  /-- The folder named outright. -/
  named : Option Text
  /-- The user's data folder, if the system has one. -/
  dataFolder : Option Text

namespace Environment

/-- The folder of the program below the data folder. -/
def ownFolder : Text := "calculatrice-multi".toList

/-- The folder for the program's texts. -/
def folder (e : Environment) : Except StoreError Text :=
  match e.named with
  | some t => .ok t
  | none =>
    match e.dataFolder with
    | some t => .ok (joinPath t ownFolder)
    | none => .error (.unavailable "dossier de données utilisateur introuvable".toList)

theorem folder_of_named {e : Environment} {t : Text} (h : e.named = some t) :
    e.folder = .ok t := by
  simp [folder, h]

end Environment

/-! ## A desktop -/

/-- The variables and the account by which a desktop finds the user's folders. -/
structure Desktop where
  /-- The variable for the data folder. -/
  dataHome : Option Text
  /-- The variable for the home folder. -/
  home : Option Text
  /-- The home folder in the user's account. -/
  accountHome : Option Text

namespace Desktop

/-- The home folder: an empty name counts as none. -/
def homeFolder? (d : Desktop) : Option Text :=
  match d.home with
  | some (c :: t) => some (c :: t)
  | _ => d.accountHome

/-- The user's data folder has a place of its own or lies in the home folder. A place that does not
start at the root does not count. -/
def dataFolder? (d : Desktop) : Option Text :=
  match d.dataHome with
  | some ('/' :: t) => some ('/' :: t)
  | _ => d.homeFolder?.map fun home => joinPath home ".local/share".toList

/-- The environment on a desktop, given the folder named outright. -/
def environment (d : Desktop) (named : Option Text) : Environment := ⟨named, d.dataFolder?⟩

end Desktop

end PocketCalc
