import PocketCalc.History.Format
import PocketCalc.Json.Skip

/-!
# The history as JSON text

The history is stored as a list of objects with two strings, `expression` and `result`. It is read
more freely: the two fields in either order among others that are passed over, or a list of just the
two strings, with blanks between all parts. A text that is not wholly of this form has no history in
it.

* `History.entriesJson`, `History.entries?`: the writer and the reader of lists of entries.
-/

namespace PocketCalc

namespace Entry

/-- The name of the field with the expression. -/
def expressionField : Text := "expression".toList

/-- The name of the field with the result. -/
def resultField : Text := "result".toList

/-- The JSON text of an entry. -/
def toJson (e : Entry) : Text :=
  '\x7b' :: Json.stringText expressionField ++ ':' :: Json.stringText e.expression ++
    ',' :: Json.stringText resultField ++ ':' :: Json.stringText e.result ++ ['\x7d']

/-- The text behind a sign that blanks may precede. -/
def after (c : Char) (t : Text) : Option Text :=
  match Json.dropSpace t with
  | d :: rest => if d = c then some rest else none
  | [] => none

/-- A string that blanks may precede, and what is behind it. -/
def string? (t : Text) : Option (Text × Text) := Json.readQuoted (Json.dropSpace t)

/-- A member of an object, given the two fields found so far, each of which may be there once: the
fields found then, and what is behind the member. -/
def readMember (fuel : Nat) (expression result : Option Text) (t : Text) :
    Option (Option Text × Option Text × Text) := do
  let (name, t) ← string? t
  let t ← after ':' t
  if name = expressionField then
    if expression.isSome then none else (string? t).map fun (s, t) => (some s, result, t)
  else if name = resultField then
    if result.isSome then none else (string? t).map fun (s, t) => (expression, some s, t)
  else (Json.skipValue fuel t).map fun t => (expression, result, t)

/-- The members of an object, from one of them on, and what is behind the object. Both fields have
to be among them. -/
def readMembers : Nat → Option Text → Option Text → Text → Option (Entry × Text)
  | 0, _, _, _ => none
  | fuel + 1, expression, result, t => do
    let (expression, result, t) ← readMember fuel expression result t
    match after ',' t with
    | some more => readMembers fuel expression result more
    | none =>
      let behind ← after '\x7d' t
      return (⟨← expression, ← result⟩, behind)

/-- A list of the two strings behind its opening bracket, and what is behind it. -/
def readPair (t : Text) : Option (Entry × Text) := do
  let (expression, t) ← string? t
  let t ← after ',' t
  let (result, t) ← string? t
  let t ← after ']' t
  return (⟨expression, result⟩, t)

/-- An entry that blanks may precede, and what is behind it. -/
def ofJson? (fuel : Nat) (t : Text) : Option (Entry × Text) :=
  match Json.dropSpace t with
  | '\x7b' :: rest => readMembers fuel none none rest
  | '[' :: rest => readPair rest
  | _ => none

end Entry

namespace History

/-- Texts with a comma between each and the next. -/
def separated : List Text → Text
  | [] => []
  | [t] => t
  | t :: ts => t ++ ',' :: separated ts

/-- The JSON text of entries. -/
def entriesJson (l : List Entry) : Text := '[' :: separated (l.map Entry.toJson) ++ [']']

/-- The entries of a list, from one of them on, and what is behind the list. -/
def readEntries : Nat → Text → Option (List Entry × Text)
  | 0, _ => none
  | fuel + 1, t => do
    let (e, t) ← Entry.ofJson? fuel t
    match Entry.after ',' t with
    | some more => (readEntries fuel more).map fun (es, behind) => (e :: es, behind)
    | none => (Entry.after ']' t).map fun behind => ([e], behind)

/-- A list of entries behind its opening bracket, and what is behind it. -/
def readList (t : Text) : Option (List Entry × Text) :=
  match Entry.after ']' t with
  | some behind => some ([], behind)
  | none => readEntries (t.length + 1) t

/-- All entries that a JSON text holds, if it holds a list of entries and nothing else. -/
def entries? (t : Text) : Option (List Entry) := do
  let (es, behind) ← readList (← Entry.after '[' t)
  if Json.dropSpace behind = [] then some es else none

end History

/-- The format of the program's own histories. -/
instance : HistoryFormat where
  write := History.entriesJson
  read? := History.entries?

end PocketCalc
