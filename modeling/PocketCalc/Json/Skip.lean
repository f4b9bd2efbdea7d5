import PocketCalc.Json.String

/-!
# Values in JSON that are not needed

A value of any kind is checked and passed over. Lists and objects may be nested to any depth; `fuel`
bounds the number of values and commas, of which a text has fewer than characters.
-/

namespace PocketCalc

namespace Json

/-- The blanks of the format. -/
def isSpace (c : Char) : Bool := c == ' ' || c == '\n' || c == '\t' || c == '\r'

/-- The text without the blanks in front. -/
def dropSpace (t : Text) : Text := t.dropWhile isSpace

/-- The text behind the given beginning. -/
def afterWord? : Text → Text → Option Text
  | [], t => some t
  | c :: w, d :: t => if c = d then afterWord? w t else none
  | _ :: _, [] => none

/-- The text behind one digit or more. -/
def skipDigits (t : Text) : Option Text :=
  match t with
  | [] => none
  | c :: rest => if c.isDigit then some (rest.dropWhile Char.isDigit) else none

/-- The text behind the digits before the point: a zero that starts them is the only one. -/
def skipWhole : Text → Option Text
  | '0' :: t => match t with
    | [] => some []
    | c :: rest => if c.isDigit then none else some (c :: rest)
  | t => skipDigits t

/-- The text behind a point with its digits, if there is a point. -/
def skipFraction : Text → Option Text
  | '.' :: t => skipDigits t
  | t => some t

/-- The text behind an exponent, if there is one. -/
def skipExponent : Text → Option Text
  | [] => some []
  | c :: t =>
    if c = 'e' ∨ c = 'E' then
      match t with
      | '+' :: rest => skipDigits rest
      | '-' :: rest => skipDigits rest
      | rest => skipDigits rest
    else some (c :: t)

/-- The text behind a number. -/
def skipNumber (t : Text) : Option Text :=
  let unsigned := match t with
    | '-' :: rest => rest
    | rest => rest
  ((skipWhole unsigned).bind skipFraction).bind skipExponent

mutual

/-- The text behind a value. -/
def skipValue : Nat → Text → Option Text
  | 0, _ => none
  | fuel + 1, t =>
    match dropSpace t with
    | '"' :: rest => skipString rest
    | 'n' :: rest => afterWord? "ull".toList rest
    | 't' :: rest => afterWord? "rue".toList rest
    | 'f' :: rest => afterWord? "alse".toList rest
    | '[' :: rest =>
      match dropSpace rest with
      | ']' :: behind => some behind
      | inside => skipElements fuel inside
    | '\x7b' :: rest =>
      match dropSpace rest with
      | '\x7d' :: behind => some behind
      | inside => skipMembers fuel inside
    | rest => skipNumber rest

/-- The text behind a list, from one of its elements on. -/
def skipElements : Nat → Text → Option Text
  | 0, _ => none
  | fuel + 1, t =>
    match skipValue fuel t with
    | none => none
    | some rest =>
      match dropSpace rest with
      | ',' :: more => skipElements fuel more
      | ']' :: behind => some behind
      | _ => none

/-- The text behind an object, from one of its members on. -/
def skipMembers : Nat → Text → Option Text
  | 0, _ => none
  | fuel + 1, t =>
    match dropSpace t with
    | '"' :: name =>
      match (skipString name).map dropSpace with
      | some (':' :: value) =>
        match skipValue fuel value with
        | none => none
        | some rest =>
          match dropSpace rest with
          | ',' :: more => skipMembers fuel more
          | '\x7d' :: behind => some behind
          | _ => none
      | _ => none
    | _ => none

end

end Json

end PocketCalc
