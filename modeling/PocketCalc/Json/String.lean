import PocketCalc.Text.Blank

/-!
# Strings in JSON

A string is written between quotes with an escape for quotes, backslashes and controls, and read
with every escape that the format has. A character beyond the first plane may be written as two
escapes, a high and a low surrogate; half of such a pair is no character.

* `stringText`, `readQuoted`: the writer and the reader of strings.
-/

namespace PocketCalc

namespace Json

/-! ## Writing -/

/-- One character as it is written in a string. -/
def escaped (c : Char) : Text :=
  if c = '"' then ['\\', '"']
  else if c = '\\' then ['\\', '\\']
  else if c = '\x08' then ['\\', 'b']
  else if c = '\t' then ['\\', 't']
  else if c = '\n' then ['\\', 'n']
  else if c = '\x0c' then ['\\', 'f']
  else if c = '\r' then ['\\', 'r']
  else if c.toNat < 32 then
    ['\\', 'u', '0', '0', Nat.digitChar (c.toNat / 16), Nat.digitChar (c.toNat % 16)]
  else [c]

/-- A string between its quotes. -/
def stringText (t : Text) : Text := '"' :: t.flatMap escaped ++ ['"']

/-! ## Reading -/

/-- The value of a hexadecimal digit. -/
def hexDigit? (c : Char) : Option Nat :=
  if '0' ≤ c ∧ c ≤ '9' then some (c.toNat - 48)
  else if 'a' ≤ c ∧ c ≤ 'f' then some (c.toNat - 87)
  else if 'A' ≤ c ∧ c ≤ 'F' then some (c.toNat - 55)
  else none

/-- The value of four hexadecimal digits. -/
def hex? (a b c d : Char) : Option Nat := do
  return (((← hexDigit? a) * 16 + (← hexDigit? b)) * 16 + (← hexDigit? c)) * 16 + (← hexDigit? d)

/-- The character behind a backslash, apart from `u`. -/
def escape? (c : Char) : Option Char :=
  if c = '"' then some '"'
  else if c = '\\' then some '\\'
  else if c = '/' then some '/'
  else if c = 'b' then some '\x08'
  else if c = 'f' then some '\x0c'
  else if c = 'n' then some '\n'
  else if c = 'r' then some '\r'
  else if c = 't' then some '\t'
  else none

/-- The character of two surrogates, the first of them high. -/
def pair? (high low : Nat) : Option Char :=
  if 0xDC00 ≤ low ∧ low < 0xE000 then
    some (Char.ofNat (0x10000 + (high - 0xD800) * 0x400 + (low - 0xDC00)))
  else none

/-- The string up to its closing quote, and what is behind it. -/
def readString : Text → Option (Text × Text)
  | [] => none
  | '"' :: t => some ([], t)
  | '\\' :: 'u' :: a :: b :: c :: d :: t =>
    match hex? a b c d with
    | none => none
    | some n =>
      if 0xDC00 ≤ n ∧ n < 0xE000 then none
      else if 0xD800 ≤ n ∧ n < 0xDC00 then
        match t with
        | '\\' :: 'u' :: a :: b :: c :: d :: t =>
          match (hex? a b c d).bind (pair? n) with
          | none => none
          | some x => (readString t).map fun (s, rest) => (x :: s, rest)
        | _ => none
      else (readString t).map fun (s, rest) => (Char.ofNat n :: s, rest)
  | '\\' :: c :: t =>
    match escape? c with
    | none => none
    | some x => (readString t).map fun (s, rest) => (x :: s, rest)
  | c :: t =>
    if c.toNat < 32 ∨ c = '\\' then none
    else (readString t).map fun (s, rest) => (c :: s, rest)

/-- A string with its opening quote, and what is behind it. -/
def readQuoted : Text → Option (Text × Text)
  | '"' :: t => readString t
  | _ => none

/-- What is behind a string that is not needed. Its escapes must be well formed, but surrogates need
not come in pairs. -/
def skipString : Text → Option Text
  | [] => none
  | '"' :: t => some t
  | '\\' :: 'u' :: a :: b :: c :: d :: t => if (hex? a b c d).isSome then skipString t else none
  | '\\' :: c :: t => if (escape? c).isSome then skipString t else none
  | c :: t => if c.toNat < 32 ∨ c = '\\' then none else skipString t

end Json

end PocketCalc
