/-!
# `CodeAtlas.Json.Basic`: JSON values and how they are written

A value is written in a compact form without any space, or in a form with one item to a line
and two spaces for each level. Objects keep the order of their members. Only the quote, the
backslash and the characters below the space are escaped.
-/

set_option autoImplicit false

namespace CodeAtlas

/-- A JSON value; numbers are kept as they are written. -/
inductive Json where
  | null
  | bool (b : Bool)
  | number (text : List Char)
  | string (text : List Char)
  | array (items : List Json)
  | object (members : List (List Char × Json))

namespace Json

/-- The number with a given value. -/
def ofNat (n : Nat) : Json :=
  .number (Nat.toDigits 10 n)

/-- The digits of an integer behind its sign. -/
def intDigits (n : Int) : List Char :=
  if n < 0 then '-' :: Nat.toDigits 10 n.natAbs else Nat.toDigits 10 n.natAbs

/-- The number with a given value. -/
def ofInt (n : Int) : Json :=
  .number (intDigits n)

/-- The string with a given text. -/
def ofString (s : String) : Json :=
  .string s.toList

/-- The array of the values of a list. -/
def ofList {α : Type} (f : α → Json) (xs : List α) : Json :=
  .array (xs.map f)

/-- The value, or `null` for none. -/
def ofOption {α : Type} (f : α → Json) : Option α → Json
  | none => .null
  | some a => f a

/-- The object with given members. -/
def record (members : List (String × Json)) : Json :=
  .object (members.map fun (name, value) => (name.toList, value))

/-! ### Writing -/

/-- The digit of a number below 16. -/
def hexDigit (n : Nat) : Char :=
  if n < 10 then Char.ofNat (48 + n) else Char.ofNat (87 + n)

/-- A character inside a string. -/
def escape (c : Char) : List Char :=
  if c = '"' then ['\\', '"']
  else if c = '\\' then ['\\', '\\']
  else if c = '\x08' then ['\\', 'b']
  else if c = '\x0c' then ['\\', 'f']
  else if c = '\n' then ['\\', 'n']
  else if c = '\r' then ['\\', 'r']
  else if c = '\t' then ['\\', 't']
  else if c.toNat < 32 then
    ['\\', 'u', '0', '0', hexDigit (c.toNat / 16), hexDigit (c.toNat % 16)]
  else [c]

/-- A string between its quotes. -/
def quote (text : List Char) : List Char :=
  '"' :: text.flatMap escape ++ ['"']

/-- The word for a truth value. -/
def boolText (b : Bool) : List Char :=
  if b then ['t', 'r', 'u', 'e'] else ['f', 'a', 'l', 's', 'e']

mutual

/-- A value without any space. -/
def compact : Json → List Char
  | .null => ['n', 'u', 'l', 'l']
  | .bool b => boolText b
  | .number text => text
  | .string text => quote text
  | .array [] => ['[', ']']
  | .array (item :: items) => '[' :: compact item ++ compactItems items
  | .object [] => ['\x7b', '\x7d']
  | .object ((name, value) :: members) =>
    '\x7b' :: quote name ++ ':' :: compact value ++ compactMembers members

/-- The items behind the first one, and the bracket that closes the array. -/
def compactItems : List Json → List Char
  | [] => [']']
  | item :: items => ',' :: compact item ++ compactItems items

/-- The members behind the first one, and the brace that closes the object. -/
def compactMembers : List (List Char × Json) → List Char
  | [] => ['\x7d']
  | (name, value) :: members =>
    ',' :: quote name ++ ':' :: compact value ++ compactMembers members

end

/-- A line break and the space of a level. -/
def indent (level : Nat) : List Char :=
  '\n' :: List.replicate (2 * level) ' '

mutual

/-- A value at a level with one item to a line. -/
def prettyAt (level : Nat) : Json → List Char
  | .null => ['n', 'u', 'l', 'l']
  | .bool b => boolText b
  | .number text => text
  | .string text => quote text
  | .array [] => ['[', ']']
  | .array (item :: items) =>
    '[' :: indent (level + 1) ++ prettyAt (level + 1) item ++ prettyItems level items
  | .object [] => ['\x7b', '\x7d']
  | .object ((name, value) :: members) =>
    '\x7b' :: indent (level + 1) ++ quote name ++ ':' :: ' ' :: prettyAt (level + 1) value ++
      prettyMembers level members

/-- The items behind the first one, and the bracket that closes the array. -/
def prettyItems (level : Nat) : List Json → List Char
  | [] => indent level ++ [']']
  | item :: items =>
    ',' :: indent (level + 1) ++ prettyAt (level + 1) item ++ prettyItems level items

/-- The members behind the first one, and the brace that closes the object. -/
def prettyMembers (level : Nat) : List (List Char × Json) → List Char
  | [] => indent level ++ ['\x7d']
  | (name, value) :: members =>
    ',' :: indent (level + 1) ++ quote name ++ ':' :: ' ' :: prettyAt (level + 1) value ++
      prettyMembers level members

end

/-- The compact text of a value. -/
def compactText (j : Json) : String :=
  String.ofList (compact j)

/-- The text of a value with one item to a line. -/
def prettyText (j : Json) : String :=
  String.ofList (prettyAt 0 j)

end Json

end CodeAtlas
