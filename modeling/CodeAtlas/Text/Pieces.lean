/-!
# `CodeAtlas.Text.Pieces`: cutting texts at a separator

`pieces` cuts a text at every occurrence of a character, `glue` puts pieces together again,
and `cutLast` cuts at the last occurrence only.
-/

set_option autoImplicit false

namespace CodeAtlas.Text

/-- The stretches of a text between the occurrences of a separator; there is always one more
than there are separators. -/
def pieces (sep : Char) : List Char → List (List Char)
  | [] => [[]]
  | c :: rest =>
    if c = sep then [] :: pieces sep rest
    else
      match pieces sep rest with
      | [] => [[c]]
      | first :: others => (c :: first) :: others

/-- Pieces with a separator between each two. -/
def glue (sep : Char) : List (List Char) → List Char
  | [] => []
  | [piece] => piece
  | piece :: others => piece ++ sep :: glue sep others

/-- The text before and behind the last occurrence of a separator. -/
def cutLast (sep : Char) : List Char → Option (List Char × List Char)
  | [] => none
  | c :: rest =>
    match cutLast sep rest with
    | some (before, behind) => some (c :: before, behind)
    | none => if c = sep then some ([], rest) else none

/-- Whether a text begins with another. -/
def startsWith (text start : List Char) : Bool :=
  start.isPrefixOf text

/-- The rest of a text behind a given beginning. -/
def afterStart? : List Char → List Char → Option (List Char)
  | rest, [] => some rest
  | [], _ :: _ => none
  | c :: rest, s :: start => if c = s then afterStart? rest start else none

/-- Whether a text ends with another. -/
def endsWith (text ending : List Char) : Bool :=
  ending.isSuffixOf text

/-- Whether a text occurs in another. -/
def occursIn (part : List Char) : List Char → Bool
  | [] => part.isEmpty
  | c :: rest => part.isPrefixOf (c :: rest) || occursIn part rest

end CodeAtlas.Text
