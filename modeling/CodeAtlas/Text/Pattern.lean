import CodeAtlas.Text.Pieces
import CodeAtlas.Text.Word

/-!
# `CodeAtlas.Text.Pattern`: searching a text for a pattern

A pattern reads the front of a text. Often it can do so in several ways, which it puts in an
order: a run of characters is rather long than short, and an earlier word is preferred to a
later one. A search goes through a text from left to right. At the first place where the
pattern can be read it takes the preferred way, and goes on behind what was read.
-/

set_option autoImplicit false

namespace CodeAtlas.Text

/-- A pattern of texts. -/
inductive Pattern where
  /-- Characters of a class, at least one and rather more than less. -/
  | run (isMember : Char → Bool)
  /-- One of some words, rather an earlier one than a later one. -/
  | oneOf (words : List (List Char))
  /-- The place between a character that words are made of and one that is none, or between one
  and the end of the text. Nothing is read. -/
  | wordBoundary
  /-- One pattern behind the other. -/
  | seq (first second : Pattern)
  /-- A pattern that keeps what it reads. -/
  | group (inner : Pattern)

/-- A way in which a pattern reads the front of a text: the last character before what is
left, what is left, and what was kept. -/
structure Reading where
  before : Option Char
  rest : List Char
  kept : Option (List Char)

namespace Pattern

/-- The ways to read characters of a class, the longest first, before other readings. -/
def runs (isMember : Char → Bool) (others : List Reading) : List Char → List Reading
  | [] => others
  | c :: rest => if isMember c then runs isMember (⟨some c, rest, none⟩ :: others) rest else others

/-- Whether a character belongs to a word; there may be none. -/
def inWord (c? : Option Char) : Bool :=
  c?.any isWordChar

/-- The ways in which a pattern reads the front of a text, the preferred one first. It is told
the character before the text. -/
def readings : Pattern → Option Char → List Char → List Reading
  | run isMember, _, text => runs isMember [] text
  | oneOf words, before, text =>
    words.filterMap fun word =>
      (afterStart? text word).map fun rest => ⟨word.getLast?.or before, rest, none⟩
  | wordBoundary, before, text =>
    if inWord before = inWord text.head? then [] else [⟨before, text, none⟩]
  | seq first second, before, text =>
    (first.readings before text).flatMap fun r =>
      (second.readings r.before r.rest).map fun s => { s with kept := r.kept.or s.kept }
  | group inner, before, text =>
    (inner.readings before text).map fun r =>
      { r with kept := some (text.take (text.length - r.rest.length)) }

/-- Whether a pattern always reads something. -/
def consumes : Pattern → Bool
  | run _ => true
  | oneOf words => words.all fun word => !word.isEmpty
  | wordBoundary => false
  | seq first second => first.consumes || second.consumes
  | group inner => inner.consumes

end Pattern

/-- A pattern that always reads something, so that a search for it comes to an end. -/
structure SearchPattern where
  pattern : Pattern
  consumes : pattern.consumes = true := by decide

namespace SearchPattern

/-- What a search finds in a text, from left to right. The first characters may be passed over,
because an earlier reading has gone over them. -/
def searchFrom (p : SearchPattern) : Option Char → Nat → List Char → List Reading
  | _, _, [] => []
  | _, skipped + 1, c :: rest => searchFrom p (some c) skipped rest
  | before, 0, c :: rest =>
    match p.pattern.readings before (c :: rest) with
    | [] => searchFrom p (some c) 0 rest
    | r :: _ => r :: searchFrom p (some c) (rest.length - r.rest.length) rest

/-- What is kept of everything that a search finds in a text. -/
def search (p : SearchPattern) (text : List Char) : List (List Char) :=
  (p.searchFrom none 0 text).filterMap Reading.kept

end SearchPattern

end CodeAtlas.Text
