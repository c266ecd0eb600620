import CodeAtlas.Text.Utf8

/-!
# `CodeAtlas.Glob.Basic`: patterns of paths

A pattern is a list of items, and matches a text as a whole. Texts are matched byte by byte, and
neither `?` nor `*` stops at a slash. Two stars between slashes stand for any number of
directories.
-/

set_option autoImplicit false

namespace CodeAtlas

/-- A part of a pattern. -/
inductive GlobItem where
  | byte (b : UInt8)
  /-- Any single byte. -/
  | any
  /-- Any text. -/
  | star
  /-- Any directories at the front: `**/`. -/
  | front
  /-- Anything in a directory: `/**` at the end. -/
  | inside
  /-- Any directories between two names: `/**/`. -/
  | between
  /-- A byte inside one of some ranges, or outside of all of them. -/
  | range (negated : Bool) (ranges : List (UInt8 × UInt8))
  /-- One of several patterns; an empty list stands for the empty text. -/
  | choice (alternatives : List (List GlobItem))

namespace GlobItem

/-- A text is accepted behind any number of its bytes. -/
def behindAny (accepts : List UInt8 → Bool) : List UInt8 → Bool
  | [] => accepts []
  | b :: rest => accepts (b :: rest) || behindAny accepts rest

/-- A text is accepted behind one of its slashes. -/
def behindSlash (accepts : List UInt8 → Bool) : List UInt8 → Bool
  | [] => false
  | b :: rest => (b = 0x2f && accepts rest) || behindSlash accepts rest

/-- A text is accepted behind a byte of a certain kind. -/
def behindOne (kind : UInt8 → Bool) (accepts : List UInt8 → Bool) : List UInt8 → Bool
  | [] => false
  | b :: rest => kind b && accepts rest

/-- Whether a byte lies in one of some ranges. -/
def inRanges (ranges : List (UInt8 × UInt8)) (b : UInt8) : Bool :=
  ranges.any fun r => r.1 ≤ b && b ≤ r.2

mutual

/-- Whether an item matches the beginning of a text so that the rest is accepted. -/
def matchesBefore (accepts : List UInt8 → Bool) : GlobItem → List UInt8 → Bool
  | .byte b, text => behindOne (· = b) accepts text
  | .any, text => behindOne (fun _ => true) accepts text
  | .star, text => behindAny accepts text
  | .front, text => accepts text || behindSlash accepts text
  | .inside, text => behindOne (· = 0x2f) (behindAny accepts) text
  | .between, text =>
    behindOne (· = 0x2f) (fun rest => accepts rest || behindSlash accepts rest) text
  | .range negated ranges, text => behindOne (fun b => inRanges ranges b != negated) accepts text
  | .choice alternatives, text =>
    (alternatives.isEmpty && accepts text) || anyMatchesBefore accepts alternatives text

/-- Whether items one after the other match the beginning of a text so that the rest is
accepted. -/
def allMatchBefore (accepts : List UInt8 → Bool) : List GlobItem → List UInt8 → Bool
  | [], text => accepts text
  | item :: items, text => matchesBefore (fun rest => allMatchBefore accepts items rest) item text

/-- Whether one of several patterns matches the beginning of a text so that the rest is
accepted. -/
def anyMatchesBefore (accepts : List UInt8 → Bool) : List (List GlobItem) → List UInt8 → Bool
  | [], _ => false
  | items :: others, text =>
    allMatchBefore accepts items text || anyMatchesBefore accepts others text

end

end GlobItem

/-- A pattern of paths. -/
structure Glob where
  items : List GlobItem

namespace Glob

/-- Whether a pattern matches the whole of a text. Directories at the front alone stand for
everything. -/
def isMatch (g : Glob) (text : List UInt8) : Bool :=
  match g.items with
  | [.front] => true
  | items => GlobItem.allMatchBefore List.isEmpty items text

end Glob

end CodeAtlas
