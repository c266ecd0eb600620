import CodeAtlas.Syntax.Rule
import CodeAtlas.Text.Blank

/-!
# `CodeAtlas.Syntax.Source`: source texts and their lexemes

A source text is an array of characters together with, for each position, the position of the
first character behind the blanks and comments that start there. A lexeme is looked for behind
these; `Scan.raw` looks at the very position instead, for the inside of literals.
-/

set_option autoImplicit false

namespace CodeAtlas.Syntax

/-- What counts as space between lexemes. -/
structure Space where
  /-- The blank characters. -/
  blank : Char → Bool
  /-- The position behind the comment that starts at a position, if one does. -/
  comment : Array Char → Nat → Option Nat

/-- A source text prepared for matching. -/
structure Source where
  /-- The characters of the text. -/
  chars : Array Char
  /-- For each position the first position behind blanks and comments. -/
  skips : Array Nat

/-- The character at a position; NUL behind the end. -/
def charAt (cs : Array Char) (i : Nat) : Char :=
  cs.getD i '\x00'

/-- The first position from `i` on whose character is not in the class. -/
def runEnd (p : Char → Bool) (cs : Array Char) (i : Nat) : Nat :=
  if h : i < cs.size then
    if p cs[i] then runEnd p cs (i + 1) else i
  else i
termination_by cs.size - i

/-- Whether a text stands at a position. -/
def textAt (cs : Array Char) : List Char → Nat → Bool
  | [], _ => true
  | c :: rest, i => cs[i]? == some c && textAt cs rest (i + 1)

/-- The first position from `i` on at which a text stands; the size if there is none. -/
def findText (text : List Char) (cs : Array Char) (i : Nat) : Nat :=
  if i < cs.size then
    if textAt cs text i then i else findText text cs (i + 1)
  else cs.size
termination_by cs.size - i

namespace Source

/-- Fills in the skips below a position, given those from there on. -/
def fillSkips (space : Space) (cs : Array Char) : Nat → Array Nat → Array Nat
  | 0, skips => skips
  | i + 1, skips =>
    let skip :=
      if space.blank (charAt cs i) then skips.getD (i + 1) cs.size
      else
        match space.comment cs i with
        | some stop => skips.getD stop cs.size
        | none => i
    fillSkips space cs i (skips.setIfInBounds i skip)

/-- Prepares a text. -/
def ofChars (space : Space) (cs : Array Char) : Source :=
  ⟨cs, fillSkips space cs cs.size (Array.replicate (cs.size + 1) cs.size)⟩

/-- The first position from `i` on behind blanks and comments. -/
def skip (s : Source) (i : Nat) : Nat :=
  s.skips.getD i s.chars.size

/-- Whether a line feed lies between two positions. -/
def breaks (s : Source) (i j : Nat) : Bool :=
  if i < j then charAt s.chars i == '\n' || s.breaks (i + 1) j else false
termination_by j - i

end Source

/-! ### Scanners -/

namespace Scan

/-- A scanner looks for one lexeme. -/
abbrev Scanner := Source → Nat → Option Lexeme

/-- A scanner that starts behind blanks and comments; `stop` gives the end of the lexeme. -/
def token (stop : Array Char → Nat → Option Nat) : Scanner := fun s i =>
  let start := s.skip i
  (stop s.chars start).map fun stop => ⟨stop, some (start, stop)⟩

/-- A scanner that starts at the very position. -/
def raw (stop : Array Char → Nat → Option Nat) : Scanner := fun s i =>
  (stop s.chars i).map fun stop => ⟨stop, some (i, stop)⟩

/-- A scanner that starts behind blank characters but not behind comments. -/
def behindBlanks (blank : Char → Bool) (stop : Array Char → Nat → Option Nat) : Scanner :=
  fun s i =>
    let start := runEnd blank s.chars i
    (stop s.chars start).map fun stop => ⟨stop, some (start, stop)⟩

/-- A test of the position behind blanks and comments; takes nothing. -/
def test (p : Array Char → Nat → Bool) : Scanner := fun s i =>
  if p s.chars (s.skip i) then some ⟨i, none⟩ else none

/-- Succeeds if no line feed lies before the next lexeme; takes nothing. -/
def sameLine : Scanner := fun s i =>
  if s.breaks i (s.skip i) then none else some ⟨i, none⟩

/-- Succeeds if only blanks and comments are left; takes nothing. -/
def atEnd : Scanner := fun s i =>
  if s.skip i ≥ s.chars.size then some ⟨i, none⟩ else none

/-- The end of a fixed text. -/
def textStop (text : List Char) (cs : Array Char) (i : Nat) : Option Nat :=
  if textAt cs text i then some (i + text.length) else none

/-- The end of a fixed text that is not followed by one of the given characters. -/
def textNotBefore (text after : List Char) (cs : Array Char) (i : Nat) : Option Nat :=
  let stop := i + text.length
  if textAt cs text i && !(stop < cs.size && after.contains (charAt cs stop)) then some stop
  else none

/-- The end of the first of several fixed texts that stands here. -/
def anyText (texts : List (List Char)) (cs : Array Char) (i : Nat) : Option Nat :=
  texts.findSome? fun text => textStop text cs i

/-- The end of a word: a fixed text that no further word character follows. -/
def wordStop (wordChar : Char → Bool) (text : List Char) (cs : Array Char) (i : Nat) :
    Option Nat :=
  let stop := i + text.length
  if textAt cs text i && !(stop < cs.size && wordChar (charAt cs stop)) then some stop else none

/-- The end of a run of characters of a class, at least one. -/
def runStop (p : Char → Bool) (cs : Array Char) (i : Nat) : Option Nat :=
  let stop := runEnd p cs i
  if i < stop then some stop else none

/-- The end of a line, at its line feed or at the end of the text. -/
def lineStop (cs : Array Char) (i : Nat) : Nat :=
  runEnd (· != '\n') cs i

/-- The position behind the next occurrence of a text; the size if there is none. -/
def behind (text : List Char) (cs : Array Char) (i : Nat) : Nat :=
  min cs.size (findText text cs i + text.length)

/-- The end of a `/* … */` comment. -/
def blockComment (cs : Array Char) (i : Nat) : Option Nat :=
  if textAt cs ['/', '*'] i then some (behind ['*', '/'] cs (i + 2)) else none

/-- The end of a `// …` comment. -/
def lineComment (cs : Array Char) (i : Nat) : Option Nat :=
  if textAt cs ['/', '/'] i then some (lineStop cs i) else none

/-- The position behind a closing quote; a backslash takes the next character with it. The
body ends before the quote, or fails at the end of the text. -/
def quotedFrom (quote : Char) (cs : Array Char) (i : Nat) : Option Nat :=
  if h : i < cs.size then
    if cs[i] == quote then some (i + 1)
    else if cs[i] == '\\' then quotedFrom quote cs (i + 2)
    else quotedFrom quote cs (i + 1)
  else none
termination_by cs.size - i

/-- The end of a literal between two equal quotes with backslash escapes. -/
def quoted (quote : Char) (cs : Array Char) (i : Nat) : Option Nat :=
  if charAt cs i == quote && i < cs.size then quotedFrom quote cs (i + 1) else none

end Scan

end CodeAtlas.Syntax
