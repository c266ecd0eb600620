import CodeAtlas.Syntax.Source

/-!
# `CodeAtlas.Syntax.Lexemes`: rules for single lexemes

The lexemes that most grammars share: marks, words, the usual brackets, and names made of
letters, digits and underscores.
-/

set_option autoImplicit false

namespace CodeAtlas.Syntax

variable {ν : Type}

/-- A lexeme behind blanks and comments. -/
def token (stop : Array Char → Nat → Option Nat) : Rule Source ν :=
  .lexeme (Scan.token stop)

/-- A mark. -/
def mark (text : String) : Rule Source ν :=
  token (Scan.textStop text.toList)

/-- A mark that is not followed by one of the given characters. -/
def markNotBefore (text after : String) : Rule Source ν :=
  token (Scan.textNotBefore text.toList after.toList)

/-- A mark at the very position. -/
def tight (text : String) : Rule Source ν :=
  .lexeme (Scan.raw (Scan.textStop text.toList))

def leftBrace : Rule Source ν := mark "\x7b"
def rightBrace : Rule Source ν := mark "\x7d"
def comma : Rule Source ν := mark ","
def semicolon : Rule Source ν := mark ";"
def sameLine : Rule Source ν := .lexeme Scan.sameLine

/-- Rules between two brackets. -/
def inParens (r : Rule Source ν) : Rule Source ν := .sequence [mark "(", r, mark ")"]
def inBrackets (r : Rule Source ν) : Rule Source ν := .sequence [mark "[", r, mark "]"]
def inBraces (r : Rule Source ν) : Rule Source ν := .sequence [leftBrace, r, rightBrace]

/-- Letters, digits, underscores, and all characters beyond ASCII that are not blank. -/
def isNameChar (c : Char) : Bool :=
  c.isAlphanum || c == '_' || (128 ≤ c.toNat && !Text.isBlank c)

/-- A word of a language whose names are made of the characters of a class. -/
def wordOf (nameChar : Char → Bool) (text : String) : Rule Source ν :=
  token (Scan.wordStop nameChar text.toList)

namespace Scan

/-- The end of a name, reserved or not: a run of name characters that no digit opens. -/
def nameStop (nameChar : Char → Bool) (cs : Array Char) (i : Nat) : Option Nat :=
  if (charAt cs i).isDigit then none else runStop nameChar cs i

/-- The end of a name that is none of the given words. -/
def nameStopExcept (nameChar : Char → Bool) (reserved : List (List Char)) (cs : Array Char)
    (i : Nat) : Option Nat := do
  let stop ← nameStop nameChar cs i
  if reserved.any fun word => word.length == stop - i && textAt cs word i then none
  else some stop

/-- The end of a run of digits, letters and underscores that a digit opens; with a point and
more of them if a digit follows the point, and with a sign behind an exponent mark. -/
def numeralStop (nameChar : Char → Bool) (cs : Array Char) (i : Nat) : Option Nat :=
  if (charAt cs i).isDigit then
    let whole := signed (runEnd nameChar cs i)
    if charAt cs whole == '.' && (charAt cs (whole + 1)).isDigit then
      some (signed (runEnd nameChar cs (whole + 1)))
    else some whole
  else none
where
  /-- The end of a run, past the sign and the digits of an exponent whose mark ends it. -/
  signed (stop : Nat) : Nat :=
    let last := charAt cs (stop - 1)
    let sign := charAt cs stop
    if (last == 'e' || last == 'E') && !(textAt cs ['0', 'x'] i || textAt cs ['0', 'X'] i) &&
        (sign == '+' || sign == '-') && (charAt cs (stop + 1)).isDigit then
      runEnd nameChar cs (stop + 1)
    else stop

end Scan

end CodeAtlas.Syntax
