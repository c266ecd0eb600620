import CodeAtlas.Syntax.Source

/-!
# `CodeAtlas.Grammar.Python.Layout`: lexemes of Python with their layout

The indentation of lines is part of the language. A text is cut into lexemes among which a
line end, and each step into or out of an indented block, is a lexeme without text. Inside
brackets line ends mean nothing.

A formatted string is cut into its literal pieces and the lexemes of the expressions in it. A
stack says what the position is inside of: brackets, the literal part of a formatted string,
an expression in one, or the format behind such an expression.

Comments are lexemes too, except inside brackets. A comment on a line of its own belongs to
the block whose indentation it has, also when the block's last statement came before it.
-/

set_option autoImplicit false

namespace CodeAtlas.Grammar.Python

open CodeAtlas.Syntax

/-- The shapes of lexemes. -/
inductive Shape where
  | word | number | string | mark | comment
  /-- The beginning, a literal piece and the end of a formatted string. -/
  | opening | piece | closing
  /-- A line end, and the steps into and out of a block. -/
  | newline | indent | dedent
deriving DecidableEq, Repr

/-- A lexeme. -/
structure Token where
  shape : Shape
  text : List Char
  start : Nat
  stop : Nat
deriving Repr

/-- How a string ends: its quote, whether it is tripled, and whether a backslash is no
escape. -/
structure Quote where
  mark : Char
  triple : Bool
  verbatim : Bool

/-- What a position is inside of. -/
inductive Inside where
  | bracket
  | literal (quote : Quote)
  | expression
  | format
deriving Inhabited

/-- The state of cutting a text. -/
structure State where
  position : Nat
  inside : List Inside
  /-- The indentations of the blocks around the position, the innermost first. -/
  blocks : List Nat
  tokens : Array Token
  /-- The end of the last lexeme. -/
  last : Nat
  /-- Whether the line has a lexeme so far. -/
  filled : Bool

/-- The state with one more lexeme. -/
def State.push (s : State) (shape : Shape) (cs : Array Char) (stop : Nat) : State :=
  { s with
    position := stop
    tokens := s.tokens.push ⟨shape, (cs.extract s.position stop).toList, s.position, stop⟩
    last := stop
    filled := true }

/-- The state with one more lexeme without text. -/
def State.pushEmpty (s : State) (shape : Shape) : State :=
  { s with tokens := s.tokens.push ⟨shape, [], s.last, s.last⟩ }

/-- Blank characters other than the line feed. -/
def isBlank (c : Char) : Bool :=
  c != '\n' && (Text.isBlank c || c == '\ufeff' || c == '\u2060' || c == '\u200b')

/-- Characters of names. -/
def isNameChar (c : Char) : Bool :=
  c.isAlphanum || c == '_' || (128 ≤ c.toNat && !isBlank c)

/-- Marks of more than one character, each before those that begin it. -/
def longMarks : List (List Char) :=
  ["**=", "//=", ">>=", "<<=", "!=", "==", "<=", ">=", "->", ":=", "+=", "-=", "*=", "/=", "%=",
    "&=", "|=", "^=", "@=", "**", "//", "<<", ">>", "<>"].map String.toList

/-- The end of a number. -/
def numberEnd (cs : Array Char) (i : Nat) : Nat :=
  let digit := fun c : Char => c.isDigit || c == '_'
  if charAt cs i == '0' && ['x', 'X', 'o', 'O', 'b', 'B'].contains (charAt cs (i + 1)) then
    runEnd isNameChar cs (i + 2)
  else
    let whole := runEnd digit cs i
    let fraction := if charAt cs whole == '.' then runEnd digit cs (whole + 1) else whole
    let mark := charAt cs fraction
    let sign := charAt cs (fraction + 1)
    let exponent :=
      if mark == 'e' || mark == 'E' then
        if sign == '+' || sign == '-' then runEnd digit cs (fraction + 2)
        else if sign.isDigit then runEnd digit cs (fraction + 1) else fraction
      else fraction
    if ['j', 'J', 'l', 'L'].contains (charAt cs exponent) then exponent + 1 else exponent

/-- Whether a string ends at a position. -/
def Quote.endsAt (q : Quote) (cs : Array Char) (i : Nat) : Bool :=
  textAt cs (if q.triple then [q.mark, q.mark, q.mark] else [q.mark]) i

/-- The number of quotes at an end of the string. -/
def Quote.width (q : Quote) : Nat :=
  if q.triple then 3 else 1

/-- The position behind the end of a plain string, from inside it. -/
def plainEnd (q : Quote) (cs : Array Char) (i : Nat) : Nat :=
  if i < cs.size then
    if q.endsAt cs i then i + q.width
    else if charAt cs i == '\\' then plainEnd q cs (i + 2)
    else plainEnd q cs (i + 1)
  else cs.size
termination_by cs.size - i

/-- The end of a literal piece of a formatted string, from inside it: at a brace that is not
doubled, or at the end of the string. -/
def pieceEnd (q : Quote) (cs : Array Char) (i : Nat) : Nat :=
  if i < cs.size then
    let c := charAt cs i
    let next := charAt cs (i + 1)
    if q.endsAt cs i then i
    else if c == '\\' then
      if !q.verbatim && next == 'N' && charAt cs (i + 2) == '\x7b' then
        pieceEnd q cs (max (i + 2) (Scan.behind ['\x7d'] cs i))
      else if next == '\x7b' || next == '\x7d' then pieceEnd q cs (i + 1)
      else pieceEnd q cs (i + 2)
    else if c == '\x7b' || c == '\x7d' then
      if next == c then pieceEnd q cs (i + 2) else i
    else pieceEnd q cs (i + 1)
  else cs.size
termination_by cs.size - i

/-- The quote of a string that starts behind the given letters, and the position behind it. -/
def quoteAt? (letters : List Char) (cs : Array Char) (i : Nat) : Option (Quote × Nat) :=
  let c := charAt cs i
  if c == '"' || c == '\x27' then
    let triple := textAt cs [c, c, c] i
    some (⟨c, triple, letters.any fun l => l == 'r' || l == 'R'⟩, i + if triple then 3 else 1)
  else none

/-- Letters that may stand in front of a string. -/
def isStringLetter (c : Char) : Bool :=
  ['r', 'R', 'b', 'B', 'u', 'U', 'f', 'F', 't', 'T'].contains c

/-- A comment on a line of its own: its indentation and its range. -/
structure OwnLine where
  indentation : Nat
  start : Nat
  stop : Nat

/-- The comments on the blank lines from a position on, and the indentation and the position
of the first line that is not blank; at the end of the text the indentation is zero. -/
def blankLines (cs : Array Char) (indentation i : Nat) (seen : Array OwnLine) :
    Array OwnLine × Nat × Nat :=
  if h : i < cs.size then
    let c := cs[i]
    if c == '\n' then blankLines cs 0 (i + 1) seen
    else if c == ' ' then blankLines cs (indentation + 1) (i + 1) seen
    else if c == '\t' then blankLines cs (indentation + 8) (i + 1) seen
    else if c == '\r' || c == '\x0c' then blankLines cs 0 (i + 1) seen
    else if isBlank c then blankLines cs indentation (i + 1) seen
    else if c == '#' then
      let stop := max (i + 1) (Scan.lineStop cs i)
      blankLines cs 0 stop (seen.push ⟨indentation, i, stop⟩)
    else (seen, indentation, i)
  else (seen, 0, cs.size)
termination_by cs.size - i
decreasing_by all_goals omega

/-- A comment as a lexeme. -/
def State.pushComment (s : State) (cs : Array Char) (c : OwnLine) : State :=
  { s with
    tokens := s.tokens.push ⟨.comment, (cs.extract c.start c.stop).toList, c.start, c.stop⟩
    last := c.stop }

/-- The steps out of blocks before a line of a given indentation, with the comments before
it: a comment stays in a block as long as it is indented as far as the block. The first
argument bounds the number of steps. -/
def State.leave (cs : Array Char) (indentation : Nat) : Nat → State → List OwnLine → State
  | 0, s, _ => s
  | bound + 1, s, comments =>
    match s.blocks with
    | block :: outer =>
      if indentation < block then
        match comments with
        | c :: rest =>
          if c.indentation < block then
            State.leave cs indentation bound { s.pushEmpty .dedent with blocks := outer } comments
          else State.leave cs indentation bound (s.pushComment cs c) rest
        | [] => State.leave cs indentation bound { s.pushEmpty .dedent with blocks := outer } []
      else comments.foldl (fun s c => s.pushComment cs c) s
    | [] => comments.foldl (fun s c => s.pushComment cs c) s

/-- The state behind a line end: the line ends if it had a lexeme, and the indentation of the
next line that is not blank leads into a block or out of blocks. -/
def State.newLine (cs : Array Char) (s : State) : State :=
  let (comments, indentation, position) := blankLines cs 0 s.position #[]
  let s := if s.filled then s.pushEmpty .newline else s
  let s := { s with position := position, filled := false }
  if s.blocks.headD 0 < indentation then
    comments.foldl (fun s c => s.pushComment cs c)
      { s.pushEmpty .indent with blocks := indentation :: s.blocks }
  else
    State.leave cs indentation (s.blocks.length + comments.size + 1) s comments.toList

/-- The state behind a mark, which may open or close brackets. -/
def State.pushMark (s : State) (cs : Array Char) (stop : Nat) : State :=
  let c := charAt cs s.position
  let t := s.push .mark cs stop
  if c == '(' || c == '[' || c == '\x7b' then { t with inside := .bracket :: s.inside }
  else if c == ')' || c == ']' || c == '\x7d' then { t with inside := s.inside.drop 1 }
  else t

/-- One step inside code. -/
def State.stepCode (cs : Array Char) (s : State) : State :=
  let i := s.position
  let c := charAt cs i
  let inExpression := match s.inside with
    | .expression :: _ => true
    | _ => false
  if c == '\n' then
    if s.inside.isEmpty then s.newLine cs else { s with position := i + 1 }
  else if isBlank c then { s with position := runEnd isBlank cs i }
  else if c == '\\' && (charAt cs (i + 1) == '\n' || textAt cs ['\r', '\n'] (i + 1)) then
    { s with position := if charAt cs (i + 1) == '\n' then i + 2 else i + 3 }
  else if c == '#' then
    let stop := max (i + 1) (Scan.lineStop cs i)
    if s.inside.isEmpty then { s.push .comment cs stop with filled := s.filled }
    else { s with position := stop }
  else
    let letters := runEnd isStringLetter cs i
    match quoteAt? (cs.extract i letters).toList cs letters with
    | some (q, start) =>
      if (cs.extract i letters).any fun l => ['f', 'F', 't', 'T'].contains l then
        { s.push .opening cs start with inside := .literal q :: s.inside }
      else s.push .string cs (max (i + 1) (plainEnd q cs start))
    | none =>
      if c.isDigit || (c == '.' && (charAt cs (i + 1)).isDigit) then
        s.push .number cs (max (i + 1) (numberEnd cs i))
      else if isNameChar c then s.push .word cs (runEnd isNameChar cs i)
      else if inExpression && c == ':' then
        { s.push .mark cs (i + 1) with inside := .format :: s.inside }
      else
        match longMarks.find? fun m => textAt cs m i with
        | some m => s.push .mark cs (i + m.length)
        | none => s.pushMark cs (i + 1)

/-- One step inside the literal part of a formatted string. -/
def State.stepLiteral (cs : Array Char) (q : Quote) (s : State) : State :=
  let i := s.position
  if q.endsAt cs i then
    { s.push .closing cs (i + q.width) with inside := s.inside.drop 1 }
  else
    let stop := pieceEnd q cs i
    if i < stop then s.push .piece cs stop
    else { s.push .mark cs (i + 1) with inside := .expression :: s.inside }

/-- One step inside a format. -/
def State.stepFormat (cs : Array Char) (s : State) : State :=
  let i := s.position
  let c := charAt cs i
  if c == '\x7b' then { s.push .mark cs (i + 1) with inside := .expression :: s.inside }
  else if c == '\x7d' then
    { s.push .mark cs (i + 1) with inside := s.inside.drop 2 }
  else s.push .piece cs (max (i + 1) (runEnd (fun c => c != '\x7b' && c != '\x7d') cs i))

/-- One step of cutting a text. -/
def State.step (cs : Array Char) (s : State) : State :=
  match s.inside with
  | .literal q :: _ => s.stepLiteral cs q
  | .format :: _ => s.stepFormat cs
  | _ => s.stepCode cs

/-- Steps up to the end of the text; the first argument bounds their number. -/
def State.run (cs : Array Char) : Nat → State → State
  | 0, s => s
  | bound + 1, s => if s.position < cs.size then State.run cs bound (s.step cs) else s

/-- The lexemes of a text. At the end of the text the line and all blocks end. -/
def tokens (cs : Array Char) : Array Token :=
  let start := blankLines cs 0 0 #[]
  let s : State := ⟨start.2.2, [], [], #[], 0, false⟩
  let s := start.1.foldl (fun s c => s.pushComment cs c) s
  let s := s.run cs (2 * cs.size + 2)
  let s := if s.filled then s.pushEmpty .newline else s
  (State.leave cs 0 (s.blocks.length + 1) s []).tokens

end CodeAtlas.Grammar.Python
