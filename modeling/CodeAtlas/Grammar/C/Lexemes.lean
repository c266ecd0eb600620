import CodeAtlas.Syntax.Lexemes

/-!
# `CodeAtlas.Grammar.C.Lexemes`: words, literals and directives of C and C++

A directive takes a line of its own, and with it the line feed at its end. A backslash before a
line feed joins two lines; between lexemes it counts as blank.
-/

set_option autoImplicit false

namespace CodeAtlas.Grammar.C

open CodeAtlas.Syntax

/-- What a dialect adds to the core language. -/
structure Dialect where
  /-- Classes, namespaces, templates and references. -/
  classes : Bool

/-- The parts of the grammar that refer to each other. A flag says whether the names are those
of members. -/
inductive Part where
  | item | statement | block | expression | operand | descriptor | specifiers
  | declarator (members : Bool) | abstract | parameters | initializers | typeName
  | templateArguments | member | qualified | declaration | modifiers
deriving DecidableEq, Hashable

/-- The grammar's rules. -/
abbrev R := Rule Source Part

/-- Rules that only the dialect with classes has. -/
def Dialect.only (d : Dialect) (rules : List R) : List R :=
  if d.classes then rules else []

/-! ### Space -/

/-- The position behind a joined line feed. -/
def joint (cs : Array Char) (i : Nat) : Option Nat :=
  if textAt cs ['\\', '\n'] i then some (i + 2)
  else if textAt cs ['\\', '\x0d', '\n'] i then some (i + 3)
  else none

/-- The end of a line, from which joined lines go on. -/
def logicalLineStop (cs : Array Char) (i : Nat) : Nat :=
  if i < cs.size then
    if charAt cs i == '\n' then i
    else if charAt cs i == '\\' then logicalLineStop cs (i + 2)
    else logicalLineStop cs (i + 1)
  else cs.size
termination_by cs.size - i

/-- A comment. A line comment goes on behind a joined line feed. -/
def comment (cs : Array Char) (i : Nat) : Option Nat :=
  if textAt cs ['/', '/'] i then some (logicalLineStop cs i) else Scan.blockComment cs i

/-- Space between lexemes. -/
def space : Space :=
  ⟨Text.isBlank, fun cs i => comment cs i <|> joint cs i⟩

/-! ### Names and words -/

/-- Characters of names. -/
def isWordChar (c : Char) : Bool :=
  isNameChar c || c == '$'

def word (text : String) : R := wordOf isWordChar text
def anyWord (texts : List String) : R := .choice (texts.map word)

/-- Names of types that the language knows. -/
def primitives : List String :=
  ["bool", "char", "int", "float", "double", "void", "size_t", "ssize_t", "ptrdiff_t", "intptr_t",
    "uintptr_t", "charptr_t", "nullptr_t", "max_align_t", "int8_t", "int16_t", "int32_t",
    "int64_t", "uint8_t", "uint16_t", "uint32_t", "uint64_t", "char8_t", "char16_t", "char32_t",
    "char64_t"]

/-- Words for the size and sign of a number. -/
def sizes : List String := ["signed", "unsigned", "long", "short"]

/-- Words that no name can be. -/
def reservedInAll : List String :=
  primitives ++ sizes ++
  ["struct", "union", "enum", "typedef", "extern", "static", "auto", "register", "inline",
    "const", "volatile", "restrict", "sizeof", "if", "else", "switch", "case", "default",
    "while", "do", "for", "return", "break", "continue", "goto", "NULL", "true", "false",
    "nullptr", "_Generic", "_Atomic", "_Noreturn", "__attribute__", "__extension__", "asm",
    "__asm__", "__asm", "offsetof", "__inline", "__inline__", "thread_local", "alignof",
    "_Alignof", "alignas", "_Alignas", "constexpr"]

/-- Words that no name can be in the dialect with classes. -/
def reservedWithClasses : List String :=
  ["class", "namespace", "template", "typename", "public", "private", "protected", "virtual",
    "explicit", "friend", "using", "operator", "new", "delete", "this", "try", "catch", "throw",
    "static_assert", "decltype", "mutable", "noexcept", "co_await", "co_return", "co_yield",
    "concept", "requires", "consteval", "constinit", "and", "or", "not", "xor", "bitand", "bitor",
    "compl", "and_eq", "or_eq", "xor_eq", "not_eq"]

/-- The words that no name can be. -/
def Dialect.reserved (d : Dialect) : List (List Char) :=
  (reservedInAll ++ if d.classes then reservedWithClasses else []).map String.toList

def anyName (d : Dialect) : R := token (Scan.nameStopExcept isWordChar d.reserved)
def identifier (d : Dialect) : R := .node "identifier" (anyName d)

/-- A name behind the name of what it is inside of, where a name of a known type may stand. -/
def innerName (d : Dialect) : R :=
  token (Scan.nameStopExcept isWordChar
    (d.reserved.filter fun w => !primitives.contains (String.ofList w)))

/-- The name of a variable or function, or of a member. -/
def nameFor (d : Dialect) (members : Bool) : R :=
  .node (if members then "field_identifier" else "identifier") (anyName d)

/-! ### Literals -/

/-- The end of a number: digits, letters, points, separated digits, and the sign of an
exponent. -/
def numberEnd (cs : Array Char) (hex : Bool) (i : Nat) : Nat :=
  if h : i < cs.size then
    let c := cs[i]
    let exponent := ['p', 'P'].contains c || (!hex && ['e', 'E'].contains c)
    if exponent && ['+', '-'].contains (charAt cs (i + 1)) then numberEnd cs hex (i + 2)
    else if isNameChar c || c == '.' then numberEnd cs hex (i + 1)
    else if c == '\x27' && (charAt cs (i + 1)).isAlphanum then numberEnd cs hex (i + 2)
    else i
  else i
termination_by cs.size - i

/-- The end of a number. -/
def numberStop (cs : Array Char) (i : Nat) : Option Nat :=
  let hex := textAt cs ['0', 'x'] i || textAt cs ['0', 'X'] i
  if (charAt cs i).isDigit || (charAt cs i == '.' && (charAt cs (i + 1)).isDigit) then
    some (numberEnd cs hex i)
  else none

/-- The position behind what says how the characters of a literal are encoded. -/
def encodingEnd (cs : Array Char) (i : Nat) : Nat :=
  if textAt cs ['u', '8'] i then i + 2
  else if ['L', 'u', 'U'].contains (charAt cs i) then i + 1
  else i

/-- The end of a string without escapes: `R"x(`, any text, `)x"`. -/
def rawStringStop (cs : Array Char) (i : Nat) : Option Nat :=
  let j := encodingEnd cs i
  let k := runEnd (fun c => c != '(' && c != '"' && c != '\n') cs (j + 2)
  if textAt cs ['R', '"'] j && charAt cs k == '(' then
    some (Scan.behind (')' :: (cs.toList.drop (j + 2)).take (k - (j + 2)) ++ ['"']) cs (k + 1))
  else none

def plainString (d : Dialect) : R :=
  .sequence [
    .choice (
      d.only [.node "raw_string_literal" (token rawStringStop)] ++
      [.node "string_literal" (token fun cs i => Scan.quoted '"' cs (encodingEnd cs i))]),
    .choice (d.only [.lexeme (Scan.raw (Scan.nameStop isNameChar))] ++ [.sequence []])]

/-- A string, or several in a row with names of further ones between them. -/
def string (d : Dialect) : R :=
  let further : R := .choice [plainString d, .sequence [identifier d, .absent (mark "(")]]
  .choice [
    .node "concatenated_string" (.sequence [plainString d, .some further]),
    plainString d,
    .node "concatenated_string" (.sequence [identifier d, plainString d, .many further])]

def literal (d : Dialect) : R :=
  .choice [
    .node "number_literal" (token numberStop),
    .node "char_literal" (token fun cs i => Scan.quoted '\x27' cs (encodingEnd cs i)),
    string d,
    .node "true" (word "true"), .node "false" (word "false"),
    .node "null" (anyWord ["NULL", "nullptr"])]

/-! ### Directives -/

/-- The position behind the blank character, comment or joined line feed that stands at a
position of a line; the same position if there is none. -/
def lineStep (cs : Array Char) (i : Nat) : Nat :=
  let c := charAt cs i
  if c != '\n' && Text.isBlank c then i + 1
  else if c == '/' || c == '\\' then (comment cs i <|> joint cs i).getD i
  else i

/-- The position behind blanks, comments and joined lines on a line. -/
def lineSkip (cs : Array Char) (i : Nat) : Nat :=
  if i < cs.size ∧ i < lineStep cs i then lineSkip cs (lineStep cs i) else i
termination_by cs.size - i

/-- The position behind the line feed that ends a directive. -/
def directiveStop (cs : Array Char) (i : Nat) : Option Nat :=
  let stop := lineSkip cs i
  if stop ≥ cs.size then some cs.size
  else if charAt cs stop == '\n' then some (stop + 1)
  else none

/-- The end of a directive that is not read further. A comment in it may go over several
lines. -/
def remainderEnd (cs : Array Char) (i : Nat) : Nat :=
  if i < cs.size then
    if charAt cs i == '\n' then i + 1
    else if charAt cs i == '\\' then remainderEnd cs (i + 2)
    else if textAt cs ['/', '*'] i then
      remainderEnd cs (max (i + 1) (Scan.behind ['*', '/'] cs (i + 2)))
    else remainderEnd cs (i + 1)
  else cs.size
termination_by cs.size - i

/-- The end of a directive's number sign and word. -/
def directiveWordStop (test : String → Bool) (cs : Array Char) (i : Nat) : Option Nat :=
  if charAt cs i == '#' && i < cs.size then
    let start := runEnd (fun c => c == ' ' || c == '\t') cs (i + 1)
    let stop := runEnd isNameChar cs start
    let text := String.ofList ((cs.extract start stop).toList)
    if start < stop && test text then some stop else none
  else none

/-- The words of the directives between which items are chosen. -/
def conditionWords : List String :=
  ["if", "ifdef", "ifndef", "elif", "elifdef", "elifndef", "else", "endif"]

/-- The start of one of the given directives. -/
def directive (words : List String) : R := token (directiveWordStop words.contains)

def directiveEnd : R := .lexeme (Scan.raw directiveStop)
def remainder : R := .lexeme (Scan.raw fun cs i => some (remainderEnd cs i))

/-- Succeeds if the directive goes on. -/
def sameDirective : R :=
  .lexeme fun s i =>
    let j := lineSkip s.chars i
    if j < s.chars.size && charAt s.chars j != '\n' then some ⟨i, none⟩ else none

/-- A condition of a directive: whatever stands on its line, where a name before arguments is
a call. -/
def conditionPieces (d : Dialect) : Nat → R
  | 0 => .sequence []
  | depth + 1 =>
    let inside := conditionPieces d depth
    .many (.sequence [sameDirective, .choice [
      .sequence [word "defined", .choice [inParens (anyName d), anyName d]],
      .node "call_expression" (.sequence [.role "function" (identifier d),
        .role "arguments" (.node "argument_list" (inParens inside))]),
      inParens inside,
      literal d, identifier d, token (Scan.nameStop isWordChar),
      token fun cs i =>
        if "+-*/%<>=!&|^~?:,".contains (charAt cs i) then some (i + 1) else none]])

/-- The header that a directive includes. -/
def includeDirective (d : Dialect) : R :=
  .node "preproc_include" (.sequence [directive ["include", "include_next", "import"],
    .role "path" (.choice [
      .node "string_literal" (token (Scan.quoted '"')),
      .node "system_lib_string" (token fun cs i =>
        if charAt cs i == '<' then some (Scan.behind ['>'] cs i) else none),
      .node "call_expression" (.sequence [.role "function" (identifier d),
        .role "arguments" (.node "argument_list" (inParens (conditionPieces d 4)))]),
      identifier d]),
    directiveEnd])

/-- Directives around and between the given items. -/
def directives (d : Dialect) (item : R) : List R :=
  let condition : R := .sequence [conditionPieces d 8, directiveEnd]
  [includeDirective d,
    .node "preproc_def" (.sequence [directive ["define"], remainder]),
    .node "preproc_if" (.sequence [
      .choice [
        .sequence [directive ["if"], condition],
        .sequence [directive ["ifdef", "ifndef"], anyName d]],
      .many item,
      .many (.node "preproc_elif" (.sequence [
        .choice [
          .sequence [directive ["elif"], condition],
          .sequence [directive ["elifdef", "elifndef"], anyName d]],
        .many item])),
      .optional (.node "preproc_else" (.sequence [directive ["else"], .many item])),
      directive ["endif"]]),
    .node "preproc_call" (.sequence [
      token (directiveWordStop fun text =>
        !conditionWords.contains text),
      remainder])]

end CodeAtlas.Grammar.C
