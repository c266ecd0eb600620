import CodeAtlas.Syntax.Lexemes

/-!
# `CodeAtlas.Grammar.Go`: Go

A statement or declaration ends at a semicolon, at a line break, before a closing bracket or at
the end of the text. What continues an expression therefore stands on the same line as what it
continues. Types yield no nodes but those of array lengths, and an expression is a flat run of
operands and operators.

A name with types in brackets and one argument in parentheses is a conversion; with any other
number of arguments it is a call of the name.
-/

set_option autoImplicit false

namespace CodeAtlas.Grammar.Go

open CodeAtlas.Syntax

/-- The parts of the grammar that refer to each other. A flag says whether a literal may stand
there that opens with the name of its type. -/
inductive Part where
  | statement | block | expression (literals : Bool) | operand (literals : Bool) | type
  | typeLiteral | parameters | literalValue | simple (literals : Bool)
deriving DecidableEq, Hashable

/-- The grammar's rules. -/
abbrev R := Rule Source Part

/-! ### Lexemes -/

/-- Comments between lexemes. -/
def comment (cs : Array Char) (i : Nat) : Option Nat :=
  Scan.lineComment cs i <|> Scan.blockComment cs i

/-- Space between lexemes. -/
def space : Space := ⟨Text.isBlank, comment⟩

def word (text : String) : R := wordOf isNameChar text

/-- Words that are no names. -/
def reserved : List (List Char) :=
  ["break", "case", "chan", "const", "continue", "default", "defer", "else", "fallthrough",
    "for", "func", "go", "goto", "if", "import", "interface", "map", "package", "range",
    "return", "select", "struct", "switch", "type", "var"].map String.toList

def anyName : R := token (Scan.nameStopExcept isNameChar reserved)
def identifier : R := .node "identifier" anyName
def fieldName : R := .role "name" (.node "field_identifier" anyName)

/-- The mark around texts without escapes. -/
def backquote : Char := Char.ofNat 96

/-- The end of a text without escapes. -/
def rawTextStop (cs : Array Char) (i : Nat) : Option Nat :=
  if charAt cs i == backquote then some (Scan.behind [backquote] cs (i + 1)) else none

/-- The end of a number. -/
def numberStop (cs : Array Char) (i : Nat) : Option Nat :=
  if charAt cs i == '.' then
    if (charAt cs (i + 1)).isDigit then Scan.numeralStop isNameChar cs (i + 1) else none
  else
    (Scan.numeralStop isNameChar cs i).map fun stop =>
      if charAt cs stop == '.' && charAt cs (stop + 1) != '.' then stop + 1 else stop

def string : R :=
  .choice [
    .node "interpreted_string_literal" (token (Scan.quoted '"')),
    .node "raw_string_literal" (token rawTextStop)]

/-- The end of a statement where nothing but a line break or a closing bracket marks it. -/
def lineEnd : Scan.Scanner := fun s i =>
  let j := s.skip i
  let c := charAt s.chars j
  if j ≥ s.chars.size || s.breaks i j || c == ')' || c == '\x7d' then some ⟨i, none⟩ else none

/-- The end of a statement. -/
def terminator : R := .choice [.node ";" semicolon, .lexeme lineEnd]

/-- Rules in brackets, each with its end. -/
def each (r : R) : R := .many (.sequence [r, terminator])

/-! ### Types -/

/-- One or more types, as in the arguments of a general type. -/
def typeList : R := .sequence [.sepBy comma (.sepBy (mark "|") (.part .type)), comma.optional]

/-- The name of a type, perhaps of another package, without type arguments. -/
def typeName : R := .sequence [anyName, .optional (.sequence [sameLine, mark ".", anyName])]

/-- The arguments of a general type. -/
def typeArguments : R := .sequence [sameLine, inBrackets typeList]

/-- What a function gives back. -/
def result : R := .optional (.sequence [sameLine, .choice [.part .parameters, .part .type]])

def parametersRule : R :=
  .node "parameter_list" (inParens (.listOf comma (.choice [
    .sequence [.sepBy comma anyName, (mark "...").optional, .part .type],
    .sequence [(mark "...").optional, .part .type]])))

def structType : R :=
  .sequence [word "struct", inBraces (each (.sequence [
    .choice [
      .sequence [.sepBy comma anyName, sameLine, .part .type],
      .sequence [(mark "*").optional, typeName, typeArguments.optional]],
    .optional (.sequence [sameLine, string])]))]

def interfaceType : R :=
  .sequence [word "interface", inBraces (each (.choice [
    .sequence [anyName, sameLine, .part .parameters, result],
    .sepBy (mark "|") (.part .type)]))]

/-- Types that do not open with a name. -/
def typeLiteralRule : R :=
  .choice [
    .sequence [mark "[", mark "]", sameLine, .part .type],
    .sequence [mark "[", .choice [mark "...", .part (.expression true)], mark "]", sameLine,
      .part .type],
    .sequence [word "map", inBrackets (.part .type), .part .type],
    .sequence [mark "<-", word "chan", .part .type],
    .sequence [word "chan", (mark "<-").optional, .part .type],
    .sequence [word "func", .part .parameters, result],
    structType, interfaceType]

def typeRule : R :=
  .choice [
    inParens (.part .type),
    .sequence [.choice [mark "*", mark "~"], .part .type],
    .part .typeLiteral,
    .sequence [typeName, typeArguments.optional]]

def typeParameters : R :=
  inBrackets (.sequence [
    .sepBy comma (.sequence [.sepBy comma anyName, .sepBy (mark "|") (.part .type)]),
    comma.optional])

/-! ### Expressions -/

/-- An argument: an expression, the elements of one, or a type. -/
def argumentsRest : R :=
  .listOf comma (.choice [
    .sequence [.part (.expression true), (mark "...").optional,
      .ahead (.choice [comma, mark ")"])],
    .part .type])

def arguments : R := .role "arguments" (.node "argument_list" (inParens argumentsRest))

def literalValueRule : R :=
  let element : R := .choice [.part .literalValue, .part (.expression true)]
  .node "literal_value" (inBraces (.listOf comma
    (.sequence [element, .optional (.sequence [mark ":", element])])))

/-- A single value in parentheses, as behind the type that it is converted to. -/
def converted : R := inParens (.sequence [.part (.expression true), comma.optional])

/-- An operand before what continues it. -/
def operandHead (literals : Bool) : R :=
  .choice (
    [.node "func_literal" (.sequence [word "func", .part .parameters, result, sameLine,
        .part .block]),
      .node "composite_literal" (.sequence [.part .typeLiteral, sameLine, .part .literalValue]),
      .node "type_conversion_expression" (.sequence [.part .typeLiteral, sameLine, converted])] ++
    (if literals then
      [.node "composite_literal" (.sequence [typeName, typeArguments.optional, sameLine,
        .part .literalValue])]
    else []) ++
    [.node "type_conversion_expression" (.sequence [typeName, typeArguments, sameLine,
        converted]),
      .node "parenthesized_expression" (inParens (.part (.expression true))),
      .node "parenthesized_type" (inParens (.part .type)),
      .node "rune_literal" (token (Scan.quoted '\x27')),
      .node "number_literal" (token numberStop),
      string,
      .node "nil" (word "nil"), .node "true" (word "true"), .node "false" (word "false"),
      .node "iota" (word "iota"),
      identifier])

def operandRule (literals : Bool) : R :=
  let limit : R := (Rule.part (.expression true)).optional
  .fold (operandHead literals)
    [(.link "type_assertion_expression" "operand" <| .sequence [sameLine, mark ".",
        inParens (.choice [word "type", .part .type])]),
      (.link "selector_expression" "operand" <| .sequence [sameLine, mark ".",
        .role "field" (.node "field_identifier" anyName)]),
      (.link "call_expression" "function" <| .sequence [typeArguments, sameLine, arguments]),
      (.link "call_expression" "function" <| .sequence [sameLine, arguments]),
      (.link "index_expression" "operand" <| .sequence [sameLine,
        inBrackets (.sequence [.part (.expression true), comma.optional])]),
      (.link "slice_expression" "operand" <| .sequence [sameLine,
        inBrackets (.sequence [limit, .some (.sequence [mark ":", limit])])]),
      (.link "type_instantiation_expression" "type" typeArguments)]

/-- The operators that assign. -/
def assigning : List (List Char) :=
  ["<<=", ">>=", "&^=", "+=", "-=", "*=", "/=", "%=", "&=", "|=", "^=", ":="].map String.toList

/-- The operators between two operands, each before those that begin it. -/
def operators : List (List Char) :=
  ["<<", ">>", "&^", "==", "!=", "<=", ">=", "&&", "||", "+", "-", "*", "/", "%", "&", "|", "^",
    "<", ">"].map String.toList

/-- The end of an operator that assigns. -/
def assignStop (cs : Array Char) (i : Nat) : Option Nat :=
  Scan.anyText assigning cs i <|> Scan.textNotBefore ['='] ['='] cs i

/-- The end of an operator between two operands. -/
def operatorStop (cs : Array Char) (i : Nat) : Option Nat :=
  let others : List (List Char) := [['<', '-'], ['+', '+'], ['-', '-']]
  if (Scan.anyText assigning cs i).isSome || (Scan.anyText others cs i).isSome then none
  else Scan.anyText operators cs i

/-- An operand behind its operators. -/
def prefixed (literals : Bool) : R :=
  .sequence [
    .many (.choice [mark "+", mark "-", mark "!", mark "^", mark "*", mark "&",
      .sequence [mark "<-", .absent (.sequence [word "chan"])]]),
    .part (.operand literals)]

def expressionRule (literals : Bool) : R :=
  .sequence [prefixed literals,
    .many (.sequence [sameLine, token operatorStop, prefixed literals])]

def expressions (literals : Bool) : R := .sepBy comma (.part (.expression literals))

/-! ### Declarations -/

/-- A declaration of one thing or of several in parentheses. -/
def declared (opening : String) (spec : R) : R :=
  .sequence [word opening, .choice [inParens (each spec), spec]]

def importDeclaration : R :=
  .node "import_declaration" (declared "import" (.node "import_spec" (.sequence [
    .optional (.choice [mark ".", anyName]), .role "path" string])))

def declarations : List R :=
  let values : R := .sequence [mark "=", expressions true]
  [.node "const_declaration" (declared "const" (.sequence [.sepBy comma anyName,
      .optional (.sequence [sameLine, .part .type]), .optional (.sequence [sameLine, values])])),
    .node "var_declaration" (declared "var" (.sequence [.sepBy comma anyName, .choice [
      .sequence [sameLine, values],
      .sequence [sameLine, .part .type, .optional (.sequence [sameLine, values])]]])),
    .node "type_declaration" (declared "type" (.choice [
      .sequence [anyName, typeParameters.optional, mark "=", .part .type],
      .sequence [anyName, typeParameters, .part .type],
      .sequence [anyName, .part .type]]))]

def functionDeclarations : List R :=
  let rest : R := .sequence [.part .parameters, result,
    .optional (.sequence [sameLine, .role "body" (.part .block)])]
  [.node "function_declaration" (.sequence [word "func", .role "name" identifier,
      typeParameters.optional, rest]),
    .node "method_declaration" (.sequence [word "func", .role "receiver" (.part .parameters),
      fieldName, rest])]

/-! ### Statements -/

/-- An expression, an assignment, a declaration of variables, a count up or down, or a value
sent to a channel. -/
def simpleRule (literals : Bool) : R :=
  .sequence [expressions literals, .optional (.sequence [sameLine, .choice [
    mark "++", mark "--",
    .sequence [mark "<-", .part (.expression literals)],
    .sequence [token assignStop, expressions literals]]])]

def statements : R := .many (.choice [.sequence [.part .statement, terminator], semicolon])

def blockRule : R := .node "block" (inBraces statements)

/-- The cases of a switch or select. -/
def cases (label : R) : R :=
  inBraces (.many (.sequence [
    .choice [.sequence [word "case", label], word "default"], mark ":", statements]))

def ifStatement : R :=
  .node "if_statement" (.sequence [
    .sepBy (word "else") (.sequence [word "if",
      .optional (.sequence [(Rule.part (.simple false)).optional, semicolon]),
      .part (.expression false), .part .block]),
    .optional (.sequence [word "else", .part .block])])

def forStatement : R :=
  .node "for_statement" (.sequence [word "for",
    .choice [
      .sequence [
        .optional (.sequence [expressions false, .choice [mark ":=", mark "="]]),
        word "range", .part (.expression false), .part .block],
      .sequence [(Rule.part (.simple false)).optional, semicolon,
        (Rule.part (.expression false)).optional, semicolon,
        (Rule.part (.simple false)).optional, .part .block],
      .sequence [(Rule.part (.expression false)).optional, .part .block]]])

def switchStatement : R :=
  let label : R := .sepBy comma (.choice [
    .sequence [.part (.expression true), .ahead (.choice [comma, mark ":"])],
    .part .type])
  .node "switch_statement" (.sequence [word "switch",
    .choice [
      .sequence [(Rule.part (.simple false)).optional, semicolon,
        (Rule.part (.simple false)).optional, cases label],
      .sequence [(Rule.part (.simple false)).optional, cases label]]])

def statementRule : R :=
  let target : R := .optional (.sequence [sameLine, anyName])
  .choice (
    declarations ++
    [ifStatement, forStatement, switchStatement,
      .node "select_statement" (.sequence [word "select", cases (.part (.simple true))]),
      .node "return_statement" (.sequence [word "return",
        .optional (.sequence [sameLine, expressions true])]),
      .node "go_statement" (.sequence [word "go", .part (.expression true)]),
      .node "defer_statement" (.sequence [word "defer", .part (.expression true)]),
      .node "break_statement" (.sequence [word "break", target]),
      .node "continue_statement" (.sequence [word "continue", target]),
      .node "goto_statement" (.sequence [word "goto", target]),
      .node "fallthrough_statement" (word "fallthrough"),
      .part .block,
      .node "labeled_statement" (.sequence [anyName, markNotBefore ":" "=",
        .choice [.part .statement, .ahead rightBrace]]),
      .part (.simple true)])

/-! ### The whole text -/

/-- The rule of each part. -/
def rules : List (Part × R) :=
  [(.statement, statementRule), (.block, blockRule),
    (.expression true, expressionRule true), (.expression false, expressionRule false),
    (.operand true, operandRule true), (.operand false, operandRule false),
    (.type, typeRule), (.typeLiteral, typeLiteralRule), (.parameters, parametersRule),
    (.literalValue, literalValueRule),
    (.simple true, simpleRule true), (.simple false, simpleRule false)]

/-- A whole text: comments, declarations and statements. -/
def sourceFile : R :=
  .node "source_file" (.many (.choice [
    .node "comment" (.lexeme (Scan.behindBlanks Text.isBlank comment)),
    .sequence [
      .choice (
        [.node "package_clause" (.sequence [word "package", anyName]), importDeclaration] ++
        functionDeclarations ++
        [.node "statement" (.part .statement)]),
      terminator]]))

end CodeAtlas.Grammar.Go
