import CodeAtlas.Syntax.Lexemes

/-!
# `CodeAtlas.Grammar.Java`: Java

An expression is a flat run of operands and operators. Types yield no nodes but those of the
annotations in them; patterns yield none. A declaration of variables is tried before an
expression, and a cast before an expression in parentheses.
-/

set_option autoImplicit false

namespace CodeAtlas.Grammar.Java

open CodeAtlas.Syntax

/-- The parts of the grammar that refer to each other. -/
inductive Part where
  | statement | block | expression | operand | type | marker | member | classBody
  | initializer | recordPattern | switch | modifiers
deriving DecidableEq, Hashable

/-- The grammar's rules. -/
abbrev R := Rule Source Part

/-! ### Lexemes -/

/-- Comments between lexemes. -/
def comment (cs : Array Char) (i : Nat) : Option Nat :=
  Scan.lineComment cs i <|> Scan.blockComment cs i

/-- Space between lexemes. -/
def space : Space := ⟨Text.isBlank, comment⟩

/-- Characters of names. -/
def isWordChar (c : Char) : Bool :=
  isNameChar c || c == '$'

def word (text : String) : R := wordOf isWordChar text

/-- Names of types that are no classes. -/
def primitives : List String :=
  ["boolean", "byte", "char", "double", "float", "int", "long", "short", "void"]

/-- Words that are no names. -/
def reserved : List (List Char) :=
  (["abstract", "assert", "break", "case", "catch", "class", "const", "continue", "default",
    "do", "else", "enum", "extends", "false", "final", "finally", "for", "goto", "if",
    "implements", "import", "instanceof", "interface", "native", "new", "null", "package",
    "private", "protected", "public", "return", "static", "strictfp", "super", "switch",
    "synchronized", "this", "throw", "throws", "transient", "true", "try", "volatile",
    "while"] ++ primitives).map String.toList

def anyName : R := token (Scan.nameStopExcept isWordChar reserved)
def identifier : R := .node "identifier" anyName
def name : R := .role "name" identifier

/-- The end of a number. -/
def numberStop (cs : Array Char) (i : Nat) : Option Nat :=
  if charAt cs i == '.' then
    if (charAt cs (i + 1)).isDigit then Scan.numeralStop isNameChar cs (i + 1) else none
  else
    (Scan.numeralStop isNameChar cs i).map fun stop =>
      let next := charAt cs (stop + 1)
      if charAt cs stop == '.' && next != '.' && !(isNameChar next && !"dDfFeE".contains next) then
        runEnd isNameChar cs (stop + 1)
      else stop

/-- The end of the characters of a string up to its closing quotes or a value in it. -/
def fragmentEnd (quotes : List Char) (cs : Array Char) (i : Nat) : Nat :=
  if i < cs.size then
    if textAt cs quotes i || textAt cs ['\\', '\x7b'] i then i
    else if charAt cs i == '\\' then fragmentEnd quotes cs (i + 2)
    else fragmentEnd quotes cs (i + 1)
  else cs.size
termination_by cs.size - i

/-- A string between the given quotes, perhaps with values in it. -/
def quoted (quotes : List Char) : R :=
  .sequence [token (Scan.textStop quotes),
    .many (.choice [
      .lexeme (Scan.raw fun cs i =>
        let stop := fragmentEnd quotes cs i
        if i < stop then some stop else none),
      .node "string_interpolation"
        (.sequence [tight "\\\x7b", (Rule.part .expression).optional, rightBrace])]),
    .lexeme (Scan.raw (Scan.textStop quotes))]

def string : R :=
  .node "string_literal" (.choice [quoted ['"', '"', '"'], quoted ['"']])

def literal : R :=
  .choice [
    string,
    .node "character_literal" (token (Scan.quoted '\x27')),
    .node "number_literal" (token numberStop),
    .node "true" (word "true"), .node "false" (word "false"), .node "null_literal" (word "null")]

/-- A dotted name; one with a dot is a node of its own kind. -/
def qualifiedName : R :=
  .fold identifier
    [(.link "scoped_identifier" "scope" <| .sequence [mark ".", .role "name" identifier])]

/-! ### Annotations, modifiers and types -/

def annotationRule : R :=
  let value : R := .choice [.part .marker, .part .initializer, .part .expression]
  .node "annotation" (.sequence [mark "@", .absent (word "interface"),
    .sepBy (mark ".") anyName,
    .optional (inParens (.listOf comma
      (.sequence [.optional (.sequence [anyName, markNotBefore "=" "="]), value])))])

def annotations : R := .many (.part .marker)

def modifiersRule : R :=
  .many (.choice (
    [.part .marker, mark "non-sealed",
      .sequence [word "sealed", .ahead (.choice [anyName, mark "@", word "public", word "abstract",
        word "class", word "interface", word "static"])]] ++
    ["public", "protected", "private", "abstract", "static", "final", "strictfp", "default",
      "synchronized", "native", "transient", "volatile"].map word))

def modifiers : R := .part .modifiers

def typeArguments : R :=
  .sequence [mark "<",
    .listOf comma (.choice [
      .sequence [annotations, mark "?",
        .optional (.sequence [.choice [word "extends", word "super"], .part .type])],
      .part .type]),
    mark ">"]

/-- A type without brackets behind it. -/
def plainType : R :=
  .sequence [annotations, .choice [
    .choice (primitives.map word),
    .sepBy (.sequence [mark ".", annotations]) (.sequence [anyName, typeArguments.optional])]]

/-- The empty brackets of an array type. -/
def dimensions : R := .many (.sequence [annotations, mark "[", mark "]"])

def typeRule : R := .sequence [plainType, dimensions]

def typeParameters : R :=
  .sequence [mark "<",
    .listOf comma (.sequence [annotations, anyName,
      .optional (.sequence [word "extends", .sepBy (mark "&") (.part .type)])]),
    mark ">"]

/-! ### Expressions -/

def arguments : R :=
  .role "arguments" (.node "argument_list" (inParens (.listOf comma (.part .expression))))

def initializerRule : R :=
  .node "array_initializer"
    (inBraces (.choice [
      .listOf comma (.choice [.part .initializer, .part .expression]),
      comma]))

/-- A variable with its value. -/
def declarator : R :=
  .node "variable_declarator" (.sequence [name, dimensions,
    .optional (.sequence [markNotBefore "=" "=",
      .role "value" (.choice [.part .initializer, .part .expression])])])

/-- What `new` makes. -/
def creation : R :=
  .choice [
    .node "array_creation_expression" (.sequence [word "new", plainType, .choice [
      .sequence [.some (.sequence [annotations, inBrackets (.part .expression)]), dimensions],
      .sequence [dimensions, .part .initializer]]]),
    .node "object_creation_expression" (.sequence [word "new", typeArguments.optional, plainType,
      arguments, (Rule.part .classBody).optional])]

def parameters : R :=
  .node "formal_parameters" (inParens (.listOf comma (.choice [
    .sequence [modifiers, .part .type, .optional (.sequence [annotations, mark "..."]), anyName,
      dimensions],
    .sequence [annotations, .part .type, .many (.sequence [anyName, mark "."]), word "this"]])))

def lambda : R :=
  .node "lambda_expression" (.sequence [
    .choice [anyName, inParens (.listOf comma anyName), parameters],
    mark "->", .role "body" (.choice [.part .block, .part .expression])])

/-- A pattern that takes a record apart. -/
def recordPatternRule : R :=
  .sequence [.sepBy (mark ".") (.sequence [anyName, typeArguments.optional]),
    inParens (.listOf comma (.choice [
      .part .recordPattern, .sequence [modifiers, .part .type, anyName], anyName])),
    anyName.optional]

/-- A cast; behind one to a class no sign can follow. -/
def cast : R :=
  .node "cast_expression" (.choice [
    .sequence [inParens (.sequence [annotations, .choice ((primitives.map word)), dimensions]),
      .part .operand],
    .sequence [inParens (.sepBy (mark "&") (.part .type)),
      .absent (.choice [mark "+", mark "-"]), .part .operand]])

/-- An operand before what continues it. -/
def operandHead : R :=
  .choice [
    lambda, cast,
    .node "method_reference" (.sequence [.part .type, mark "::", typeArguments.optional,
      .choice [word "new", anyName]]),
    .node "class_literal" (.sequence [.part .type, mark ".", word "class"]),
    .node "explicit_constructor_invocation"
      (.sequence [typeArguments.optional, .choice [word "this", word "super"], arguments]),
    .node "this" (word "this"), .node "super" (word "super"),
    creation, literal, .part .switch,
    .node "parenthesized_expression" (inParens (.part .expression)),
    .node "method_invocation" (.sequence [name, arguments]),
    identifier]

/-- An operand behind its operators and before what continues it. -/
def operandRule : R :=
  .choice [
    .node "unary_expression" (.sequence [
      .choice [mark "++", mark "--", mark "+", markNotBefore "-" ">", mark "!", mark "~"],
      .part .operand]),
    .fold operandHead
      [(.link "method_invocation" "object" <| .sequence [mark ".",
          .optional (.sequence [word "super", mark "."]), typeArguments.optional, name,
          arguments]),
        (.link "explicit_constructor_invocation" "object" <| .sequence [mark ".",
          typeArguments.optional, word "super", arguments]),
        (.link "object_creation_expression" "object" <| .sequence [mark ".", creation]),
        (.link "field_access" "object" <| .sequence [mark ".", .role "field" (.choice [
          .node "this" (word "this"), .node "super" (word "super"), identifier])]),
        (.link "template_expression" "processor" <| .sequence [mark ".", string]),
        (.link "array_access" "array" <| inBrackets (.part .expression)),
        (.link "method_reference" "object" <| .sequence [mark "::", typeArguments.optional,
          .choice [word "new", anyName]]),
        (.link "update_expression" "argument" <| .choice [mark "++", mark "--"])]]

/-- The operators between two operands, each before those that begin it. -/
def operators : List (List Char) :=
  [">>>=", "<<=", ">>=", ">>>", "<<", ">>", "==", "!=", "<=", ">=", "&&", "||", "+=", "-=",
    "*=", "/=", "%=", "&=", "|=", "^=", "+", "-", "*", "/", "%", "&", "|", "^", "<", ">",
    "="].map String.toList

/-- The end of an operator between two operands. -/
def operatorStop (cs : Array Char) (i : Nat) : Option Nat :=
  if textAt cs ['-', '>'] i || textAt cs ['+', '+'] i || textAt cs ['-', '-'] i then none
  else Scan.anyText operators cs i

def expressionRule : R :=
  .sequence [.part .operand,
    .many (.choice [
      .sequence [token operatorStop, .part .operand],
      .sequence [word "instanceof", .choice [
        .sequence [modifiers, .part .recordPattern],
        .sequence [modifiers, .part .type, anyName.optional]]],
      .sequence [mark "?", .part .expression, mark ":", .part .expression]])]

/-! ### Statements -/

def condition : R :=
  .node "parenthesized_expression" (inParens (.part .expression))

def switchRule : R :=
  let label : R := .choice [
    .sequence [word "case",
      .choice [
        .sequence [.choice [.part .recordPattern, .sequence [modifiers, .part .type, anyName]],
          .ahead (.choice [mark "->", mark ":", word "when"])],
        .sepBy comma (.choice [word "default", .part .expression])],
      .optional (.sequence [word "when", .part .expression])],
    word "default"]
  .node "switch_expression" (.sequence [word "switch", condition,
    inBraces (.many (.choice [
      .node "switch_rule" (.sequence [label, mark "->", .choice [
        .sequence [.part .expression, semicolon],
        .part .statement]]),
      .node "switch_block_statement_group" (.sequence [
        .some (.sequence [label, mark ":"]), .many (.part .statement)])]))])

def localDeclaration : R :=
  .node "local_variable_declaration"
    (.sequence [modifiers, .part .type, .sepBy comma declarator])

def forStatement : R :=
  let expressions : R := .optional (.sepBy comma (.part .expression))
  .choice [
    .node "enhanced_for_statement" (.sequence [word "for", mark "(", modifiers, .part .type,
      .choice [.sequence [anyName, dimensions], .part .recordPattern], mark ":",
      .part .expression, mark ")", .part .statement]),
    .node "for_statement" (.sequence [word "for", mark "(",
      .choice [localDeclaration, expressions], semicolon,
      (Rule.part .expression).optional, semicolon, expressions, mark ")", .part .statement])]

def tryStatement : R :=
  .node "try_statement" (.sequence [word "try",
    .optional (inParens (.sequence [
      .sepBy semicolon (.choice [
        .sequence [modifiers, .part .type, anyName, mark "=", .part .expression],
        .part .expression]),
      semicolon.optional])),
    .part .block,
    .many (.node "catch_clause" (.sequence [word "catch",
      inParens (.sequence [modifiers, .sepBy (mark "|") (.part .type), anyName]), .part .block])),
    .optional (.node "finally_clause" (.sequence [word "finally", .part .block]))])

def blockRule : R := .node "block" (inBraces (.many (.part .statement)))

/-! ### Declarations -/

def body : R := .role "body" (.part .classBody)

/-- Types behind a word. -/
def typesBehind (text : String) : R :=
  .optional (.sequence [word text, .sepBy comma (.part .type)])

def enumBody : R :=
  .node "enum_body" (inBraces (.sequence [
    .choice [
      .listOf comma (.node "enum_constant" (.sequence [modifiers, name, arguments.optional,
        (Rule.part .classBody).optional])),
      comma],
    .optional (.sequence [semicolon, .many (.part .member)])]))

def annotationBody : R :=
  .node "annotation_type_body" (inBraces (.many (.choice [
    .node "annotation_type_element_declaration" (.sequence [modifiers, .part .type, name,
      mark "(", mark ")", dimensions,
      .optional (.sequence [word "default",
        .choice [.part .marker, .part .initializer, .part .expression]]),
      semicolon]),
    .part .member])))

def typeDeclaration : R :=
  let parameters? : R := typeParameters.optional
  .choice [
    .node "class_declaration" (.sequence [modifiers, word "class", name, parameters?,
      .optional (.sequence [word "extends", .part .type]), typesBehind "implements",
      typesBehind "permits", body]),
    .node "interface_declaration" (.sequence [modifiers, word "interface", name, parameters?,
      typesBehind "extends", typesBehind "permits", body]),
    .node "enum_declaration" (.sequence [modifiers, word "enum", name, typesBehind "implements",
      enumBody]),
    .node "record_declaration" (.sequence [modifiers, word "record", name, parameters?,
      parameters, typesBehind "implements", body]),
    .node "annotation_type_declaration" (.sequence [modifiers, mark "@", word "interface", name,
      annotationBody])]

def method : R :=
  .node "method_declaration" (.sequence [modifiers,
    .optional (.sequence [typeParameters, annotations]), .part .type, name, parameters,
    dimensions, typesBehind "throws",
    .choice [semicolon, .role "body" (.part .block)]])

def memberRule : R :=
  .choice [
    .node ";" semicolon,
    typeDeclaration,
    method,
    .node "constructor_declaration" (.sequence [modifiers, typeParameters.optional, name,
      parameters, typesBehind "throws", .role "body" (.part .block)]),
    .node "field_declaration" (.sequence [modifiers, .part .type, .sepBy comma declarator,
      semicolon]),
    .node "static_initializer" (.sequence [word "static", .part .block]),
    .node "compact_constructor_declaration" (.sequence [modifiers, name, .part .block]),
    .part .block]

def classBodyRule : R := .node "class_body" (inBraces (.many (.part .member)))

def statementRule : R :=
  .choice [
    .part .block,
    .node ";" semicolon,
    .node "if_statement" (.sequence [word "if", condition, .part .statement,
      .optional (.sequence [word "else", .part .statement])]),
    forStatement,
    .node "while_statement" (.sequence [word "while", condition, .part .statement]),
    .node "do_statement" (.sequence [word "do", .part .statement, word "while", condition,
      semicolon]),
    tryStatement,
    .node "synchronized_statement" (.sequence [word "synchronized", condition, .part .block]),
    .node "return_statement" (.sequence [word "return", (Rule.part .expression).optional,
      semicolon]),
    .node "throw_statement" (.sequence [word "throw", .part .expression, semicolon]),
    .node "break_statement" (.sequence [word "break", anyName.optional, semicolon]),
    .node "continue_statement" (.sequence [word "continue", anyName.optional, semicolon]),
    .node "assert_statement" (.sequence [word "assert", .part .expression,
      .optional (.sequence [mark ":", .part .expression]), semicolon]),
    .node "yield_statement" (.sequence [word "yield",
      .absent (.choice [mark "=", mark ".", mark "["]),
      .part .expression, semicolon]),
    .sequence [.part .switch, .absent (mark ".")],
    .node "labeled_statement" (.sequence [anyName, markNotBefore ":" ":", .part .statement]),
    typeDeclaration,
    .sequence [localDeclaration, semicolon],
    .node "expression_statement" (.sequence [.part .expression, semicolon])]

/-! ### The whole text -/

/-- The rule of each part. -/
def rules : List (Part × R) :=
  [(.statement, statementRule), (.block, blockRule), (.expression, expressionRule),
    (.operand, operandRule), (.type, typeRule), (.marker, annotationRule),
    (.member, memberRule), (.classBody, classBodyRule), (.initializer, initializerRule),
    (.recordPattern, recordPatternRule), (.switch, switchRule), (.modifiers, modifiersRule)]

/-- A description of a module. -/
def moduleDeclaration : R :=
  .node "module_declaration" (.sequence [annotations, (word "open").optional, word "module",
    .sepBy (mark ".") anyName,
    inBraces (.many (.sequence [
      .some (.choice [token (Scan.nameStop isWordChar), mark ".", comma]), semicolon]))])

/-- A whole text: comments, the package, imports, declarations and statements. -/
def program : R :=
  .node "program" (.many (.choice [
    .node "line_comment" (.lexeme (Scan.behindBlanks Text.isBlank Scan.lineComment)),
    .node "block_comment" (.lexeme (Scan.behindBlanks Text.isBlank Scan.blockComment)),
    .node "package_declaration" (.sequence [annotations, word "package", qualifiedName,
      semicolon]),
    .node "import_declaration" (.sequence [word "import", (word "static").optional,
      qualifiedName, .optional (.sequence [mark ".", mark "*"]), semicolon]),
    moduleDeclaration,
    typeDeclaration,
    method,
    .part .statement]))

end CodeAtlas.Grammar.Java
