import CodeAtlas.Syntax.Lexemes

/-!
# `CodeAtlas.Grammar.Rust`: Rust

How operators bind does not matter to what is looked for in a tree, so an expression is a flat
run of operands and operators. Types and patterns yield no nodes but those of the blocks and
array lengths in them. The arguments of a macro are a tree of lexemes, in which nothing is
declared or called.

Where a block follows an expression, as behind `if` or `match`, a name before a brace is no
structure literal; the parts for expressions come in both versions.
-/

set_option autoImplicit false

namespace CodeAtlas.Grammar.Rust

open CodeAtlas.Syntax

/-- The parts of the grammar that refer to each other. A flag says whether a structure literal
may stand there. -/
inductive Part where
  | statement | block | blockLike | expression (literals : Bool) | operand (literals : Bool) | type
  | plainType | pattern | plainPattern | path | tokens | useTree | attributes
deriving DecidableEq, Hashable

/-- The grammar's rules. -/
abbrev R := Rule Source Part

/-! ### Comments -/

/-- The end of a block comment, from behind its opening, with the number of comments that are
open inside it. -/
def blockCommentEnd (cs : Array Char) (inside : Nat) (i : Nat) : Nat :=
  if i < cs.size then
    if textAt cs ['*', '/'] i then
      match inside with
      | 0 => i + 2
      | n + 1 => blockCommentEnd cs n (i + 2)
    else if textAt cs ['/', '*'] i then blockCommentEnd cs (inside + 1) (i + 2)
    else blockCommentEnd cs inside (i + 1)
  else cs.size
termination_by cs.size - i

/-- A block comment; such comments nest. -/
def blockComment (cs : Array Char) (i : Nat) : Option Nat :=
  if textAt cs ['/', '*'] i then some (blockCommentEnd cs 0 (i + 2)) else none

/-- A line comment. One that documents something takes the end of its line with it. -/
def lineComment (cs : Array Char) (i : Nat) : Option Nat :=
  (Scan.lineComment cs i).map fun stop =>
    let outer := charAt cs (i + 2) == '/' && charAt cs (i + 3) != '/'
    let inner := charAt cs (i + 2) == '!'
    if outer || inner then min cs.size (stop + 1) else stop

/-- Space between lexemes. -/
def space : Space :=
  ⟨Text.isBlank, fun cs i => lineComment cs i <|> blockComment cs i⟩

/-! ### Lexemes -/

def word (text : String) : R := wordOf isNameChar text

/-- Words that never name a value. -/
def reserved : List (List Char) :=
  ["as", "async", "await", "break", "const", "continue", "crate", "dyn", "else", "enum",
    "extern", "false", "fn", "for", "if", "impl", "in", "let", "loop", "match", "mod", "move",
    "mut", "pub", "ref", "return", "self", "static", "struct", "super", "trait", "true", "type",
    "unsafe", "use", "where", "while"].map String.toList

/-- The end of a name; behind `r#` a name may be any word. -/
def nameStop (cs : Array Char) (i : Nat) : Option Nat :=
  (if textAt cs ['r', '#'] i then Scan.nameStop isNameChar cs (i + 2) else none) <|>
    Scan.nameStopExcept isNameChar reserved cs i

/-- The position behind one of the given characters, or the same position. -/
def behindOneOf (marks : List Char) (cs : Array Char) (i : Nat) : Nat :=
  if marks.contains (charAt cs i) then i + 1 else i

/-- The end of a string with escapes. -/
def stringStop (cs : Array Char) (i : Nat) : Option Nat :=
  Scan.quoted '"' cs (behindOneOf ['b', 'c'] cs i)

/-- The end of a string without escapes, which ends at a quote with as many number signs as
it opened with. -/
def rawStringStop (cs : Array Char) (i : Nat) : Option Nat :=
  let j := behindOneOf ['b', 'c'] cs i
  let k := runEnd (· == '#') cs (j + 1)
  if charAt cs j == 'r' && charAt cs k == '"' then
    some (Scan.behind ('"' :: List.replicate (k - (j + 1)) '#') cs (k + 1))
  else none

/-- The end of a character literal. -/
def charStop (cs : Array Char) (i : Nat) : Option Nat :=
  let j := behindOneOf ['b'] cs i
  if charAt cs j == '\x27' then
    if charAt cs (j + 1) == '\\' then Scan.quotedFrom '\x27' cs (j + 1)
    else if charAt cs (j + 1) != '\x27' && charAt cs (j + 2) == '\x27' then some (j + 3)
    else none
  else none

/-- The end of a lifetime. -/
def lifetimeStop (cs : Array Char) (i : Nat) : Option Nat :=
  if charAt cs i == '\x27' then Scan.nameStop isNameChar cs (i + 1) else none

/-- The end of a number. A point belongs to it if digits follow, or neither a name nor another
point. -/
def numberStop (cs : Array Char) (i : Nat) : Option Nat :=
  (Scan.numeralStop isNameChar cs i).map fun stop =>
    let next := charAt cs (stop + 1)
    if charAt cs stop == '.' && next != '.' && !isNameChar next then stop + 1 else stop

def brackets : List Char := ['(', ')', '[', ']', '\x7b', '\x7d']

/-- The end of a lexeme of a macro's arguments that is no bracket. -/
def looseStop (cs : Array Char) (i : Nat) : Option Nat :=
  rawStringStop cs i <|> stringStop cs i <|> charStop cs i <|> lifetimeStop cs i <|>
    Scan.runStop isNameChar cs i <|>
    (if i < cs.size && !brackets.contains (charAt cs i) then some (i + 1) else none)

def identifier : R := .node "identifier" (token nameStop)
def anyName : R := token (Scan.nameStop isNameChar)
def lifetime : R := token lifetimeStop
def metavariable : R :=
  .node "metavariable" (.sequence [mark "$", .lexeme (Scan.raw (Scan.nameStop isNameChar))])

def string : R := .node "string_literal" (token stringStop)

def literal : R :=
  .choice [
    .node "raw_string_literal" (token rawStringStop), string,
    .node "char_literal" (token charStop), .node "number_literal" (token numberStop),
    .node "boolean_literal" (.choice [word "true", word "false"])]

/-- The marks of a range. -/
def rangeMark : R := .choice [mark "..=", mark "...", mark ".."]

/-- The bar between alternatives. -/
def bar : R := markNotBefore "|" "|"

/-! ### Lexeme trees and attributes -/

def tokensRule : R :=
  let trees : R := .many (.choice [.part .tokens, token looseStop])
  .node "token_tree" (.choice [inParens trees, inBrackets trees, inBraces trees])

/-- What stands in the square brackets of an attribute. -/
def attributeBody : R :=
  .choice [
    inBrackets (.sequence [.sepBy (mark "::") anyName, markNotBefore "=" "=",
      .part (.expression true)]),
    .sequence [.ahead (mark "["), .part .tokens]]

def outerAttribute : R := .node "attribute_item" (.sequence [mark "#", attributeBody])
def innerAttribute : R :=
  .node "inner_attribute_item" (.sequence [mark "#", mark "!", attributeBody])

def attributesRule : R := .many outerAttribute
def attributes : R := .part .attributes

/-! ### Paths and types -/

/-- A type in angle brackets, which may name the trait that it is taken as. -/
def bracketedType : R :=
  .node "bracketed_type" (.sequence [mark "<", .part .type,
    (Rule.sequence [word "as", .part .type]).optional, mark ">"])

def typeArguments : R :=
  .sequence [mark "<",
    .listOf comma (.choice [
      .sequence [anyName, .optional (.sequence [mark "<", .listOf comma (.part .type), mark ">"]),
        markNotBefore "=" "=", .choice [.part .type, literal, .part .block]],
      .sequence [anyName, markNotBefore ":" ":", .part .type],
      .part .block,
      .sequence [(mark "-").optional, literal],
      .part .type]),
    mark ">"]

/-- A path as an expression. -/
def pathRule : R :=
  let name : R := .role "name" (.choice [identifier, .node "super" (word "super"), metavariable])
  .fold
    (.choice [
      .node "self" (word "self"), .node "super" (word "super"), .node "crate" (word "crate"),
      metavariable, identifier, bracketedType,
      .node "scoped_identifier" (.sequence [mark "::", name])])
    [(.link "scoped_identifier" "path" <| .sequence [mark "::", name]),
      (.link "generic_type_with_turbofish" "type" <|
        .sequence [mark "::", typeArguments, .ahead (mark "::")])]

/-- A call of a macro. -/
def macroCall : R :=
  .node "macro_invocation" (.sequence [.role "macro" (.part .path), mark "!",
    .ahead (.choice [mark "(", mark "[", leftBrace]), .part .tokens])

/-- The type of a function's result. -/
def result : R := .optional (.sequence [mark "->", .part .type])

/-- The lifetimes that a type is general in. -/
def forLifetimes : R := .sequence [word "for", mark "<", .listOf comma lifetime, mark ">"]

def plainTypeRule : R :=
  let segment : R := .sequence [
    .choice [metavariable, token nameStop, word "self", word "super", word "crate"],
    .optional (.choice [
      .sequence [(mark "::").optional, typeArguments],
      .sequence [inParens (.listOf comma (.part .type)), result]])]
  .choice [
    lifetime,
    .sequence [.choice [mark "?", .sequence [mark "~", word "const"], word "const"],
      .part .plainType],
    .sequence [mark "&", lifetime.optional, (word "mut").optional, .part .plainType],
    .sequence [mark "*", .choice [word "const", word "mut"], .part .plainType],
    mark "!",
    inParens (.listOf comma (.part .type)),
    inBrackets (.sequence [.part .type,
      .optional (.sequence [semicolon, .part (.expression true)])]),
    .sequence [forLifetimes, .part .plainType],
    .sequence [
      .many (.choice [word "unsafe", word "const", .sequence [word "extern", string.optional]]),
      word "fn",
      inParens (.listOf comma (.sequence [attributes,
        .choice [mark "...",
          .sequence [.optional (.sequence [anyName, markNotBefore ":" ":"]), .part .type]]])),
      result],
    .sequence [.choice [word "impl", word "dyn"], .part .type],
    macroCall,
    .sequence [bracketedType, .some (.sequence [mark "::", segment])],
    .sequence [(mark "::").optional, .sepBy (mark "::") segment]]

/-- A type with further bounds. -/
def typeRule : R :=
  .sequence [.part .plainType,
    .many (.sequence [mark "+", .part .plainType]), .optional (markNotBefore "+" "=")]

/-- What a type parameter is bound by, perhaps nothing. -/
def bounds : R := .sequence [mark ":", (Rule.part .type).optional]

def typeParameters : R :=
  .sequence [mark "<",
    .listOf comma (.sequence [attributes,
      .choice [
        .sequence [lifetime, bounds.optional],
        .sequence [word "const", anyName, mark ":", .part .type,
          .optional (.sequence [mark "=",
            .choice [.part .block, .sequence [(mark "-").optional, literal], .part .type]])],
        .sequence [.choice [metavariable, anyName], bounds.optional,
          .optional (.sequence [mark "=", .part .type])]]]),
    mark ">"]

def whereClause : R :=
  .sequence [word "where",
    .listOf comma (.sequence [attributes, forLifetimes.optional, .part .plainType, bounds])]

/-! ### Patterns -/

def plainPatternRule : R :=
  let number : R := .sequence [(mark "-").optional, literal]
  let path : R := .sequence [
    .choice [bracketedType, .sequence [(mark "::").optional,
      .choice [token nameStop, word "self", word "super", word "crate", metavariable]]],
    .many (.sequence [mark "::", .choice [anyName, typeArguments]])]
  let field : R := .sequence [attributes, .choice [
    .sequence [anyName, markNotBefore ":" ":", .part .pattern],
    .sequence [.many (.choice [word "ref", word "mut", word "box"]), anyName],
    rangeMark]]
  let primary : R := .choice [
    .sequence [mark "&", (word "mut").optional, .part .plainPattern],
    .sequence [word "ref", (word "mut").optional, .part .plainPattern],
    .sequence [word "mut", .part .plainPattern],
    .sequence [word "box", .absent (.choice [mark "@", mark ":", mark ",", mark "="]),
      .part .plainPattern],
    .sequence [token nameStop, mark "@", .part .plainPattern],
    number,
    inParens (.listOf comma (.part .pattern)),
    inBrackets (.listOf comma (.part .pattern)),
    .sequence [word "const", .part .block],
    macroCall,
    .sequence [path, inParens (.listOf comma (.part .pattern))],
    .sequence [path, inBraces (.listOf comma field)],
    path]
  .choice [
    .sequence [rangeMark, .choice [number, path]],
    .sequence [primary, .optional (.sequence [rangeMark, .optional (.choice [number, path])])],
    rangeMark]

def patternRule : R :=
  .sequence [bar.optional, .sepBy bar (.part .plainPattern)]

/-! ### Expressions -/

def arguments : R :=
  .node "arguments"
    (inParens (.listOf comma (.sequence [attributes, .part (.expression true)])))

def label : R := .sequence [lifetime, markNotBefore ":" ":"]

def ifExpression : R :=
  .node "if_expression" (.sequence [
    .sepBy (word "else")
      (.sequence [word "if", .part (.expression false), .part .block]),
    .optional (.sequence [word "else", .part .block])])

/-- Signs that go on with an expression behind a closing brace: those that cannot open a
statement or the next case of a match. -/
def goesOn : R :=
  .choice [markNotBefore "." ".", mark "?", mark "=", mark "!=", mark "+", mark "/", mark "%",
    mark "^", mark ">", word "as"]

/-- An expression that ends with a block and with it ends what it stands in. -/
def closedBlock : R := .sequence [.part .blockLike, .absent goesOn]

def matchArm : R :=
  .node "match_arm" (.sequence [attributes, .part .pattern,
    .optional (.sequence [word "if", .part (.expression true)]), mark "=>",
    .role "value" (.choice [
      .sequence [closedBlock, comma.optional],
      .sequence [.part (.expression true), .choice [comma, .ahead rightBrace]]])])

def blockLikeRule : R :=
  .choice [
    ifExpression,
    .node "match_expression" (.sequence [word "match", .part (.expression false),
      leftBrace, .many innerAttribute, .many matchArm, rightBrace]),
    .sequence [label.optional, .choice [
      .node "while_expression" (.sequence [word "while", .part (.expression false), .part .block]),
      .node "loop_expression" (.sequence [word "loop", .part .block]),
      .node "for_expression" (.sequence [word "for", .part .pattern, word "in",
        .part (.expression false), .part .block]),
      .part .block]],
    .node "unsafe_block" (.sequence [word "unsafe", .part .block]),
    .node "async_block" (.sequence [word "async", (word "move").optional, .part .block]),
    .node "gen_block" (.sequence [word "gen", (word "move").optional, .part .block]),
    .node "const_block" (.sequence [word "const", .part .block]),
    .node "try_block" (.sequence [word "try", .part .block])]

def closure (literals : Bool) : R :=
  .node "closure_expression" (.sequence [
    forLifetimes.optional,
    .many (.choice [word "static", word "const", word "async", word "move"]),
    .choice [
      mark "||",
      .sequence [mark "|",
        .listOf comma (.sequence [attributes, .part .plainPattern,
          .optional (.sequence [mark ":", .part .type])]),
        mark "|"]],
    .role "body" (.choice [
      .sequence [mark "->", .part .type, .part .block],
      .part (.expression literals)])])

def structLiteral : R :=
  .node "struct_expression" (.sequence [
    .part .path, .optional (.sequence [mark "::", typeArguments]),
    inBraces (.listOf comma (.sequence [attributes, .choice [
      .sequence [mark "..", (Rule.part (.expression true)).optional],
      .sequence [anyName, markNotBefore ":" ":", .part (.expression true)],
      .sequence [token (Scan.runStop Char.isDigit), mark ":", .part (.expression true)],
      .node "shorthand_field_initializer" identifier]]))])

def operandRule (literals : Bool) : R :=
  let rest : R := (Rule.part (.expression literals)).optional
  .fold
    (.choice (
      [macroCall] ++
      (if literals then [structLiteral] else []) ++
      [closure literals,
        .part .blockLike,
        .node "return_expression" (.sequence [word "return", rest]),
        .node "break_expression" (.sequence [word "break", lifetime.optional,
          if literals then rest else .sequence [.absent leftBrace, rest]]),
        .node "continue_expression" (.sequence [word "continue", lifetime.optional]),
        .node "yield_expression" (.sequence [word "yield", .absent (.choice [mark "(", mark "."]),
          rest]),
        literal, .part .path,
        .node "tuple_expression" (inParens (.listOf comma
          (.sequence [attributes, .part (.expression true)]))),
        .node "array_expression" (inBrackets (.choice [
          .sequence [attributes, .part (.expression true), semicolon, .part (.expression true)],
          .listOf comma (.sequence [attributes, .part (.expression true)])]))]))
    [(.link "call_expression" "function" <| .role "arguments" arguments),
      (.link "index_expression" "value" <| inBrackets (.part (.expression true))),
      (.link "try_expression" "value" <| mark "?"),
      (.link "await_expression" "value" <| .sequence [mark ".", word "await"]),
      (.link "field_expression" "value" <| .sequence [markNotBefore "." ".",
        .role "field" (.choice [
          .node "field_identifier" (token nameStop),
          .node "integer_literal" (token (Scan.runStop Char.isDigit))])]),
      (.link "generic_function" "function" <| .sequence [mark "::", typeArguments])]

/-- The operators between two operands, each before those that begin it. -/
def operators : List (List Char) :=
  ["<<=", ">>=", "&&", "||", "==", "!=", "<=", ">=", "<<", ">>", "+=", "-=", "*=", "/=", "%=",
    "^=", "&=", "|=", "+", "-", "*", "/", "%", "^", "&", "|", "<", ">"].map String.toList

/-- The end of an operator between two operands. -/
def operatorStop (cs : Array Char) (i : Nat) : Option Nat :=
  if textAt cs ['=', '>'] i then none
  else Scan.anyText operators cs i <|> Scan.textStop ['='] cs i

/-- An operand behind its operators. The condition `let p = e` counts as one of them. -/
def prefixed (literals : Bool) : R :=
  .choice [
    .sequence [
      .many (.choice [
        .sequence [mark "&", .optional (.choice [
          .sequence [word "raw", .choice [word "const", word "mut"]], word "mut"])],
        mark "*", mark "-", mark "!", rangeMark,
        .sequence [word "let", .part .pattern, mark "="]]),
      .part (.operand literals)],
    rangeMark]

def expressionRule (literals : Bool) : R :=
  let limit : R := if literals then prefixed true
    else .sequence [.absent leftBrace, prefixed false]
  .sequence [prefixed literals,
    .many (.choice [
      .sequence [rangeMark, limit.optional],
      .sequence [token operatorStop, prefixed literals],
      .sequence [word "as", .part .plainType]])]

/-! ### Items -/

def visibility : R :=
  .optional (.sequence [word "pub",
    .optional (inParens (.choice [word "crate", word "self", word "super",
      .sequence [word "in", .part .path]]))])

def declarations : R :=
  .node "declaration_list" (inBraces (.many (.part .statement)))

def parameters : R :=
  .node "parameters" (inParens (.listOf comma (.sequence [attributes, .choice [
    .sequence [.optional (.sequence [mark "&", lifetime.optional]), (word "mut").optional,
      word "self", .optional (.sequence [mark ":", .part .type])],
    .sequence [.part .pattern, markNotBefore ":" ":", .choice [.part .type, mark "..."]],
    mark "...",
    .part .type]])))

/-- A function up to its body. -/
def functionHead : R :=
  .sequence [visibility,
    .many (.choice [word "default", word "const", word "async", word "unsafe", word "safe",
      word "gen", .sequence [word "extern", literal.optional]]),
    word "fn", .role "name" (.choice [identifier, metavariable]), typeParameters.optional,
    parameters, result, whereClause.optional]

def fields : R :=
  inBraces (.listOf comma (.sequence [attributes, visibility, anyName, mark ":", .part .type]))

def tupleFields : R :=
  inParens (.listOf comma (.sequence [attributes, visibility, .part .type]))

def useTreeRule : R :=
  .sequence [(mark "::").optional, .choice [
    mark "*",
    inBraces (.listOf comma (.part .useTree)),
    .sequence [.choice [metavariable, token (Scan.nameStop isNameChar)], .choice [
      .sequence [mark "::", .part .useTree],
      .sequence [word "as", anyName],
      .sequence []]]]]

def items : List R :=
  let name : R := .role "name" (.choice [identifier, metavariable])
  let parameters : R := typeParameters.optional
  let conditions : R := whereClause.optional
  let value : R := .optional (.sequence [mark "=", .role "value" (.part (.expression true))])
  [.node "function_item" (.sequence [functionHead, .role "body" (.part .block)]),
    .node "function_signature_item" (.sequence [functionHead, semicolon]),
    .node "mod_item" (.sequence [visibility, word "mod", name,
      .choice [semicolon, .role "body" declarations]]),
    .node "use_declaration" (.sequence [visibility, word "use", .part .useTree, semicolon]),
    .node "struct_item" (.sequence [visibility, word "struct", name, parameters, .choice [
      .sequence [conditions, fields],
      .sequence [tupleFields, conditions, semicolon],
      .sequence [conditions, semicolon]]]),
    .node "union_item" (.sequence [visibility, word "union", name, parameters, conditions,
      fields]),
    .node "enum_item" (.sequence [visibility, word "enum", name, parameters, conditions,
      .node "enum_variant_list" (inBraces (.listOf comma (.sequence [attributes, visibility,
        anyName, .optional (.choice [fields, tupleFields]), value])))]),
    .node "type_item" (.sequence [visibility, (word "default").optional, word "type", name,
      parameters, conditions, bounds.optional, .optional (.sequence [mark "=", .part .type]),
      conditions, semicolon]),
    .node "const_item" (.sequence [visibility, (word "default").optional, word "const",
      .role "name" (.choice [identifier, anyName]), mark ":", .part .type, value, semicolon]),
    .node "static_item" (.sequence [visibility, .optional (.choice [word "unsafe", word "safe"]),
      word "static", .optional (.choice [word "ref", word "mut"]), name, mark ":", .part .type,
      value, semicolon]),
    .node "impl_item" (.sequence [(word "default").optional, (word "unsafe").optional,
      word "impl", parameters, (word "const").optional, (mark "!").optional, .part .type,
      .optional (.sequence [word "for", .part .type]), conditions,
      .choice [.role "body" declarations, semicolon]]),
    .node "trait_item" (.sequence [visibility, .many (.choice [word "unsafe", word "auto"]),
      word "trait", name, parameters, bounds.optional, conditions, .choice [
        .role "body" declarations,
        .sequence [mark "=", .part .type, conditions, semicolon]]]),
    .node "extern_crate_declaration" (.sequence [visibility, word "extern", word "crate",
      anyName, .optional (.sequence [word "as", anyName]), semicolon]),
    .node "foreign_mod_item" (.sequence [visibility, (word "unsafe").optional, word "extern",
      literal.optional, .choice [.role "body" declarations, semicolon]]),
    .node "macro_definition" (.sequence [word "macro_rules", mark "!", anyName, .choice [
      .sequence [.ahead leftBrace, .part .tokens],
      .sequence [.part .tokens, semicolon]]])]

/-! ### Statements -/

def blockRule : R :=
  .node "block" (inBraces (.many (.part .statement)))

def letDeclaration : R :=
  .node "let_declaration" (.sequence [word "let", .part .pattern,
    .optional (.sequence [mark ":", .part .type]),
    .optional (.sequence [mark "=", .part (.expression true),
      .optional (.sequence [word "else", .part .block])]),
    semicolon])

def statementRule : R :=
  .choice (
    [.node "empty_statement" semicolon, innerAttribute, outerAttribute, letDeclaration] ++
    items ++
    [.node "expression_statement" closedBlock,
      .node "expression_statement" (.sequence [.part (.expression true),
        .choice [semicolon, .ahead rightBrace]]),
      macroCall])

/-! ### The whole text -/

/-- The rule of each part. -/
def rules : List (Part × R) :=
  [(.statement, statementRule), (.block, blockRule), (.blockLike, blockLikeRule),
    (.expression true, expressionRule true), (.expression false, expressionRule false),
    (.operand true, operandRule true), (.operand false, operandRule false),
    (.type, typeRule), (.plainType, plainTypeRule), (.pattern, patternRule),
    (.plainPattern, plainPatternRule), (.path, pathRule), (.tokens, tokensRule),
    (.useTree, useTreeRule), (.attributes, attributesRule)]

/-- The end of an interpreter line, with its line feed. -/
def shebangStop (cs : Array Char) (i : Nat) : Option Nat :=
  let next := runEnd (fun c => c == ' ' || c == '\t') cs 2
  if i == 0 && textAt cs ['#', '!'] 0 && charAt cs next != '[' then
    some (min cs.size (Scan.lineStop cs 0 + 1))
  else none

/-- A whole text: an interpreter line if there is one, then comments and statements. -/
def sourceFile : R :=
  .node "source_file" (.sequence [
    (Rule.node "shebang" (.lexeme (Scan.raw shebangStop))).optional,
    .many (.choice [
      .node "line_comment" (.lexeme (Scan.behindBlanks Text.isBlank lineComment)),
      .node "block_comment" (.lexeme (Scan.behindBlanks Text.isBlank blockComment)),
      .part .statement])])

end CodeAtlas.Grammar.Rust
