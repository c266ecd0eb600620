import CodeAtlas.Grammar.Python.Layout
import CodeAtlas.Syntax.Parse

/-!
# `CodeAtlas.Grammar.Python.Rules`: Python

The grammar works on the lexemes of `Layout`. How operators bind does not matter to what is
looked for in a tree, so an expression is a flat run of operands and operators. The patterns
of `match` statements yield no nodes, since what looks like a call in them is none.
-/

set_option autoImplicit false

namespace CodeAtlas.Grammar.Python

open CodeAtlas.Syntax

/-- The parts of the grammar that refer to each other. -/
inductive Part where
  | statement | suite | expression | primary | pattern
deriving DecidableEq, Hashable

/-- The grammar's rules. -/
abbrev R := Rule (Array Token) Part

/-! ### Lexemes -/

/-- A lexeme that passes a test. -/
def lexeme (test : Token → Bool) : R :=
  .lexeme fun ts i =>
    match ts[i]? with
    | some t => if test t then some ⟨i + 1, some (t.start, t.stop)⟩ else none
    | none => none

def shape (s : Shape) : R := lexeme fun t => t.shape == s
def word (text : String) : R :=
  let cs := text.toList
  lexeme fun t => t.shape == .word && t.text == cs
def mark (text : String) : R :=
  let cs := text.toList
  lexeme fun t => t.shape == .mark && t.text == cs

/-- Words that are no names. -/
def reserved : List (List Char) :=
  ["False", "None", "True", "and", "as", "assert", "break", "class", "continue", "def", "del",
    "elif", "else", "except", "finally", "for", "from", "global", "if", "import", "in", "is",
    "lambda", "nonlocal", "not", "or", "pass", "raise", "return", "try", "while", "with",
    "yield"].map String.toList

def anyName : R := lexeme fun t => t.shape == .word && !reserved.contains t.text
def identifier : R := .node "identifier" anyName
def comma : R := mark ","
def newline : R := shape .newline
def comment : R := .node "comment" (shape .comment)

/-- Names joined with dots. -/
def dottedName : R :=
  .node "dotted_name" (.sepBy (mark ".") identifier)

/-! ### Expressions -/

/-- Literal pieces and expressions of a formatted string. -/
def formattedPart : R :=
  .choice [
    shape .piece,
    .node "interpolation" (.sequence [
      mark "\x7b", .listOf comma (.part .expression), (mark "=").optional,
      (Rule.sequence [mark "!", anyName]).optional,
      (Rule.sequence [mark ":",
        .many (.choice [
          shape .piece,
          .sequence [mark "\x7b", .listOf comma (.part .expression),
            (Rule.sequence [mark "!", anyName]).optional,
            (Rule.sequence [mark ":", .many (shape .piece)]).optional, mark "\x7d"]])]).optional,
      mark "\x7d"])]

def string : R :=
  .node "string" (.some (.choice [
    shape .string,
    .sequence [shape .opening, .many formattedPart, shape .closing]]))

/-- The operators between two operands. -/
def operator : R :=
  .choice [
    lexeme fun t => t.shape == .mark &&
      (["+", "-", "*", "/", "%", "@", "**", "//", "<<", ">>", "&", "|", "^", "<", ">", "<=", ">=",
        "==", "!=", "<>"].map String.toList).contains t.text,
    word "and", word "or", word "in",
    .sequence [word "not", word "in"],
    .sequence [word "is", (word "not").optional]]

/-- An operand behind the operators in front of it. -/
def unary : R :=
  .sequence [
    .many (.choice [mark "-", mark "+", mark "~", word "not"]),
    .part .primary]

def lambdaParameters : R :=
  .listOf comma (.sequence [
    (Rule.choice [mark "*", mark "**", mark "/"]).optional,
    (Rule.choice [identifier,
      .sequence [mark "(", .listOf comma identifier, mark ")"]]).optional,
    (Rule.sequence [mark "=", .part .expression]).optional])

/-- An expression with everything that may stand in one place: unpacking, assignment to a
name, `yield`, `lambda` and conditions. -/
def expressionRule : R :=
  .choice [
    .node "list_splat" (.sequence [.choice [mark "*", mark "**"], .part .expression]),
    .node "yield" (.sequence [word "yield", .choice [
      .sequence [word "from", .part .expression],
      .listOf comma (.part .expression)]]),
    .node "lambda" (.sequence [word "lambda", lambdaParameters, mark ":", .part .expression]),
    .node "named_expression" (.sequence [identifier, mark ":=", .part .expression]),
    .sequence [
      unary, .many (.sequence [operator, .choice [
        .node "lambda" (.sequence [word "lambda", lambdaParameters, mark ":", .part .expression]),
        unary]]),
      (Rule.sequence [word "if", .part .expression, word "else", .part .expression]).optional]]

/-- What a loop or a comprehension assigns to. -/
def targets : R :=
  .listOf comma (.sequence [(mark "*").optional, .part .primary])

/-- The clauses of a comprehension. -/
def clauses : R :=
  .some (.choice [
    .node "for_in_clause" (.sequence [(word "async").optional, word "for", targets, word "in",
      .sepBy comma (.part .expression)]),
    .node "if_clause" (.sequence [word "if", .part .expression])])

/-- Elements between brackets: expressions, pairs, and comprehensions. -/
def elements : R :=
  .listOf comma (.sequence [
    .part .expression,
    (Rule.sequence [mark ":", .part .expression]).optional,
    clauses.optional])

def arguments : R :=
  .node "argument_list" (.sequence [mark "(",
    .listOf comma (.choice [
      .node "keyword_argument" (.sequence [.role "name" identifier, mark "=", .part .expression]),
      .sequence [.part .expression, clauses.optional]]),
    mark ")"])

/-- What stands between the brackets of a look-up. -/
def subscripts : R :=
  .listOf comma (.choice [
    .node "slice" (.sequence [
      (Rule.part .expression).optional, mark ":", (Rule.part .expression).optional,
      (Rule.sequence [mark ":", (Rule.part .expression).optional]).optional]),
    .part .expression])

def atom : R :=
  .choice [
    .node "true" (word "True"), .node "false" (word "False"), .node "none" (word "None"),
    .node "ellipsis" (.sequence [mark ".", mark ".", mark "."]),
    .node "number" (shape .number),
    string, identifier,
    .node "parenthesized_expression" (.sequence [mark "(", .part .expression, mark ")"]),
    .node "tuple" (.sequence [mark "(", elements, mark ")"]),
    .node "list" (.sequence [mark "[", elements, mark "]"]),
    .node "dictionary" (.sequence [mark "\x7b", elements, mark "\x7d"])]

def primaryRule : R :=
  .choice [
    .node "await" (.sequence [word "await", .part .primary]),
    .fold atom [
      .link "call" "function" <| .role "arguments" arguments,
      .link "attribute" "object" <| .sequence [mark ".", .role "attribute" identifier],
      .link "subscript" "value" <| .sequence [mark "[", subscripts, mark "]"]]]

/-- Expressions separated by commas. -/
def expressions : R := .listOf comma (.part .expression)

/-! ### Patterns -/

/-- A pattern of a `match` statement. -/
def patternRule : R :=
  let literal : R := .choice [
    .some (shape .string), .some (.sequence [shape .opening, .many (shape .piece), shape .closing]),
    .sequence [(mark "-").optional, shape .number,
      (Rule.sequence [.choice [mark "+", mark "-"], shape .number]).optional],
    word "True", word "False", word "None"]
  let inner : R := .listOf comma (.choice [
    .sequence [.choice [mark "**", mark "*"], anyName],
    .sequence [anyName, mark "=", .part .pattern],
    .sequence [.part .pattern, (Rule.sequence [mark ":", .part .pattern]).optional]])
  let closed : R := .choice [
    literal,
    .sequence [.sepBy (mark ".") anyName, (Rule.sequence [mark "(", inner, mark ")"]).optional],
    .sequence [mark "(", inner, mark ")"],
    .sequence [mark "[", inner, mark "]"],
    .sequence [mark "\x7b", inner, mark "\x7d"],
    .sequence [mark "*", anyName]]
  .sequence [.sepBy (mark "|") closed, (Rule.sequence [word "as", anyName]).optional]

/-! ### Simple statements -/

def importStatement : R :=
  let aliased (name : R) : R := .choice [
    .node "aliased_import" (.sequence [name, word "as", identifier]), name]
  let names : R := .choice [
    mark "*",
    .sequence [mark "(", .listOf comma (.role "name" (aliased dottedName)), mark ")"],
    .sepBy comma (.role "name" (aliased dottedName))]
  .choice [
    .node "future_import_statement"
      (.sequence [word "from", word "__future__", word "import", names]),
    .node "import_statement"
      (.sequence [word "import", .sepBy comma (.role "name" (aliased dottedName))]),
    .node "import_from_statement"
      (.sequence [word "from",
        .role "module_name" (.choice [
          .node "relative_import" (.sequence [.some (mark "."), dottedName.optional]),
          dottedName]),
        word "import", names])]

/-- The marks that assign. -/
def assignMark : R :=
  lexeme fun t => t.shape == .mark &&
    (["=", "+=", "-=", "*=", "/=", "//=", "%=", "**=", ">>=", "<<=", "&=", "^=", "|=",
      "@="].map String.toList).contains t.text

def expressionStatement : R :=
  .node "expression_statement" (.sequence [
    .ahead (.part .expression), expressions,
    (Rule.sequence [mark ":", .part .expression]).optional,
    .many (.sequence [assignMark, expressions])])

/-- Parameters of types. -/
def typeParameters : R :=
  .sequence [mark "[",
    .listOf comma (.sequence [
      (Rule.choice [mark "*", mark "**"]).optional, anyName,
      (Rule.sequence [mark ":", .part .expression]).optional,
      (Rule.sequence [mark "=", .part .expression]).optional]),
    mark "]"]

/-- The first lexeme of what the old statements `print` and `exec` take. -/
def bareArgument : R :=
  .choice [anyName, shape .string, shape .number, shape .opening, mark ">>", word "None",
    word "True", word "False"]

def simpleStatement : R :=
  let soft (text : String) : R := .sequence [word text, .ahead bareArgument]
  .choice [
    importStatement,
    .node "print_statement" (.sequence [soft "print", (mark ">>").optional, expressions]),
    .node "exec_statement" (.sequence [soft "exec", expressions]),
    .node "assert_statement" (.sequence [word "assert", expressions]),
    .node "return_statement" (.sequence [word "return", expressions]),
    .node "delete_statement" (.sequence [word "del", expressions]),
    .node "raise_statement" (.sequence [word "raise", expressions,
      (Rule.sequence [word "from", .part .expression]).optional]),
    .node "pass_statement" (word "pass"),
    .node "break_statement" (word "break"),
    .node "continue_statement" (word "continue"),
    .node "global_statement" (.sequence [word "global", .sepBy comma identifier]),
    .node "nonlocal_statement" (.sequence [word "nonlocal", .sepBy comma identifier]),
    .node "type_alias_statement" (.sequence [word "type", .part .primary, mark "=",
      .part .expression, .ahead (.choice [newline, mark ";", comment])]),
    expressionStatement]

/-- Simple statements on one line, with the comment behind them. -/
def simpleLine : R :=
  .sequence [
    simpleStatement,
    .many (.sequence [.node ";" (mark ";"), simpleStatement]),
    (Rule.node ";" (mark ";")).optional,
    comment.optional, newline]

/-! ### Compound statements -/

/-- What follows a colon: statements on the same line, or an indented block. -/
def suiteRule : R :=
  .choice [
    .sequence [comment.optional, newline, shape .indent,
      .node "block" (.sequence [.some (.part .statement), shape .dedent])],
    .node "block" simpleLine]

def body : R := .sequence [mark ":", .role "body" (.part .suite)]

/-- A clause that may follow a block; comments may stand before it. -/
def clause (kind : String) (head : R) : R :=
  .sequence [.many comment, .node kind (.sequence [head, body])]

def parameters : R :=
  let typed : R := (Rule.sequence [mark ":", .part .expression]).optional
  .node "parameters" (.sequence [mark "(",
    .listOf comma (.choice [
      .sequence [.choice [mark "**", mark "*"],
        (Rule.sequence [identifier, typed]).optional],
      mark "/",
      .sequence [
        .choice [identifier, .sequence [mark "(", .listOf comma identifier, mark ")"]],
        typed,
        (Rule.sequence [mark "=", .part .expression]).optional]]),
    mark ")"])

def functionDefinition : R :=
  .node "function_definition" (.sequence [
    (word "async").optional, word "def", .role "name" identifier, typeParameters.optional,
    parameters, (Rule.sequence [mark "->", .part .expression]).optional, body])

def classDefinition : R :=
  .node "class_definition" (.sequence [
    word "class", .role "name" identifier, typeParameters.optional, arguments.optional, body])

def decorated : R :=
  .node "decorated_definition" (.sequence [
    .some (.sequence [
      .node "decorator" (.sequence [mark "@", .part .expression, comment.optional, newline]),
      .many comment]),
    .choice [functionDefinition, classDefinition]])

def withStatement : R :=
  let item : R := .sequence [.part .expression,
    (Rule.sequence [word "as", .part .primary]).optional]
  .node "with_statement" (.sequence [
    (word "async").optional, word "with",
    .choice [
      .sequence [mark "(", .listOf comma item, mark ")", .ahead (mark ":")],
      .sepBy comma item],
    body])

def tryStatement : R :=
  .node "try_statement" (.sequence [
    word "try", body,
    .many (clause "except_clause" (.sequence [word "except", (mark "*").optional, expressions,
      (Rule.sequence [word "as", .part .primary]).optional])),
    (clause "else_clause" (word "else")).optional,
    (clause "finally_clause" (word "finally")).optional])

def matchStatement : R :=
  .node "match_statement" (.sequence [
    word "match", expressions, mark ":", comment.optional, newline, shape .indent,
    .some (.choice [
      comment,
      .node "case_clause" (.sequence [
        word "case", .listOf comma (.part .pattern),
        (Rule.sequence [word "if", .part .expression]).optional, body])]),
    shape .dedent])

def compoundStatement : R :=
  .choice [
    .node "if_statement" (.sequence [
      word "if", .part .expression, body,
      .many (clause "elif_clause" (.sequence [word "elif", .part .expression])),
      (clause "else_clause" (word "else")).optional]),
    .node "for_statement" (.sequence [
      (word "async").optional, word "for", targets, word "in", expressions, body,
      (clause "else_clause" (word "else")).optional]),
    .node "while_statement" (.sequence [
      word "while", .part .expression, body, (clause "else_clause" (word "else")).optional]),
    tryStatement, withStatement, functionDefinition, classDefinition, decorated,
    matchStatement]

def statementRule : R :=
  .choice [comment, compoundStatement, simpleLine]

/-! ### The whole text -/

/-- The rule of each part. -/
def rules : List (Part × R) :=
  [(.statement, statementRule), (.suite, suiteRule), (.expression, expressionRule),
    (.primary, primaryRule), (.pattern, patternRule)]

/-- A whole text. -/
def module : R := .node "module" (.many (.part .statement))

/-- The tree of a text. -/
def parse (text : String) : Node :=
  let ts := tokens text.toList.toArray
  parseSource rules module ts ts.size

end CodeAtlas.Grammar.Python
