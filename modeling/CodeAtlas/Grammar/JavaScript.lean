import CodeAtlas.Syntax.Lexemes

/-!
# `CodeAtlas.Grammar.JavaScript`: JavaScript and TypeScript

One grammar for the two languages and for markup inside them. A dialect says whether types
and whether markup elements are allowed. Types yield no nodes: nothing that is declared,
called or imported by a value stands in them.

Statements end at a semicolon, before a closing brace, at a line break, or at the end of the
text. A line break ends a statement only where the statement cannot go on, which is what
trying the longer alternatives first amounts to.
-/

set_option autoImplicit false

namespace CodeAtlas.Grammar.JavaScript

open CodeAtlas.Syntax

/-- What a dialect adds to the core language. -/
structure Dialect where
  /-- Type annotations and declarations. -/
  types : Bool
  /-- Markup elements as expressions. -/
  markup : Bool

/-- The parts of the grammar that refer to each other. -/
inductive Part where
  | statement | block | expression | assignment | unary | operand | binding | type | element
deriving DecidableEq, Hashable

/-- The grammar's rules. -/
abbrev R := Rule Source Part

/-! ### Characters and lexemes -/

/-- Blank characters: white space, the byte order mark, and two invisible joiners. -/
def isBlank (c : Char) : Bool :=
  Text.isBlank c || c == '\ufeff' || c == '\u2060' || c == '\u200b'

/-- Characters of names, but for escapes. -/
def isNameChar (c : Char) : Bool :=
  c.isAlphanum || c == '_' || c == '$' || (128 ≤ c.toNat && !isBlank c)

/-- The end of a line, before its line or paragraph separator. -/
def lineStop (cs : Array Char) (i : Nat) : Nat :=
  runEnd (fun c => c != '\n' && c != '\r' && c != '\u2028' && c != '\u2029') cs i

/-- A comment behind two slashes runs to the end of its line. -/
def lineComment (cs : Array Char) (i : Nat) : Option Nat :=
  if textAt cs ['/', '/'] i then some (lineStop cs i) else none

/-- A comment that opens like a markup comment, or that closes like one at the start of a
line, runs to the end of its line. -/
def markupComment (cs : Array Char) (i : Nat) : Option Nat :=
  let opens := textAt cs ['<', '!', '-', '-'] i
  let closes := textAt cs ['-', '-', '>'] i && startsLine i
  if opens || closes then some (lineStop cs i) else none
where
  /-- Whether only blanks lie between the start of the line and a position. -/
  startsLine : Nat → Bool
    | 0 => true
    | i + 1 => charAt cs i == '\n' || (isBlank (charAt cs i) && startsLine i)

/-- Comments between lexemes. -/
def comment (cs : Array Char) (i : Nat) : Option Nat :=
  lineComment cs i <|> Scan.blockComment cs i <|> markupComment cs i

/-- Space between lexemes. -/
def space : Space := ⟨isBlank, comment⟩

/-- The end of a name; an escape `\u…` counts as a character of it. -/
def nameEnd (cs : Array Char) (i : Nat) : Nat :=
  if h : i < cs.size then
    if isNameChar cs[i] then nameEnd cs (i + 1)
    else if cs[i] == '\\' && charAt cs (i + 1) == 'u' then
      if charAt cs (i + 2) == '\x7b' then nameEnd cs (max (i + 1) (Scan.behind ['\x7d'] cs i))
      else nameEnd cs (i + 6)
    else i
  else i
termination_by cs.size - i

/-- The end of a name, reserved or not. -/
def anyNameStop (cs : Array Char) (i : Nat) : Option Nat :=
  let stop := nameEnd cs i
  if i < stop && !(charAt cs i).isDigit then some stop else none

/-- Words that never name a value. -/
def reserved : List (List Char) :=
  ["break", "case", "catch", "class", "const", "continue", "debugger", "default", "delete", "do",
    "else", "enum", "export", "extends", "finally", "for", "function", "if", "import", "in",
    "instanceof", "new", "return", "super", "switch", "this", "throw", "try", "typeof", "var",
    "void", "while", "with", "null", "true", "false"].map String.toList

/-- The end of a name that is not reserved. -/
def nameStop (cs : Array Char) (i : Nat) : Option Nat := do
  let stop ← anyNameStop cs i
  if reserved.any fun word => word.length == stop - i && textAt cs word i then none
  else some stop

/-- The end of a number. -/
def numberStop (cs : Array Char) (i : Nat) : Option Nat :=
  let c := charAt cs i
  let digit := fun c : Char => c.isDigit || c == '_'
  if c == '0' && ['x', 'X', 'o', 'O', 'b', 'B'].contains (charAt cs (i + 1)) then
    some (runEnd isNameChar cs (i + 2))
  else if c.isDigit || (c == '.' && (charAt cs (i + 1)).isDigit) then
    let whole := runEnd digit cs i
    let fraction := if charAt cs whole == '.' then runEnd digit cs (whole + 1) else whole
    let mark := charAt cs fraction
    let sign := charAt cs (fraction + 1)
    if mark == 'e' || mark == 'E' then
      some (runEnd digit cs (if sign == '+' || sign == '-' then fraction + 2 else fraction + 1))
    else some (runEnd isNameChar cs fraction)
  else none

/-- The end of a regular expression's body, from behind its opening slash. A slash inside
square brackets does not close it. -/
def patternFrom (cs : Array Char) (inClass : Bool) (i : Nat) : Option Nat :=
  if h : i < cs.size then
    let c := cs[i]
    if c == '\n' then none
    else if c == '\\' then patternFrom cs inClass (i + 2)
    else if c == '[' then patternFrom cs true (i + 1)
    else if c == ']' then patternFrom cs false (i + 1)
    else if c == '/' && !inClass then some (runEnd isNameChar cs (i + 1))
    else patternFrom cs inClass (i + 1)
  else none
termination_by cs.size - i

/-- The end of a regular expression literal. -/
def patternStop (cs : Array Char) (i : Nat) : Option Nat :=
  if charAt cs i == '/' then patternFrom cs false (i + 1) else none

/-- The mark around template literals. -/
def backquote : Char := Char.ofNat 96

/-- The end of literal characters inside a template literal, at least one. -/
def templateEnd (cs : Array Char) (i : Nat) : Nat :=
  if h : i < cs.size then
    let c := cs[i]
    if c == backquote || (c == '$' && charAt cs (i + 1) == '\x7b') then i
    else if c == '\\' then templateEnd cs (i + 2)
    else templateEnd cs (i + 1)
  else i
termination_by cs.size - i

/-- The end of literal characters inside a template literal. -/
def templateStop (cs : Array Char) (i : Nat) : Option Nat :=
  let stop := min cs.size (templateEnd cs i)
  if i < stop then some stop else none

/-- The end of a statement: a semicolon, or nothing before a brace, at a line break, or at
the end of the text. -/
def semicolonScan : Scan.Scanner := fun s i =>
  let j := s.skip i
  let c := charAt s.chars j
  if c == ';' then some ⟨j + 1, some (j, j + 1)⟩
  else if j ≥ s.chars.size || c == '\x7d' || s.breaks i j then some ⟨i, none⟩
  else none

/-- The operators between two operands, each before those that begin it. -/
def operators : List (List Char) :=
  [">>>=", "**=", "<<=", ">>=", "&&=", "||=", "??=", "===", "!==", ">>>", "==", "!=", "<=", ">=",
    "&&", "||", "??", "**", "<<", ">>", "+=", "-=", "*=", "/=", "%=", "&=", "|=", "^=", "+", "-",
    "*", "/", "%", "&", "|", "^", "<", ">"].map String.toList

/-- The operators that assign. -/
def assigning : List (List Char) :=
  [">>>=", "**=", "<<=", ">>=", "&&=", "||=", "??=", "+=", "-=", "*=", "/=", "%=", "&=", "|=",
    "^="].map String.toList

/-- The end of an operator between two operands. -/
def operatorStop (cs : Array Char) (i : Nat) : Option Nat :=
  if textAt cs ['+', '+'] i || textAt cs ['-', '-'] i || textAt cs ['=', '>'] i then none
  else Scan.anyText operators cs i

/-- The end of an operator that assigns. -/
def assignStop (cs : Array Char) (i : Nat) : Option Nat :=
  Scan.anyText assigning cs i <|> Scan.textNotBefore ['='] ['=', '>'] cs i

/-! ### Lexeme rules -/

/-- A reserved or contextual word. -/
def word (text : String) : R := wordOf isNameChar text

def semicolon : R := .lexeme semicolonScan

def identifier : R :=
  .choice [
    .node "undefined" (word "undefined"),
    .node "identifier" (.lexeme (Scan.token nameStop))]

def anyName : R := .lexeme (Scan.token anyNameStop)
def string : R :=
  .node "string" (.lexeme (Scan.token fun cs i =>
    Scan.quoted '"' cs i <|> Scan.quoted '\x27' cs i))
def number : R := .node "number" (.lexeme (Scan.token numberStop))
def regex : R := .node "regex" (.lexeme (Scan.token patternStop))

def template : R :=
  .node "template_string" (.sequence [
    .lexeme (Scan.token (Scan.textStop [backquote])),
    .many (.choice [
      .lexeme (Scan.raw templateStop),
      .node "template_substitution"
        (.sequence [tight "$\x7b", .part .expression, rightBrace])]),
    .lexeme (Scan.raw (Scan.textStop [backquote]))])

def propertyName : R := .node "property_identifier" anyName
def privateName : R :=
  .node "private_property_identifier" (.sequence [mark "#", .lexeme (Scan.raw anyNameStop)])

/-- Rules that only a dialect with types has. -/
def Dialect.typed (d : Dialect) (rules : List R) : List R :=
  if d.types then rules else []

/-- An optional rule that only a dialect with types has. -/
def Dialect.typedOptional (d : Dialect) (r : R) : R :=
  if d.types then r.optional else .sequence []

/-! ### Types -/

def typeArguments : R := .sequence [mark "<", .sepBy comma (.part .type), mark ">"]

def typeParameters : R :=
  .sequence [mark "<",
    .listOf comma (.sequence [
      .many (.sequence [.choice [word "const", word "in", word "out"], .ahead anyName]),
      anyName,
      (Rule.sequence [word "extends", .part .type]).optional,
      (Rule.sequence [mark "=", .part .type]).optional]),
    mark ">"]

/-- A type that says what a call tells about an argument, or a plain type. -/
def resultType : R :=
  .choice [
    .sequence [word "asserts", sameLine, .lexeme (Scan.token anyNameStop),
      (Rule.sequence [word "is", .part .type]).optional],
    .sequence [anyName, sameLine, word "is", .part .type],
    .part .type]

def typeAnnotation : R := .sequence [mark ":", .part .type]
def resultAnnotation : R := .sequence [mark ":", resultType]

/-! ### Parameters and bindings -/

def initializer : R := .sequence [markNotBefore "=" "=>", .part .assignment]

/-- The name of a property in an object, a class or a pattern. -/
def key : R :=
  .choice [
    .node "computed_property_name" (.sequence [mark "[", .part .assignment, mark "]"]),
    string, number, privateName, propertyName]

def bindingRule : R :=
  .choice [
    .node "object_pattern" (.sequence [leftBrace,
      .listOf comma (.choice [
        .node "rest_pattern" (.sequence [mark "...", .part .binding]),
        .node "pair_pattern" (.sequence [key, mark ":", .part .binding, initializer.optional]),
        .node "object_assignment_pattern" (.sequence [identifier, initializer.optional])]),
      rightBrace]),
    .node "array_pattern" (.sequence [mark "[",
      .many comma,
      .many (.sequence [
        .choice [
          .node "rest_pattern" (.sequence [mark "...", .part .binding]),
          .node "assignment_pattern" (.sequence [.part .binding, initializer]),
          .part .binding],
        .many comma]),
      mark "]"]),
    identifier]

/-- A decorator: a name, a property of one, or a call of either. -/
def decorator (d : Dialect) : R :=
  .node "decorator" (.sequence [mark "@",
    .choice [
      .node "parenthesized_expression" (.sequence [mark "(", .part .expression, mark ")"]),
      .fold identifier [
        (.link "member_expression" "object" <| .sequence [mark ".", .role "property" propertyName]),
        (.link "call_expression" "function" <| .sequence [d.typedOptional typeArguments,
            .role "arguments" (.node "arguments" (.sequence [mark "(",
              .listOf comma (.choice [
                .node "spread_element" (.sequence [mark "...", .part .assignment]),
                .part .assignment]),
              mark ")"]))])]]])

/-- A modifier of a member or parameter: a word that a name follows. -/
def modifier (text : String) (next : R) : R :=
  .sequence [word text, .ahead next]

/-- The modifiers that a dialect with types puts in front of members and parameters. -/
def accessModifiers : List String :=
  ["public", "private", "protected", "readonly", "abstract", "declare", "override", "accessor"]

def parameter (d : Dialect) : R :=
  .sequence ([.many (decorator d)] ++
    d.typed [.many (.choice (accessModifiers.map fun m =>
      modifier m (.choice [anyName, leftBrace, mark "["])))] ++
    [.choice ([
      .node "rest_pattern" (.sequence [mark "...", .part .binding])] ++
      d.typed [.node "this" (.sequence [word "this", .ahead (mark ":")])] ++
      [.part .binding])] ++
    d.typed [(mark "?").optional, typeAnnotation.optional] ++
    [initializer.optional])

def parameters (d : Dialect) : R :=
  .node "formal_parameters" (.sequence [mark "(", .listOf comma (parameter d), mark ")"])

/-- Parameters with what a dialect with types puts before and behind them. -/
def signature (d : Dialect) : R :=
  .sequence [d.typedOptional typeParameters, parameters d, d.typedOptional resultAnnotation]

/-! ### More types -/

/-- A member of an object type. -/
def typeMember (d : Dialect) : R :=
  let sign : R := (Rule.choice [mark "+", mark "-"]).optional
  let bracketed (inside : R) : R := .sequence [mark "[", inside, mark "]"]
  .choice [
    .sequence [
      (Rule.sequence [sign, word "readonly"]).optional,
      bracketed (.sequence [anyName, word "in", .part .type,
        (Rule.sequence [word "as", .part .type]).optional]),
      (Rule.sequence [sign, mark "?"]).optional,
      typeAnnotation.optional],
    .sequence [
      (Rule.sequence [sign, word "readonly"]).optional,
      bracketed (.sequence [anyName, mark ":", .part .type]),
      typeAnnotation.optional],
    .sequence [(modifier "new" (.choice [mark "(", mark "<"])).optional, signature d],
    .sequence [
      .many (.choice [modifier "readonly" key, modifier "get" key, modifier "set" key]),
      key, (mark "?").optional,
      .choice [signature d, typeAnnotation.optional]],
    mark ";", mark ","]

def objectType (d : Dialect) : R :=
  .sequence [leftBrace, .many (typeMember d), rightBrace]

/-- A type that is not built by an operator. -/
def primaryType (d : Dialect) : R :=
  let dotted : R := .sequence [anyName, .many (.sequence [mark ".", anyName])]
  .choice [
    .sequence [mark "(", .part .type, mark ")"],
    objectType d,
    .sequence [mark "[",
      .listOf comma (.sequence [
        (mark "...").optional,
        (Rule.sequence [anyName, (mark "?").optional, mark ":"]).optional,
        .part .type, (mark "?").optional]),
      mark "]"],
    .lexeme (Scan.token fun cs i => Scan.quoted '"' cs i <|> Scan.quoted '\x27' cs i),
    .sequence [(mark "-").optional, .lexeme (Scan.token numberStop)],
    .sequence [
      .lexeme (Scan.token (Scan.textStop [backquote])),
      .many (.choice [
        .lexeme (Scan.raw templateStop),
        .sequence [tight "$\x7b", .part .type, rightBrace]]),
      .lexeme (Scan.raw (Scan.textStop [backquote]))],
    .sequence [(word "typeof").optional, word "import", mark "(", .part .type, mark ")",
      .many (.sequence [mark ".", anyName]), typeArguments.optional],
    .sequence [word "typeof",
      dotted, .many (.sequence [mark ".", mark "#", anyName]), (typeArguments).optional],
    .sequence [dotted, typeArguments.optional]]

/-- A type with what follows it on the same line: brackets for arrays and look-ups. -/
def suffixedType (d : Dialect) : R :=
  .sequence [primaryType d,
    .many (.sequence [sameLine, mark "[", (Rule.part .type).optional, mark "]"])]

/-- A type behind the words that act on types. -/
def prefixedType (d : Dialect) : R :=
  let operator (text : String) : R :=
    .sequence [word text, .absent (.choice [mark ",", mark ">", mark ")", mark "[", mark "."])]
  .choice [
    .sequence [word "infer", anyName,
      (Rule.sequence [word "extends", suffixedType d, .absent (mark "?")]).optional],
    .sequence [
      .many (.choice [operator "keyof", operator "unique", operator "readonly"]),
      suffixedType d],
    suffixedType d]

def unionType (d : Dialect) : R :=
  .sequence [
    (Rule.choice [mark "|", mark "&"]).optional,
    .sepBy (.choice [mark "|", mark "&"]) (.choice [
      .sequence [
        (word "abstract").optional, (modifier "new" (.choice [mark "(", mark "<"])).optional,
        typeParameters.optional, parameters d, mark "=>", resultType],
      prefixedType d])]

def typeRule (d : Dialect) : R :=
  .sequence [unionType d,
    (Rule.sequence [sameLine, word "extends", unionType d, mark "?", .part .type, mark ":",
      .part .type]).optional]

/-! ### Functions, classes and objects -/

def bodyBlock : R := .role "body" (.part .block)

/-- The head of a function: an optional `async`, `function`, and a star for a generator. -/
def functionHead (star : Bool) : R :=
  .sequence ([(Rule.sequence [word "async", sameLine]).optional, word "function"] ++
    (if star then [mark "*"] else []))

def functionExpression (d : Dialect) : R :=
  .choice [
    .node "generator_function"
      (.sequence [functionHead true, (Rule.role "name" identifier).optional, signature d,
        bodyBlock]),
    .node "function_expression"
      (.sequence [functionHead false, (Rule.role "name" identifier).optional, signature d,
        bodyBlock])]

def functionDeclaration (d : Dialect) : R :=
  .choice ([
    .node "generator_function_declaration"
      (.sequence [functionHead true, .role "name" identifier, signature d, bodyBlock]),
    .node "function_declaration"
      (.sequence [functionHead false, .role "name" identifier, signature d, bodyBlock])] ++
    d.typed [
      .node "function_signature"
        (.sequence [functionHead false, (mark "*").optional, .role "name" identifier, signature d,
          semicolon])])

/-- The modifiers in front of a method or field. -/
def memberModifiers (d : Dialect) : R :=
  let next : R := .choice [mark "*", key]
  .many (.choice (
    ([modifier "static" next, .sequence [word "async", sameLine, .ahead next], modifier "get" next,
      modifier "set" next, mark "*"] : List R) ++
    d.typed (accessModifiers.map fun m => modifier m next)))

def method (d : Dialect) : R :=
  .node "method_definition"
    (.sequence [memberModifiers d, .role "name" key, d.typedOptional (mark "?"), signature d,
      bodyBlock])

/-- A member of a class. -/
def classMember (d : Dialect) : R :=
  .sequence [
    .many (decorator d),
    .choice ([
      .node "class_static_block" (.sequence [word "static", bodyBlock]),
      method d] ++
      d.typed [
        .node "method_signature"
          (.sequence [memberModifiers d, key, (mark "?").optional, signature d, semicolon]),
        .node "index_signature"
          (.sequence [
            .many (.choice [modifier "static" (mark "["), modifier "readonly" (mark "[")]),
            mark "[", anyName, mark ":", .part .type, mark "]", typeAnnotation, semicolon])] ++
      [.node "field_definition"
        (.sequence ([memberModifiers d, .role "property" key] ++
          d.typed [(Rule.choice [mark "?", mark "!"]).optional, typeAnnotation.optional] ++
          [initializer.optional, semicolon]))])]

def classBody (d : Dialect) : R :=
  .node "class_body" (.sequence [leftBrace,
    .many (.choice [mark ";", classMember d]), rightBrace])

/-- What a class extends and implements. -/
def heritage (d : Dialect) : R :=
  .node "class_heritage" (.sequence [
    (Rule.sequence [word "extends",
      .sepBy comma (.sequence [.part .operand, d.typedOptional typeArguments])]).optional,
    d.typedOptional (.sequence [word "implements", .sepBy comma (.part .type)])])

def classRest (d : Dialect) : R :=
  .sequence [.many (decorator d), d.typedOptional (word "abstract"), word "class",
    (Rule.sequence [.absent (word "extends"),
      d.typedOptional (.absent (.sequence [word "implements", anyName])), identifier]).optional,
    d.typedOptional typeParameters, heritage d, classBody d]

def object (d : Dialect) : R :=
  .node "object" (.sequence [leftBrace,
    .listOf comma (.choice [
      .node "spread_element" (.sequence [mark "...", .part .assignment]),
      method d,
      .node "pair" (.sequence [.role "key" key, mark ":", .role "value" (.part .assignment)]),
      .node "object_assignment_pattern" (.sequence [identifier, initializer]),
      .node "shorthand_property_identifier" anyName]),
    rightBrace])

def array : R :=
  .node "array" (.sequence [mark "[",
    .many comma,
    .many (.sequence [
      .choice [
        .node "spread_element" (.sequence [mark "...", .part .assignment]),
        .part .assignment],
      .many comma]),
    mark "]"])

/-! ### Markup -/

/-- The characters of element and attribute names. -/
def isTagChar (c : Char) : Bool :=
  isNameChar c || c == '-' || c == '.' || c == ':'

/-- An attribute value between quotes, without escapes. -/
def attributeStop (cs : Array Char) (i : Nat) : Option Nat :=
  let quote := charAt cs i
  if quote == '"' || quote == '\x27' then some (Scan.behind [quote] cs (i + 1)) else none

/-- A run of text between elements. -/
def elementTextStop (cs : Array Char) (i : Nat) : Option Nat :=
  Scan.runStop (fun c => c != '\x7b' && c != '\x7d' && c != '<' && c != '>') cs i

def elementRule (d : Dialect) : R :=
  let name : R := .lexeme (Scan.token (Scan.runStop isTagChar))
  let braced (inside : R) : R := .node "jsx_expression" (.sequence [leftBrace, inside, rightBrace])
  let property : R := .choice [
    braced (.sequence [mark "...", .part .assignment]),
    .node "jsx_attribute" (.sequence [
      .lexeme (Scan.token (Scan.runStop fun c => isNameChar c || c == '-' || c == ':')),
      (Rule.sequence [mark "=", .choice [
        .node "string" (.lexeme (Scan.token attributeStop)),
        braced (.part .expression),
        .part .element]]).optional])]
  let child : R := .choice [
    .node "jsx_text" (.lexeme (Scan.raw elementTextStop)),
    .part .element,
    braced (Rule.choice [.sequence [mark "...", .part .assignment], .part .expression]).optional]
  .choice [
    .node "jsx_self_closing_element" (.sequence [mark "<", name, d.typedOptional typeArguments,
      .many property, mark "/", mark ">"]),
    .node "jsx_element" (.sequence [mark "<",
      (Rule.sequence [name, d.typedOptional typeArguments, .many property]).optional, mark ">",
      .many child,
      mark "<", mark "/", name.optional, mark ">"])]

/-! ### Expressions -/

def arguments : R :=
  .node "arguments" (.sequence [mark "(",
    .listOf comma (.choice [
      .node "spread_element" (.sequence [mark "...", .part .assignment]),
      .part .assignment]),
    mark ")"])

/-- The mark of an optional link of a chain. -/
def optionalMark : R := markNotBefore "?." "0123456789"

/-- The links of a chain that look a property up. -/
def memberLinks (d : Dialect) : List R :=
  [(.link "member_expression" "object" <| .sequence [.choice [optionalMark, markNotBefore "." "."],
        .role "property" (.choice [privateName, propertyName])]),
    (.link "subscript_expression" "object" <| .sequence [optionalMark.optional, mark "[",
      .part .expression, mark "]"])] ++
  (if d.types then
    [(.link "non_null_expression" "expression" <| .sequence [sameLine, markNotBefore "!" "="])]
  else [])

/-- The links of a chain that call what came before. -/
def callLinks (d : Dialect) : List R :=
  [(.link "call_expression" "function" <| .sequence [optionalMark.optional,
        d.typedOptional typeArguments, .role "arguments" arguments]),
    (.link "call_expression" "function" <| .sequence [d.typedOptional typeArguments,
      .role "arguments" template])] ++
  (if d.types then
    [(.link "instantiation_expression" "expression" <| .sequence [typeArguments,
        .ahead (.choice [.lexeme Scan.atEnd, mark ";", mark ")", mark ",", mark "]", rightBrace,
          mark ":", mark ".", mark "="])])]
  else [])

def parenthesized (d : Dialect) : R :=
  .node "parenthesized_expression"
    (.sequence [mark "(", .part .expression, d.typedOptional typeAnnotation, mark ")"])

/-- A namespace with a body, which may stand where an expression may. -/
def namespaceExpression : R :=
  .node "internal_module" (.sequence [word "namespace", sameLine, anyName,
    .many (.sequence [mark ".", anyName]), bodyBlock])

/-- An operand that is not built by chaining, without `new`. -/
def plainOperand (d : Dialect) : R :=
  .choice (
    d.typed [namespaceExpression] ++
    [functionExpression d,
      .node "class" (classRest d),
      .node "this" (word "this"),
      .node "super" (word "super"),
      .node "meta_property" (.sequence [word "import", mark ".", anyName]),
      .node "import" (word "import"),
      .node "true" (word "true"), .node "false" (word "false"), .node "null" (word "null"),
      identifier, number, string, template, regex,
      parenthesized d, array, object d] ++
    (if d.markup then [.part .element] else []))

/-- What `new` makes an instance of. -/
def constructed (d : Dialect) : R :=
  .fold (plainOperand d) (memberLinks d)

/-- An expression with `new`; each `new` takes at most one argument list. -/
def newExpression (d : Dialect) : R :=
  .choice [
    .node "meta_property" (.sequence [word "new", mark ".", anyName]),
    .node "new_expression" (.sequence [word "new",
      .role "constructor"
        (.choice [.sequence [.ahead (word "new"), .part .operand], constructed d]),
      d.typedOptional typeArguments, arguments.optional])]

def operandRule (d : Dialect) : R :=
  .fold (.choice [newExpression d, plainOperand d]) (memberLinks d ++ callLinks d)

def unaryRule (d : Dialect) : R :=
  .choice (
    [.node "update_expression" (.sequence [.choice [mark "++", mark "--"], .part .unary]),
      .node "unary_expression" (.sequence [
        .choice [mark "!", mark "~", mark "-", mark "+", word "typeof", word "void", word "delete"],
        .part .unary]),
      .node "await_expression" (.sequence [word "await", .part .unary])] ++
    (if d.types && !d.markup then
      [.node "type_assertion" (.sequence [typeArguments, .part .unary])]
    else []) ++
    [.fold (.part .operand)
      [(.link "update_expression" "argument" <|
        .sequence [sameLine, .choice [mark "++", mark "--"]])]])

/-- An arrow function; `result` says how a type of its result is written, if at all. -/
def arrow (d : Dialect) (result : R) : R :=
  let head : R := .choice [
    .sequence [d.typedOptional typeParameters, parameters d, result],
    .role "parameter" identifier]
  let rest : R := .sequence [head, sameLine, mark "=>",
    .role "body" (.choice [.part .block, .part .assignment])]
  .node "arrow_function" (.choice [.sequence [word "async", sameLine, rest], rest])

def yieldExpression : R :=
  .node "yield_expression" (.sequence [word "yield",
    (Rule.choice [
      .sequence [mark "*", .part .assignment],
      .sequence [sameLine, .part .assignment]]).optional])

/-- The operators that continue an expression. -/
def operatorLinks (d : Dialect) : List R :=
  let question : R := .choice [markNotBefore "?" ".?", .sequence [mark "?", .absent (mark "?"),
    .ahead (.lexeme (Scan.token numberStop))]]
  let untyped : R := .choice [arrow d (.sequence []), .fold (.part .unary) [
    (.link "binary_expression" "left" <|
      .sequence [.lexeme (Scan.token operatorStop), .part .unary])]]
  [(.link "assignment_expression" "left" <| .sequence [.lexeme (Scan.token assignStop),
      .role "right" (.part .assignment)]),
    (.link "binary_expression" "left" <| .sequence [
        .choice [.lexeme (Scan.token operatorStop), word "instanceof", word "in"],
        .part .unary])] ++
  (if d.types then
    [(.link "as_expression" "expression" <| .sequence [sameLine, word "as",
        .choice [word "const", .part .type]]),
      (.link "satisfies_expression" "expression" <| .sequence [sameLine, word "satisfies",
        .part .type])]
  else []) ++
  [(.link "ternary_expression" "condition" <| .sequence [question, .part .assignment, mark ":",
    .part .assignment])] ++
  (if d.types then
    [(.link "ternary_expression" "condition" <| .sequence [question, untyped, mark ":",
      .part .assignment])]
  else [])

def assignmentRule (d : Dialect) : R :=
  .choice [
    arrow d (d.typedOptional resultAnnotation),
    yieldExpression,
    .fold (.part .unary) (operatorLinks d)]

def expressionRule : R :=
  .fold (.part .assignment)
    [(.link "sequence_expression" "" <| .sequence [comma, .part .assignment])]

/-! ### Statements -/

def blockRule : R :=
  .node "statement_block" (.sequence [leftBrace, .many (.part .statement), rightBrace])

def declarator (d : Dialect) : R :=
  .node "variable_declarator"
    (.sequence ([.role "name" (.part .binding)] ++
      d.typed [(mark "!").optional, typeAnnotation.optional] ++
      [(Rule.sequence [markNotBefore "=" "=>", .role "value" (.part .assignment)]).optional]))

/-- The words that open a declaration of variables. -/
def declarationWord : R :=
  .choice [word "var", word "let", word "const",
    .sequence [(word "await").optional, word "using", sameLine, .ahead anyName]]

def variableDeclaration (d : Dialect) : R :=
  .choice [
    .node "variable_declaration"
      (.sequence [word "var", .sepBy comma (declarator d), semicolon]),
    .node "lexical_declaration"
      (.sequence [declarationWord, .sepBy comma (declarator d), semicolon])]

def condition : R :=
  .node "parenthesized_expression" (.sequence [mark "(", .part .expression, mark ")"])

def source : R := .role "source" string

/-- The attributes that may follow the source of an import. -/
def importAttributes (d : Dialect) : R :=
  (Rule.node "import_attribute"
    (.sequence [.choice [word "with", .sequence [sameLine, word "assert"]], object d])).optional

/-- Names listed in an import or export. -/
def namedList : R :=
  let name : R := .choice [string, anyName]
  .sequence [leftBrace,
    .listOf comma (.node "specifier" (.sequence [
      .many (.sequence [.choice [word "type", word "typeof"], .ahead name]),
      name, (Rule.sequence [word "as", name]).optional])),
    rightBrace]

def importClause : R :=
  let all : R := .sequence [mark "*", word "as", anyName]
  .node "import_clause" (.choice [
    all, namedList,
    .sequence [identifier, (Rule.sequence [comma, .choice [all, namedList]]).optional]])

def importStatement (d : Dialect) : R :=
  .node "import_statement" (.sequence [
    word "import", .absent (.choice [mark "(", mark "."]),
    .choice (
      [.sequence [source, importAttributes d]] ++
      d.typed [
        .node "import_require_clause" (.sequence [(modifier "type" anyName).optional, anyName,
          mark "=", word "require", mark "(", .role "source" string, mark ")"]),
        .node "import_alias" (.sequence [anyName, mark "=", anyName,
          .many (.sequence [mark ".", anyName])])] ++
      [.sequence [importClause, word "from", source, importAttributes d],
        .sequence [.choice [word "type", word "typeof"], importClause, word "from", source,
          importAttributes d]]),
    semicolon])

def exportStatement (d : Dialect) : R :=
  .node "export_statement" (.sequence [
    .many (decorator d), word "export",
    .choice (
      [.sequence [mark "*", (Rule.sequence [word "as", .choice [string, anyName]]).optional,
          word "from", source, importAttributes d, semicolon],
        .sequence [namedList,
          (Rule.sequence [word "from", source, importAttributes d]).optional, semicolon]] ++
      d.typed [
        .sequence [word "type", .choice [
          .sequence [mark "*", (Rule.sequence [word "as", anyName]).optional, word "from", source,
            importAttributes d],
          .sequence [namedList, (Rule.sequence [word "from", source,
            importAttributes d]).optional]], semicolon],
        .sequence [markNotBefore "=" "=", .part .expression, semicolon],
        .sequence [word "as", word "namespace", anyName, semicolon]] ++
      [.sequence [word "default", .choice (
          [functionDeclaration d, .node "class_declaration" (classRest d)] ++
          d.typed [.sequence [.ahead (.choice [word "interface", word "abstract"]),
            .part .statement]] ++
          [.sequence [.part .expression, semicolon]])],
        .part .statement])])

/-- Statements that only a dialect with types has. -/
def typedStatements (d : Dialect) : List R :=
  let dotted : R := .sequence [anyName, .many (.sequence [mark ".", anyName])]
  [.node "interface_declaration" (.sequence [word "interface", sameLine, anyName,
      typeParameters.optional,
      (Rule.sequence [word "extends", .sepBy comma (.part .type)]).optional,
      objectType d]),
    .node "type_alias_declaration" (.sequence [word "type", sameLine, anyName,
      typeParameters.optional, mark "=", .part .type, semicolon]),
    .node "enum_declaration" (.sequence [(word "const").optional, word "enum", anyName, leftBrace,
      .listOf comma (.node "enum_assignment" (.sequence [key, initializer.optional])),
      rightBrace]),
    .node "module" (.sequence [word "module", sameLine, .choice [string, dotted],
      bodyBlock]),
    .node "ambient_declaration" (.sequence [word "declare", sameLine, .choice [
      .sequence [word "global", .part .block],
      .sequence [word "module", string, semicolon],
      .node "internal_module" (.sequence [word "namespace", dotted, .part .block]),
      .part .statement]])]

def forStatement (d : Dialect) : R :=
  .choice [
    .node "for_in_statement" (.sequence [word "for", (word "await").optional, mark "(",
      .choice [
        .sequence [declarationWord, .part .binding, initializer.optional],
        .part .operand],
      .choice [word "in", word "of"], .part .expression, mark ")", .part .statement]),
    .node "for_statement" (.sequence [word "for", mark "(",
      .choice [
        variableDeclaration d,
        .sequence [.part .expression, mark ";"],
        mark ";"],
      (Rule.part .expression).optional, mark ";", (Rule.part .expression).optional, mark ")",
      .part .statement])]

def switchStatement : R :=
  .node "switch_statement" (.sequence [word "switch", condition, leftBrace,
    .many (.choice [
      .node "switch_case" (.sequence [word "case", .part .expression, mark ":",
        .many (.part .statement)]),
      .node "switch_default" (.sequence [word "default", mark ":", .many (.part .statement)])]),
    rightBrace])

def tryStatement (d : Dialect) : R :=
  .node "try_statement" (.sequence [word "try", .part .block,
    (Rule.node "catch_clause" (.sequence [word "catch",
      (Rule.sequence [mark "(", .part .binding, d.typedOptional typeAnnotation, mark ")"]).optional,
      .part .block])).optional,
    (Rule.node "finally_clause" (.sequence [word "finally", .part .block])).optional])

def statementRule (d : Dialect) : R :=
  .choice (
    [.part .block,
      .node "empty_statement" (mark ";"),
      importStatement d,
      exportStatement d,
      functionDeclaration d,
      .node "class_declaration" (classRest d)] ++
    d.typed (typedStatements d) ++
    [variableDeclaration d,
      .node "if_statement" (.sequence [word "if", condition, .part .statement,
        (Rule.sequence [word "else", .part .statement]).optional]),
      forStatement d,
      .node "while_statement" (.sequence [word "while", condition, .part .statement]),
      .node "do_statement" (.sequence [word "do", .part .statement, word "while", condition,
        (mark ";").optional]),
      switchStatement,
      tryStatement d,
      .node "with_statement" (.sequence [word "with", condition, .part .statement]),
      .node "return_statement" (.sequence [word "return",
        (Rule.sequence [sameLine, .part .expression]).optional, semicolon]),
      .node "throw_statement" (.sequence [word "throw", .part .expression, semicolon]),
      .node "break_statement" (.sequence [word "break",
        (Rule.sequence [sameLine, anyName]).optional, semicolon]),
      .node "continue_statement" (.sequence [word "continue",
        (Rule.sequence [sameLine, anyName]).optional, semicolon]),
      .node "debugger_statement" (.sequence [word "debugger", semicolon]),
      .node "labeled_statement" (.sequence [identifier, mark ":", .part .statement]),
      .node "expression_statement" (.sequence [.part .expression, semicolon])])

/-! ### The whole text -/

/-- The rule of each part. -/
def rules (d : Dialect) : List (Part × R) :=
  [(.statement, statementRule d), (.block, blockRule), (.expression, expressionRule),
    (.assignment, assignmentRule d), (.unary, unaryRule d), (.operand, operandRule d),
    (.binding, bindingRule), (.type, typeRule d),
    (.element, elementRule d)]

/-- A whole text: an interpreter line if there is one, then comments and statements. -/
def program : R :=
  .node "program" (.sequence [
    (Rule.node "hash_bang_line" (.lexeme (Scan.raw fun cs i =>
      if i == 0 && textAt cs ['#', '!'] 0 then some (lineStop cs 0) else none))).optional,
    .many (.choice [
      .node "comment" (.lexeme (Scan.behindBlanks isBlank comment)),
      .part .statement])])

end CodeAtlas.Grammar.JavaScript
