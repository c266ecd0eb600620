import CodeAtlas.Grammar.C.Types

/-!
# `CodeAtlas.Grammar.C.Rules`: C and C++

Expressions, statements and declarations. An expression is a flat run of operands and
operators. A statement that opens with a name before a parenthesis is an expression if it can
be one; any other that can be read as a declaration is a declaration.
-/

set_option autoImplicit false

namespace CodeAtlas.Grammar.C

open CodeAtlas.Syntax

/-! ### Expressions -/

def initializersRule : R :=
  let value : R := .choice [.part .initializers, .part .expression]
  .node "initializer_list" (inBraces (.choice [
    .listOf comma (.choice [
      .sequence [
        .some (.choice [
          inBrackets (.sequence [.part .expression,
            .optional (.sequence [mark "...", .part .expression])]),
          .sequence [markNotBefore "." ".", token (Scan.nameStop isWordChar)]]),
        mark "=", value],
      .sequence [token (Scan.nameStop isWordChar), markNotBefore ":" ":", value],
      value]),
    comma]))

/-- A cast. In front of an operand that opens like no operator, any name may be the type. -/
def cast (d : Dialect) : R :=
  let words : R := .sequence (
    d.only [.absent (anyWord ["and", "or", "xor", "bitand", "bitor", "not_eq", "and_eq", "or_eq",
      "xor_eq"])] ++
    [token (Scan.nameStop isWordChar)])
  .node "cast_expression" (.choice [
    .sequence [inParens (surelyType d), .part .operand],
    .sequence [inParens (.part .typeName),
      .ahead (.choice [literal d, words, markNotBefore "!" "=", mark "~"]), .part .operand]])

/-- What an operator asks of a type or a value. -/
def measured (d : Dialect) (names : List String) : R :=
  .sequence [anyWord names,
    .choice (d.only [.sequence [mark "...", inParens (anyName d)]] ++
      [.sequence [inParens (surelyType d)], .part .operand])]

/-- Lines for the assembler, with the values that they use. -/
def assembly (d : Dialect) : R :=
  let values : R := .listOf comma (.sequence [.optional (inBrackets (anyName d)), string d,
    .optional (inParens (.part .expression))])
  .node "gnu_asm_expression" (.sequence [anyWord ["asm", "__asm__", "__asm"],
    .many (anyWord ["volatile", "__volatile__", "inline", "goto"]),
    inParens (.sequence [string d, .many (.sequence [mark ":", values])])])

/-- A function without a name. -/
def lambda (d : Dialect) : R :=
  let captured : R := .choice [
    .sequence [mark "*", word "this"],
    .sequence [(mark "&").optional, (mark "...").optional, anyName d, (mark "...").optional,
      .optional (.choice [.sequence [mark "=", .part .expression], .part .initializers])],
    word "this", mark "&", mark "="]
  .node "lambda_expression" (.sequence [inBrackets (.listOf comma captured),
    .optional (.sequence [mark "<", .listOf comma (.sequence [
      .choice [.sequence [anyWord ["typename", "class"], (mark "...").optional,
        (anyName d).optional], .sequence [.part .specifiers, .part (.declarator false)]]]),
      mark ">"]),
    .many attributes,
    .optional (.sequence [.part .parameters, functionRemainder d]),
    .role "body" (.part .block)])

def newExpression (d : Dialect) : R :=
  .node "new_expression" (.sequence [(mark "::").optional, word "new",
    .optional (.sequence [arguments, .ahead (.choice [knownType d, .part .typeName])]),
    .choice [inParens (.part .descriptor),
      .sequence [.many qualifier, .choice [knownType d, .part .typeName], .many (mark "*")]],
    .many (inBrackets (Rule.part .expression).optional),
    .optional (.choice [arguments, .part .initializers])])

/-- What a type must offer. -/
def requiresExpression : R :=
  .node "requires_expression" (.sequence [word "requires", (Rule.part .parameters).optional,
    inBraces (.many (.choice [
      .sequence [word "typename", .part .typeName, semicolon],
      .sequence [inBraces (.part .expression), (word "noexcept").optional,
        .optional (.sequence [mark "->", .part .typeName]), semicolon],
      .sequence [requirement, semicolon],
      .sequence [.part .expression, semicolon]]))])

/-- Names as operands: plain, qualified, or with the arguments of a template. -/
def nameOperand (d : Dialect) : R :=
  .choice (
    d.only [.part .qualified, operatorName, templateFunction (anyName d) behindArguments] ++
    [identifier d])

/-- An operand before what continues it. -/
def operandHead (d : Dialect) : R :=
  .choice (
    [.node "compound_literal_expression" (.sequence [inParens (.part .descriptor),
        .part .initializers]),
      cast d,
      inParens (.part .block)] ++
    d.only [lambda d, newExpression d, requiresExpression,
      .node "this" (word "this"), mark "...",
      .node "throw_expression" (.sequence [word "throw", (Rule.part .expression).optional]),
      .node "call_expression" (.sequence [
        .role "function" (.choice [.sequence [.some (anyWord sizes), (anyWord primitives).optional],
          .node "primitive_type" (anyWord primitives)]), arguments]),
      .node "compound_literal_expression" (.sequence [
        .choice [knownType d, .sequence [.part .typeName, .absent (.sequence [leftBrace,
          rightBrace, .ahead leftBrace])]], .part .initializers]),
      .sequence [.ahead (anyWord ["typename", "decltype"]), .part .typeName, arguments]] ++
    [.node "parenthesized_expression" (inParens (.part .expression)),
      literal d,
      .node "generic_expression" (.sequence [word "_Generic",
        inParens (.sequence [.part .expression,
          .some (.sequence [comma, .choice [word "default", .part .descriptor], mark ":",
            .part .expression])])]),
      .node "offsetof_expression" (.sequence [word "offsetof",
        inParens (.sequence [.part .descriptor, comma, anyName d,
          .many (.choice [.sequence [mark ".", anyName d], inBrackets (.part .expression)])])]),
      assembly d,
      nameOperand d])

/-- The name of a member behind a value. -/
def memberName (d : Dialect) : R :=
  .role "field" (.choice (
    d.only [
      .sequence [(word "template").optional, .part .qualified],
      .node "template_method" (.sequence [(word "template").optional, anyName d,
        .part .templateArguments, .ahead (mark "(")]),
      destructorName d, operatorName] ++
    [.node "field_identifier" (anyName d)]))

def operandRule (d : Dialect) : R :=
  .choice [
    .node "unary_expression" (.sequence [
      .choice (
        [mark "++", mark "--", mark "!", mark "~", mark "-", mark "+", mark "*", mark "&",
          word "__extension__", anyWord ["__real__", "__imag__"]] ++
        d.only [
          .sequence [(mark "::").optional, word "delete", .optional (.sequence [mark "[",
            mark "]"])],
          anyWord ["not", "compl", "co_await"]]),
      .part .operand]),
    .node "sizeof_expression" (measured d ["sizeof", "alignof", "_Alignof", "__alignof__",
      "__alignof"]),
    .node "noexcept_expression" (.sequence (
      if d.classes then [word "noexcept", inParens (.part .expression)] else [.choice []])),
    .fold (operandHead d)
      ([(.link "call_expression" "function" arguments),
        (.link "subscript_expression" "argument" <| inBrackets (.listOf comma
          (.choice [.part .expression, .part .initializers]))),
        (.link "field_expression" "argument" <| .sequence [
          .choice [markNotBefore "->" "*", markNotBefore "." "*."], memberName d]),
        (.link "update_expression" "argument" <| .choice [mark "++", mark "--"])] ++
      d.only [(.link "parameter_pack_expansion" "pattern" <| mark "...")])]

/-- The operators between two operands, each before those that begin it. -/
def operators (d : Dialect) : List (List Char) :=
  ((if d.classes then ["<=>", "->*", ".*"] else []) ++
    ["<<=", ">>=", "&&", "||", "==", "!=", "<=", ">=", "<<", ">>", "+=", "-=", "*=", "/=", "%=",
      "&=", "|=", "^=", "+", "-", "*", "/", "%", "&", "|", "^", "<", ">", "="]).map String.toList

def expressionRule (d : Dialect) : R :=
  let assigned : R := .choice [.part .initializers, .part .operand]
  .sequence [.part .operand,
    .many (.choice (
      [.sequence [markNotBefore "=" "=", assigned],
        .sequence [token (Scan.anyText (operators d)), .part .operand],
        .sequence [mark "?", (Rule.part .expression).optional, mark ":", .part .expression]] ++
      d.only [.sequence [anyWord ["and", "or", "xor", "bitand", "bitor", "not_eq", "and_eq",
        "or_eq", "xor_eq"], .part .operand]]))]

/-- Expressions with commas between them. -/
def expressions : R := .sepBy comma (.part .expression)

/-! ### Declarations -/

/-- The value that a declared thing starts with. -/
def initialValue (d : Dialect) : R :=
  .choice (
    [.sequence [mark "=", .role "value" (.choice [.part .initializers, .part .expression])]] ++
    d.only [.role "value" arguments, .role "value" (.part .initializers)])

/-- A declared thing, perhaps with its value. -/
def initialized (d : Dialect) : R :=
  .sequence [.role "declarator" (.part (.declarator false)),
    .optional (.sequence [anyWord ["asm", "__asm__", "__asm"], arguments]),
    .many attributes, (initialValue d).optional]

/-- Names for the parts of a value. -/
def structuredBinding (d : Dialect) : R :=
  .node "structured_binding_declarator"
    (.sequence [modifiers, word "auto", .many qualifier, reference.optional,
      inBrackets (.listOf comma (anyName d)), initialValue d])

/-- A declaration up to its semicolon. -/
def declarationBody (d : Dialect) : R :=
  .choice (
    d.only [structuredBinding d] ++
    [.sequence [.part .specifiers, .sepBy comma (initialized d)]])

def declarationRule (d : Dialect) : R :=
  .node "declaration" (.sequence [declarationBody d, semicolon])

def typeDefinition : R :=
  .node "type_definition" (.sequence [(word "__extension__").optional, word "typedef",
    .part .specifiers, .listOf comma (.part (.declarator false)), .many attributes, semicolon])

/-- A type on its own, and the semicolon behind it. -/
def bareType (d : Dialect) : R :=
  .sequence [.optional (.some attributes), composite d, .node ";" semicolon]

/-- The values that a constructor starts its members with. -/
def memberInitializers (d : Dialect) : R :=
  .node "field_initializer_list" (.sequence [mark ":",
    .sepBy comma (.node "field_initializer" (.sequence [
      .choice [.part .qualified, .sequence [anyName d, (Rule.part .templateArguments).optional]],
      .choice [arguments, .part .initializers], (mark "...").optional]))])

def catchClauses : R :=
  .some (.node "catch_clause" (.sequence [word "catch", .part .parameters, .part .block]))

/-- What a function does. -/
def functionBody (d : Dialect) : R :=
  .choice (
    [.role "body" (.part .block)] ++
    d.only [
      .sequence [memberInitializers d, .role "body" (.part .block)],
      .node "constructor_try_statement" (.sequence [word "try", (memberInitializers d).optional,
        .part .block, catchClauses]),
      .sequence [mark "=", anyWord ["default", "delete"], semicolon],
      .sequence [mark "=", word "0", semicolon]])

/-- A function that is declared without a type: a constructor, a destructor, or a conversion. -/
def untypedFunction (d : Dialect) (rest : R) : R :=
  let name : R := .choice [.part .qualified, destructorName d, identifier d]
  .sequence [modifiers,
    .role "declarator" (.choice [
      .node "function_declarator" (.sequence [conversionName, .part .parameters,
        functionRemainder d]),
      .node "function_declarator" (.sequence [.role "declarator" name,
        .role "parameters" (.part .parameters), functionRemainder d])]),
    rest]

/-- Functions with a body; `members` says whether they are members of a class. -/
def functionDefinition (d : Dialect) (members : Bool) : R :=
  .choice (
    d.only [.node "function_definition" (untypedFunction d (functionBody d))] ++
    [.node "function_definition" (.sequence [.part .specifiers,
      .role "declarator" (.part (.declarator members)),
      .choice (
        [functionBody d] ++
        if d.classes then []
        else [.sequence [.some (.part .declaration), .role "body" (.part .block)]])])])

/-- Items between braces. -/
def itemList : R := .node "declaration_list" (inBraces (.many (.part .item)))

def linkage : R :=
  .node "linkage_specification" (.sequence [word "extern",
    .node "string_literal" (token (Scan.quoted '"')),
    .role "body" (.choice [itemList, .part .item])])

/-- The parameters of a template. -/
def templateParameters (d : Dialect) (parameters : R) : R :=
  .node "template_parameter_list" (.sequence [mark "<",
    .listOf comma (.choice [
      .sequence [
        .optional (.sequence [word "template", parameters]),
        anyWord ["typename", "class"], (mark "...").optional, (anyName d).optional,
        .optional (.sequence [mark "=", .part .descriptor]), .ahead (.choice [comma, mark ">"])],
      .sequence [.part .specifiers,
        .optional (.choice [.part (.declarator false), .part .abstract]),
        .optional (.sequence [mark "=", angledExpression])]]),
    mark ">"])

/-- Parameters of a template whose own template parameters nest at most this deep. -/
def nestedTemplateParameters (d : Dialect) : Nat → R
  | 0 => .sequence [mark "<", mark ">"]
  | depth + 1 => templateParameters d (nestedTemplateParameters d depth)

/-- Declarations that only the dialect with classes has. -/
def classItems (d : Dialect) : List R :=
  let untypedDeclaration : R := .node "declaration" (untypedFunction d semicolon)
  [.node "template_declaration" (.sequence [word "template", nestedTemplateParameters d 3,
      requirement.optional, .part .item]),
    .node "template_instantiation" (.sequence [(word "extern").optional, word "template",
      .part .specifiers, (Rule.part (.declarator false)).optional, semicolon]),
    .node "alias_declaration" (.sequence [word "using", anyName d, .many attributes, mark "=",
      .part .descriptor, semicolon]),
    .node "using_declaration" (.sequence [word "using",
      .optional (anyWord ["namespace", "enum"]), .listOf comma (.part .typeName), semicolon]),
    .node "using_declaration" (.sequence [word "using", .part .qualified, semicolon]),
    .node "concept_definition" (.sequence [word "concept", anyName d, mark "=",
      .part .expression, semicolon]),
    .node "static_assert_declaration" (.sequence [word "static_assert",
      inParens (.sequence [.part .expression, .optional (.sequence [comma, string d])]),
      semicolon]),
    .node "namespace_alias_definition" (.sequence [word "namespace", anyName d, mark "=",
      .part .typeName, semicolon]),
    .node "namespace_definition" (.sequence [(word "inline").optional, word "namespace",
      .many attributes,
      .optional (.sepBy (.sequence [mark "::", (word "inline").optional]) (anyName d)),
      .many attributes, .role "body" itemList]),
    .node "friend_declaration" (.sequence [
      .many (anyWord ["constexpr", "inline"]), word "friend", .choice [
        functionDefinition d false,
        .part .declaration,
        untypedDeclaration,
        .sequence [(anyWord ["class", "struct", "union"]).optional, .part .typeName,
          semicolon]]])]

/-- A member of a structure or class. -/
def memberRule (d : Dialect) : R :=
  let field : R := .choice [
    .sequence [.part (.declarator true),
      .optional (.sequence [markNotBefore ":" ":", .part .expression]), .many attributes,
      .choice [.sequence (d.only [initialValue d] ++ if d.classes then [] else [.choice []]),
        .sequence []]],
    .sequence [markNotBefore ":" ":", .part .expression]]
  .choice (
    directives d (.part .member) ++
    d.only (
      [.node "access_specifier" (.sequence [anyWord ["public", "private", "protected"],
          (anyName d).optional, mark ":"])] ++
      classItems d ++
      [typeDefinition,
        functionDefinition d true,
        .node "declaration" (untypedFunction d semicolon)]) ++
    [.node "field_declaration" (.sequence [.part .specifiers, .listOf comma field, semicolon]),
      .node ";" semicolon])

/-! ### Statements -/

def blockRule : R :=
  .node "compound_statement" (inBraces (.many (.part .item)))

def expressionStatement : R :=
  .node "expression_statement" (.sequence [expressions.optional, semicolon])

/-- A condition in parentheses. -/
def condition (d : Dialect) : R :=
  let declared : R := .sequence [.part .specifiers, .part (.declarator false), initialValue d,
    .ahead (mark ")")]
  .node (if d.classes then "condition_clause" else "parenthesized_expression")
    (inParens (.sequence (
      d.only [.optional (.choice [.part .declaration, expressionStatement])] ++
      [.choice (d.only [declared, structuredBinding d] ++ [expressions])])))

def forStatement (d : Dialect) : R :=
  .choice (
    d.only [.node "for_range_loop" (.sequence [word "for", mark "(",
      .optional (.choice [.sequence [.part .declaration, .absent semicolon], expressionStatement]),
      .choice [
        .sequence [modifiers, word "auto", .many qualifier, reference.optional,
          inBrackets (.listOf comma (anyName d))],
        .sequence [.part .specifiers, .part (.declarator false)]],
      markNotBefore ":" ":", .choice [.part .initializers, .part .expression],
      mark ")", .part .statement])] ++
    [.node "for_statement" (.sequence [word "for", mark "(",
      .choice [.part .declaration, expressionStatement],
      expressions.optional, semicolon, expressions.optional, mark ")", .part .statement])])

def statementRule (d : Dialect) : R :=
  .choice (
    [.part .block,
      .sequence [.many attributes, .node "if_statement" (.sequence [word "if",
        .sequence (d.only [(anyWord ["constexpr", "consteval"]).optional]),
        condition d, .part .statement,
        .optional (.sequence [word "else", .part .statement])])],
      .node "switch_statement" (.sequence [word "switch", condition d, .part .statement]),
      .node "while_statement" (.sequence [word "while", condition d, .part .statement]),
      .node "do_statement" (.sequence [word "do", .part .statement, word "while",
        inParens expressions, semicolon]),
      forStatement d,
      .node "case_statement" (.sequence [
        .choice [
          .sequence [word "case", .part .expression,
            .optional (.sequence [mark "...", .part .expression])],
          word "default"],
        markNotBefore ":" ":",
        .many (.sequence [.absent (anyWord ["case", "default"]), .part .item])]),
      .node "return_statement" (.sequence [anyWord (["return"] ++
          if d.classes then ["co_return", "co_yield"] else []),
        .optional (.choice [.part .initializers, expressions]), semicolon]),
      .node "break_statement" (.sequence [word "break", semicolon]),
      .node "continue_statement" (.sequence [word "continue", semicolon]),
      .node "goto_statement" (.sequence [word "goto", anyName d, semicolon])] ++
    d.only [.node "try_statement" (.sequence [word "try", .part .block, catchClauses])] ++
    [.node "labeled_statement" (.sequence [anyName d, markNotBefore ":" ":",
        .choice [.part .declaration, .part .statement, .ahead rightBrace]]),
      expressionStatement,
      .sequence [.some attributes, .part .statement]])

/-- Anything that may stand in a file or a block. -/
def itemRule (d : Dialect) : R :=
  let opensLikeCall : R := .sequence [.many attributes,
    .choice [.part .typeName, .some (anyWord (sizes ++ primitives))], mark "("]
  .choice (
    directives d (.part .item) ++
    [linkage, typeDefinition] ++
    d.only (classItems d) ++
    [.sequence [.ahead opensLikeCall, expressionStatement],
      bareType d,
      functionDefinition d false,
      .part .declaration,
      .part .statement])

/-! ### The whole text -/

/-- The rule of each part. -/
def rules (d : Dialect) : List (Part × R) :=
  [(.item, itemRule d), (.statement, statementRule d), (.block, blockRule),
    (.expression, expressionRule d), (.operand, operandRule d), (.descriptor, descriptorRule),
    (.specifiers, specifiersRule d), (.declarator false, declaratorRule d false),
    (.declarator true, declaratorRule d true), (.abstract, abstractRule d),
    (.parameters, parametersRule d), (.initializers, initializersRule),
    (.typeName, typeNameRule d), (.templateArguments, templateArgumentsRule),
    (.member, memberRule d), (.qualified, qualifiedRule d),
    (.declaration, declarationRule d), (.modifiers, modifiersRule d)]

/-- A whole text: comments and items. -/
def translationUnit : R :=
  .node "translation_unit" (.many (.choice [
    .node "comment" (.lexeme (Scan.behindBlanks Text.isBlank comment)),
    .part .item]))

end CodeAtlas.Grammar.C
