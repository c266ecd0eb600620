import CodeAtlas.Grammar.C.Lexemes

/-!
# `CodeAtlas.Grammar.C.Types`: types and declarators of C and C++

A declaration gives a type and then, for each thing declared, a declarator: the name with the
marks around it that say how the type is reached from it. A name that a list of parameters
follows directly declares a function of that name.
-/

set_option autoImplicit false

namespace CodeAtlas.Grammar.C

open CodeAtlas.Syntax

/-! ### Modifiers -/

def arguments : R :=
  .role "arguments" (.node "argument_list" (inParens (.listOf comma
    (.choice [.part .expression, .part .initializers, .part .block]))))

/-- An attribute in either notation. -/
def attributes : R :=
  .choice [
    .node "attribute_specifier" (.sequence [anyWord ["__attribute__", "__attribute"],
      mark "(", arguments, mark ")"]),
    .node "attribute_declaration" (.sequence [mark "[", tight "[",
      .listOf comma (.sequence [
        token (Scan.nameStop isWordChar),
        .many (.sequence [mark "::", token (Scan.nameStop isWordChar)]),
        arguments.optional]),
      mark "]", tight "]"])]

/-- A qualifier of a type. -/
def qualifier : R :=
  .choice [
    anyWord ["const", "constexpr", "volatile", "restrict", "__restrict__", "__restrict",
      "__extension__", "_Atomic", "_Noreturn", "noreturn", "_Nonnull", "mutable", "consteval",
      "constinit", "__cdecl", "__clrcall", "__stdcall", "__fastcall", "__thiscall",
      "__vectorcall"],
    .sequence [anyWord ["alignas", "_Alignas"],
      inParens (.choice [.part .expression, .part .descriptor])]]

/-- What may stand beside the type in a declaration. -/
def modifiersRule (d : Dialect) : R :=
  .many (.choice (
    [attributes, qualifier,
      .sequence [word "extern", .absent (.node "string_literal" (token (Scan.quoted '"')))],
      anyWord ["static", "register", "inline", "__inline", "__inline__", "__forceinline",
        "thread_local", "_Thread_local", "__thread"],
      .sequence [word "__declspec", inParens (.many (.choice [anyName d, arguments]))]] ++
    d.only [anyWord ["virtual", "explicit"],
      .sequence [word "explicit", inParens (.part .expression)]]))

def modifiers : R := .part .modifiers

/-! ### Types -/

/-- An expression between angle brackets, where `>` is no operator. -/
def angledExpression : R :=
  .sequence [.part .operand,
    .many (.choice [
      .sequence [token (Scan.anyText (["==", "!=", "&&", "||", "<<", "<=", "+", "-", "*", "/",
        "%", "&", "|", "^"].map String.toList)), .part .operand],
      .sequence [mark "?", .part .expression, mark ":", .part .operand]])]

def templateArgumentsRule : R :=
  let last : R := .ahead (.choice [comma, mark ">"])
  .node "template_argument_list" (.sequence [mark "<",
    .listOf comma (.choice [
      .sequence [.part .descriptor, (mark "...").optional, last],
      .sequence [angledExpression, last]]),
    mark ">"])

/-- The name of a type; in the dialect with classes perhaps inside others and with
arguments. -/
def typeNameRule (d : Dialect) : R :=
  if d.classes then
    let segment : R := .sequence [(word "template").optional, anyName d,
      (Rule.part .templateArguments).optional]
    let inner : R := .sequence [mark "::", (word "template").optional, innerName d,
      (Rule.part .templateArguments).optional]
    let computed : R := .sequence [word "decltype",
      inParens (.choice [word "auto", .part .expression])]
    .sequence [(word "typename").optional, .choice [
      .sequence [computed, .many inner],
      .sequence [(mark "::").optional, segment, .many inner]]]
  else anyName d

/-- The items between the braces of an enumeration. -/
def enumerators (d : Dialect) : R :=
  let enumerator : R := .node "enumerator" (.sequence [anyName d, .many attributes,
    .optional (.sequence [mark "=", .part .expression]), comma.optional])
  .node "enumerator_list"
    (inBraces (.many (.choice (enumerator :: directives d enumerator))))

/-- The classes that a class extends. -/
def baseClause : R :=
  .sequence [markNotBefore ":" ":",
    .sepBy comma (.sequence [.many (.choice [attributes,
      anyWord ["public", "private", "protected", "virtual"]]), .part .typeName,
      (mark "...").optional])]

/-- A structure, class, union or enumeration, named or with its members. -/
def composite (d : Dialect) : R :=
  let name : R := .role "name" (.part .typeName)
  let head : R := .many (.choice [attributes, .sequence [word "__declspec", arguments],
    .sequence [word "alignas", inParens (.choice [.part .expression, .part .descriptor])]])
  let members : R := .role "body" (.node "field_declaration_list"
    (inBraces (.many (.part .member))))
  .choice [
    .node "enum_specifier" (.sequence [word "enum",
      .sequence (d.only [(anyWord ["class", "struct"]).optional]), .many attributes,
      .choice [
        .sequence [name.optional,
          .optional (.sequence [markNotBefore ":" ":", .part .specifiers]), enumerators d,
          .many attributes],
        .sequence [name,
          .optional (.sequence [markNotBefore ":" ":", .part .specifiers])]]]),
    .node "class_specifier" (.sequence [anyWord (["struct", "union"] ++
        if d.classes then ["class"] else []),
      head,
      .choice (
        d.only [.sequence [name.optional, (word "final").optional, baseClause.optional,
          members]] ++
        [.sequence [name.optional, members, .many attributes], name])])]

/-- A type that no name of the program stands for. -/
def knownType (d : Dialect) : R :=
  .choice (
    [composite d,
      .sequence [.some (anyWord sizes), (anyWord primitives).optional, .many (anyWord sizes)],
      .node "primitive_type" (anyWord primitives),
      .sequence [anyWord ["typeof", "__typeof__", "__typeof", "typeof_unqual"],
        inParens (.choice [.part .expression, .part .descriptor])]] ++
    d.only [
      .sequence [word "decltype", mark "(", word "auto", mark ")"],
      .sequence [(Rule.sequence [anyName d, (Rule.part .templateArguments).optional]).optional,
        word "auto"]] ++
    (if d.classes then [] else [word "auto"]))

def specifiersRule (d : Dialect) : R :=
  .sequence [modifiers, .choice [knownType d, .part .typeName], modifiers]

/-! ### Declarators -/

def parametersRule (d : Dialect) : R :=
  let last : R := .ahead (.choice [comma, mark ")"])
  let value : R := .sequence [mark "=", .choice [.part .expression, .part .initializers]]
  let attributed : R := .many attributes
  .node "parameter_list" (inParens (.listOf comma (.choice (
    d.only [.sequence [word "this", .part .specifiers, .part (.declarator false), last]] ++
    [mark "...",
      .sequence [.part .specifiers, .part (.declarator false), attributed, last],
      .sequence [.part .specifiers, (Rule.part .abstract).optional, attributed, last]] ++
    d.only [
      .sequence [.part .specifiers, .part (.declarator false), value],
      .sequence [.part .specifiers, (Rule.part .abstract).optional, value]]))))

/-- The marks in front of a name through which a value is reached. -/
def reach (d : Dialect) : R :=
  .choice (
    [.sequence [mark "*", .many (.choice [qualifier, attributes])]] ++
    d.only [.sequence [.part .typeName, mark "::", mark "*", .many qualifier]])

def reference : R := .sequence [.choice [mark "&&", mark "&"], .many attributes]

/-- A requirement on the arguments of a template. -/
def requirement : R :=
  .sequence [word "requires",
    .sepBy (.choice [mark "&&", mark "||"]) (.sequence [(mark "!").optional, .choice [
      inParens (.part .expression),
      .sequence [word "requires", (Rule.part .parameters).optional, .part .block],
      .node "true" (word "true"), .node "false" (word "false"),
      .part .typeName]])]

/-- What may follow the parameters of a function. -/
def functionRemainder (d : Dialect) : R :=
  .sequence [
    .many (.choice (
      [attributes,
        .sequence [anyWord ["asm", "__asm__", "__asm"], arguments]] ++
      (if d.classes then
        [qualifier, mark "&&", mark "&",
          .sequence [word "noexcept", .optional (inParens (.part .expression))],
          .sequence [word "throw",
            inParens (.listOf comma (.part .descriptor))],
          anyWord ["override", "final"]]
      else
        [.node "call_expression" (.sequence [.role "function" (identifier d), arguments]),
          .sequence [anyName d, .absent (.part (.declarator false))]]))),
    .sequence (d.only [
      .optional (.sequence [mark "->", .part .descriptor]),
      requirement.optional])]

/-- The size of an array in a declarator. -/
def arraySize : R :=
  inBrackets (.sequence [.many (.choice [qualifier, word "static"]),
    .optional (.choice [.part .expression, mark "*"])])

/-- The name of an operator. -/
def operatorName : R :=
  .node "operator_name" (.sequence [word "operator", .choice [
    .sequence [mark "(", mark ")"], .sequence [mark "[", mark "]"],
    .sequence [anyWord ["new", "delete"], .optional (.sequence [mark "[", mark "]"])],
    word "co_await",
    .sequence [token (Scan.quoted '"'), token (Scan.nameStop isWordChar)],
    token (Scan.anyText (["->*", "<=>", "<<=", ">>=", "->", "++", "--", "&&", "||", "==", "!=",
      "<=", ">=", "<<", ">>", "+=", "-=", "*=", "/=", "%=", "^=", "&=", "|=", "+", "-", "*", "/",
      "%", "^", "&", "|", "~", "!", "=", "<", ">", ","].map String.toList))]])

/-- An operator that converts to a type. -/
def conversionName : R :=
  .node "operator_cast" (.sequence [
    .many (.sequence [.part .typeName, mark "::"]), word "operator", .part .specifiers,
    .many (.choice [.sequence [mark "*", .many qualifier], reference])])

def destructorName (d : Dialect) : R :=
  .node "destructor_name" (.sequence [mark "~", anyName d])

/-- A name with the arguments of a template, as a function that parameters follow. -/
def templateFunction (name next : R) : R :=
  .node "template_function" (.sequence [.node "identifier" name, .part .templateArguments,
    .ahead next])

/-- What shows that a name with angle brackets behind it has the arguments of a template. -/
def behindArguments : R :=
  .choice [mark "(", mark ")", leftBrace, comma, semicolon, mark "&&", mark "||", mark "==",
    mark "!=", mark "?", mark ":", mark "]", mark "...", mark ">"]

/-- A name inside a class or namespace. -/
def qualifiedRule (d : Dialect) : R :=
  .node "qualified_identifier" (.sequence [
    .optional (.sequence [
      .choice [
        .sequence [word "decltype", inParens (.part .expression)],
        .sequence [anyName d, (Rule.part .templateArguments).optional]]]),
    mark "::", (word "template").optional,
    .role "name" (.choice [
      .sequence [.absent (mark "::"), .part .qualified],
      destructorName d, operatorName,
      templateFunction (innerName d) (.choice [behindArguments, markNotBefore "=" "="]),
      .node "identifier" (innerName d)])])

def declaratorRule (d : Dialect) (members : Bool) : R :=
  let inner : R := .role "declarator" (.part (.declarator members))
  let plain : R := .fold
    (.choice (
      [.node "parenthesized_declarator" (inParens (.sequence [.many qualifier, inner]))] ++
      d.only [
        .part .qualified, operatorName, destructorName d,
        templateFunction (anyName d)
          (.choice [mark "(", markNotBefore "=" "=", semicolon, leftBrace])] ++
      [nameFor d members]))
    [(.link "function_declarator" "declarator" <| .sequence [.role "parameters" (.part .parameters),
        functionRemainder d]),
      (.link "array_declarator" "declarator" <| .sequence [.absent attributes, arraySize]),
      (.link "attributed_declarator" "declarator" attributes)]
  .choice (
    [.node "pointer_declarator" (.sequence [reach d, inner])] ++
    d.only [
      .node "reference_declarator" (.sequence [reference, inner]),
      .node "variadic_declarator" (.sequence [mark "...", inner.optional])] ++
    [.sequence [.many qualifier, plain]])

/-- A declarator without a name. -/
def abstractRule (d : Dialect) : R :=
  let further : R := (Rule.part .abstract).optional
  .choice (
    [.sequence [reach d, further]] ++
    d.only [.sequence [reference, further], mark "..."] ++
    [.sequence [inParens (.part .abstract), .many (.choice [.part .parameters, arraySize])],
      .sequence [.some (.choice [.sequence [.part .parameters, functionRemainder d], arraySize])]])

/-- A type as it stands in a cast or between angle brackets. -/
def descriptorRule : R :=
  .sequence [.part .specifiers, (Rule.part .abstract).optional]

/-- A type that cannot be read as an expression. -/
def surelyType (d : Dialect) : R :=
  let further : R := (Rule.part .abstract).optional
  .choice [
    .sequence [modifiers, knownType d, modifiers, further],
    .sequence [.some qualifier, .part .typeName, modifiers, further],
    .sequence [.part .typeName, .some qualifier, further],
    .sequence [.part .typeName, .some (reach d),
      .optional (.choice [reference, .some arraySize])],
    .sequence [.part .typeName, inParens (.some (reach d)), .part .parameters]]

end CodeAtlas.Grammar.C
