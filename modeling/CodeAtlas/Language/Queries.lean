import CodeAtlas.Language.Basic

/-!
# `CodeAtlas.Language.Queries`: what is looked for in a syntax tree

For each language three structural queries: one for the names that it declares, one for the
imports, one for the names that it calls. A declared or called name is kept as `name`, the
text of an import as `path`.
-/

set_option autoImplicit false

namespace CodeAtlas.Language

/-- Declarations: named functions, variables that hold a function, and methods. -/
def javaScriptSymbols : String := "
(function_declaration name: (identifier) @name)
(generator_function_declaration name: (identifier) @name)
(variable_declarator
    name: (identifier) @name
    value: [(arrow_function) (function_expression)])
(method_definition name: (property_identifier) @name)
"

/-- Declarations of a dialect with types. -/
def typeScriptSymbols : String := "
(function_declaration name: (identifier) @name)
(variable_declarator
    name: (identifier) @name
    value: [(arrow_function) (function_expression)])
(method_definition name: (property_identifier) @name)
"

/-- The sources of imports and exports, and the texts that `require` is called with. -/
def javaScriptImports : String := "
(import_statement source: (string) @path)
(export_statement source: (string) @path)
(call_expression
    function: (identifier) @_fn
    arguments: (arguments (string) @path)
    (#eq? @_fn \"require\"))
"

/-- Called names and called properties. -/
def javaScriptCalls : String := "
(call_expression function: (identifier) @name)
(call_expression
    function: (member_expression property: (property_identifier) @name))
"

/-- Functions. -/
def pythonSymbols : String := "
(function_definition name: (identifier) @name)
"

/-- Imported modules. -/
def pythonImports : String := "
(import_statement name: (dotted_name) @path)
(import_from_statement module_name: (dotted_name) @path)
(import_from_statement module_name: (relative_import) @path)
"

/-- Called names and called attributes. -/
def pythonCalls : String := "
(call function: (identifier) @name)
(call function: (attribute attribute: (identifier) @name))
"

/-- Functions with a body. -/
def rustSymbols : String := "
(function_item name: (identifier) @name)
"

/-- Modules that are declared without a body. -/
def rustImports : String := "
(mod_item name: (identifier) @path !body)
"

/-- Called names, called names behind a path, and called methods. -/
def rustCalls : String := "
(call_expression function: (identifier) @name)
(call_expression function: (scoped_identifier name: (identifier) @name))
(call_expression function: (field_expression field: (field_identifier) @name))
"

/-- Functions and methods. -/
def goSymbols : String := "
(function_declaration name: (identifier) @name)
(method_declaration name: (field_identifier) @name)
"

/-- Import paths between double quotes. -/
def goImports : String := "
(import_spec path: (interpreted_string_literal) @path)
"

/-- Called names and called fields. -/
def goCalls : String := "
(call_expression function: (identifier) @name)
(call_expression function: (selector_expression field: (field_identifier) @name))
"

/-- Methods and constructors. -/
def javaSymbols : String := "
(method_declaration name: (identifier) @name)
(constructor_declaration name: (identifier) @name)
"

/-- Imported names with at least one dot. -/
def javaImports : String := "
(import_declaration (scoped_identifier) @path)
"

/-- Called methods. -/
def javaCalls : String := "
(method_invocation name: (identifier) @name)
"

/-- Functions that return no pointer. -/
def cSymbols : String := "
(function_definition
    declarator: (function_declarator declarator: (identifier) @name))
"

/-- Functions, plain or with one qualified name, that return neither pointer nor reference. -/
def cppSymbols : String := "
(function_definition
    declarator: (function_declarator declarator: (identifier) @name))
(function_definition
    declarator: (function_declarator
        declarator: (qualified_identifier name: (identifier) @name)))
"

/-- Headers between double quotes. -/
def cImports : String := "
(preproc_include path: (string_literal) @path)
"

/-- Called names. -/
def cCalls : String := "
(call_expression function: (identifier) @name)
"

/-- The texts of a language's three queries. -/
structure QueryTexts where
  symbols : String
  imports : String
  calls : String
deriving DecidableEq, Repr

/-- The queries of a language. -/
def queryTexts : Language → QueryTexts
  | .javaScript | .jsx => ⟨javaScriptSymbols, javaScriptImports, javaScriptCalls⟩
  | .typeScript | .tsx => ⟨typeScriptSymbols, javaScriptImports, javaScriptCalls⟩
  | .python => ⟨pythonSymbols, pythonImports, pythonCalls⟩
  | .rust => ⟨rustSymbols, rustImports, rustCalls⟩
  | .go => ⟨goSymbols, goImports, goCalls⟩
  | .java => ⟨javaSymbols, javaImports, javaCalls⟩
  | .c => ⟨cSymbols, cImports, cCalls⟩
  | .cpp => ⟨cppSymbols, cImports, cCalls⟩

end CodeAtlas.Language
