import CodeAtlas.Path.Basic
import CodeAtlas.Language.Specifier

/-!
# `CodeAtlas.Language.Basic`: the languages that are analyzed

The languages in their fixed order, with their names and with the file extensions that tell
them.
-/

set_option autoImplicit false

namespace CodeAtlas

/-- A language with a grammar. -/
inductive Language where
  | javaScript | jsx | typeScript | tsx | python | rust | go | java | c | cpp
deriving DecidableEq, Repr

namespace Language

/-- All languages in their fixed order. -/
def all : List Language :=
  [.javaScript, .jsx, .typeScript, .tsx, .python, .rust, .go, .java, .c, .cpp]

/-- The position of a language in the fixed order. -/
def ordinal (l : Language) : Nat :=
  all.idxOf l

/-- The name of a language, which is also the language tag of its files. -/
def name : Language → String
  | .javaScript => "javascript"
  | .jsx => "jsx"
  | .typeScript => "typescript"
  | .tsx => "tsx"
  | .python => "python"
  | .rust => "rust"
  | .go => "go"
  | .java => "java"
  | .c => "c"
  | .cpp => "cpp"

/-- The name of a language in documents. -/
def tag : Language → String
  | .javaScript => "java_script"
  | .typeScript => "type_script"
  | l => l.name

/-- The name of a language in descriptions. -/
def title : Language → String
  | .javaScript => "JavaScript"
  | .jsx => "Jsx"
  | .typeScript => "TypeScript"
  | .tsx => "Tsx"
  | .python => "Python"
  | .rust => "Rust"
  | .go => "Go"
  | .java => "Java"
  | .c => "C"
  | .cpp => "Cpp"

/-- A description of what is at hand for a language. -/
def describe (l : Language) : String :=
  "LanguageBundle \x7b language: " ++ l.title ++ ", .. \x7d"

/-- The language of files with a given extension; upper and lower case of the ASCII letters
are the same. -/
def ofExtension? (extension : String) : Option Language :=
  match extension.toLower with
  | "js" | "mjs" | "cjs" => some .javaScript
  | "jsx" => some .jsx
  | "ts" | "mts" | "cts" => some .typeScript
  | "tsx" => some .tsx
  | "py" => some .python
  | "rs" => some .rust
  | "go" => some .go
  | "java" => some .java
  | "c" | "h" => some .c
  | "cpp" | "cc" | "cxx" | "hpp" | "hh" => some .cpp
  | _ => none

/-- The language of the file at a path. -/
def ofPath? (path : Path) : Option Language :=
  path.extension?.bind fun extension => ofExtension? (String.ofList extension)

/-- How a language spells the specifiers of its imports. -/
def specifierStyle : Language → SpecifierStyle
  | .python => .dottedRelative
  | .java => .dotted
  | _ => .path

end Language

/-- The name of a spelling of specifiers. -/
def SpecifierStyle.name : SpecifierStyle → String
  | .path => "path"
  | .dotted => "dotted"
  | .dottedRelative => "dotted_relative"

end CodeAtlas
