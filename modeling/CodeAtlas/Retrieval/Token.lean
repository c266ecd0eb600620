import CodeAtlas.Text.Pattern

/-!
# `CodeAtlas.Retrieval.Token`: file names in free text

Two kinds of text name files. In an issue, any path of a file of code is a name if a word ends
with it. In a query, a name stands between two backticks.
-/

set_option autoImplicit false

namespace CodeAtlas.Retrieval

open Text (Pattern SearchPattern)

/-- The extensions that file names in free text may have. -/
def codeExtensions : List (List Char) :=
  ["js", "jsx", "ts", "tsx", "mjs", "cjs", "py", "rs", "go", "java", "c", "h", "cpp",
    "hpp"].map String.toList

/-- A name made of characters of a class, a point, and an extension of code. -/
def namePattern (isMember : Char → Bool) : Pattern :=
  .seq (.run isMember) (.seq (.oneOf [['.']]) (.oneOf codeExtensions))

/-- The characters of paths in issues. -/
def isPathChar (c : Char) : Bool :=
  c.isAlphanum || c == '_' || c == '/' || c == '.' || c == '-'

/-- How an issue names a file. -/
def issuePattern : SearchPattern where
  pattern := .seq (.group (namePattern isPathChar)) .wordBoundary

/-- The mark around file names in queries. -/
def backtick : Char := Char.ofNat 96

/-- How a query names a file. -/
def keywordPattern : SearchPattern where
  pattern :=
    .seq (.oneOf [[backtick]])
      (.seq (.group (namePattern fun c => c != backtick)) (.oneOf [[backtick]]))

/-- A file name without any `./` at its front. -/
def withoutHere : List Char → List Char
  | '.' :: '/' :: rest => withoutHere rest
  | name => name

/-- The tokens of a text: the names found in it without any `./` at their fronts, as far as
something is left, each once. -/
def tokens (p : SearchPattern) (text : String) : List (List Char) :=
  (((p.search text.toList).map withoutHere).filter fun t => !t.isEmpty).eraseDups

/-- The tokens of an issue. -/
def issueTokens (text : String) : List (List Char) :=
  tokens issuePattern text

/-- The tokens of a query. -/
def keywordTokens (text : String) : List (List Char) :=
  tokens keywordPattern text

end CodeAtlas.Retrieval
