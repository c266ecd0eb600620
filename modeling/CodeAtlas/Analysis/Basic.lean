import CodeAtlas.FileId

/-!
# `CodeAtlas.Analysis.Basic`: what is known of a file

The record of one analyzed file: its chunks, the symbols it declares, the calls it makes and
the imports it asks for.
-/

set_option autoImplicit false

namespace CodeAtlas

/-- A stretch of a file's text. The offsets count bytes. -/
structure Chunk where
  fileId : FileId
  index : Nat
  text : String
  startByte : Nat
  endByte : Nat
deriving DecidableEq, Repr

/-- A declared name; lines count from 1. -/
structure Symbol where
  name : String
  fileId : FileId
  line : Nat
deriving DecidableEq, Repr

/-- A called name. -/
structure CallSite where
  name : String
  line : Nat
  fileId : FileId
deriving DecidableEq, Repr

/-- An import as written, before it is linked to a file. -/
structure RawImport where
  /-- The specifier as written, without its quotes. -/
  specifier : String
  /-- The specifier with slashes between its parts. -/
  modulePath : String
  fileId : FileId
  /-- The path that the specifier names if it is taken literally. -/
  candidate : Path
deriving DecidableEq, Repr

/-- The record of an analyzed file. -/
structure FileAnalysis where
  path : Path
  id : FileId
  language : String
  chunks : List Chunk
  symbols : List Symbol
  calls : List CallSite
  imports : List RawImport
  lineCount : Nat
  contentHash : String
  text : String
deriving DecidableEq, Repr

/-- A file as it is handed to the analysis. -/
structure SourceFile where
  path : Path
  id : FileId
  /-- The extension of the path, or `unknown`. -/
  language : String
  text : String
  lineCount : Nat
deriving DecidableEq, Repr

namespace SourceFile

/-- The language tag of an extension: the extension itself, or `unknown` if it is empty. -/
def tagOf (extension : List Char) : String :=
  if extension = [] then "unknown" else String.ofList extension

/-- The number of lines of a text, one more than it has line feeds. -/
def countLines (text : List Char) : Nat :=
  text.count '\n' + 1

/-- A file of a project. A path outside the project is its own id, with slashes for
backslashes. -/
def ofPath (root path : Path) (text : String) : SourceFile where
  path := path
  id := (FileId.ofPath? root path).getD
    (path.text.map fun c => if c = '\\' then '/' else c)
  language := tagOf (path.extension?.getD [])
  text := text
  lineCount := countLines text.toList

end SourceFile

end CodeAtlas
