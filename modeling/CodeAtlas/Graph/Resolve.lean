import CodeAtlas.FileId
import CodeAtlas.Text.Blank

/-!
# `CodeAtlas.Graph.Resolve`: from an import to a file

The file that an import means is guessed from the files that exist. The import's path is
followed from the directory of the importing file, and the first that exists wins of the path
itself, the path with one of the usual extensions, and an index file in the directory of that
path. Otherwise the first file in the order of ids is taken that has the same stem and whose
path overlaps with the import's.
-/

set_option autoImplicit false

namespace CodeAtlas

/-- A set of files, in the order of their ids. -/
structure FileSet where
  ids : List FileId
deriving DecidableEq, Repr

namespace FileSet

/-- Whether one id comes before another or is the same. -/
def notAfter (a b : FileId) : Bool :=
  !(b < a)

/-- A list without the elements that are equal to the one before them. -/
def dropRepeats : List FileId → List FileId
  | [] => []
  | [a] => [a]
  | a :: b :: rest => if a = b then dropRepeats (b :: rest) else a :: dropRepeats (b :: rest)

/-- The set of the ids in a list. -/
def ofList (ids : List FileId) : FileSet :=
  ⟨dropRepeats (ids.mergeSort notAfter)⟩

/-- Whether a file is in the set. -/
def contains (s : FileSet) (id : FileId) : Bool :=
  s.ids.contains id

end FileSet

namespace Resolve

/-- Extensions that an import may write although the file has another one. -/
def strippable : List (List Char) :=
  ["js", "jsx", "ts", "tsx", "mjs", "cjs", "py", "rs"].map String.toList

/-- What is put behind an import's path, in the order in which it is tried. -/
def endings : List (List Char) :=
  ["", ".js", ".jsx", ".ts", ".tsx", ".mjs", ".cjs", ".py", ".rs", ".go", ".java", ".h", ".hpp",
    ".c", ".cpp"].map String.toList

/-- The files that stand for a directory, in the order in which they are tried. -/
def indexNames : List (List Char) :=
  ["index.js", "index.ts", "index.jsx", "index.tsx", "__init__.py", "mod.rs"].map String.toList

/-- A text without its extension and the dot before it, if the extension fits a test. -/
def dropExtension (wanted : List Char → Bool) (cs : List Char) : List Char :=
  let ext := FileId.extensionChars cs
  if wanted ext then cs.take (cs.length - ext.length - 1) else cs

/-- An import's path without blanks around it and without an extension that can be stripped. -/
def clean (modulePath : List Char) : List Char :=
  dropExtension strippable.contains (Text.trim modulePath)

/-- An id without its extension. -/
def withoutExtension (id : List Char) : List Char :=
  dropExtension (· ≠ []) id

/-- A path without the `./` and `../` at its front. -/
def withoutClimbs : List Char → List Char
  | '.' :: '/' :: rest => withoutClimbs rest
  | '.' :: '.' :: '/' :: rest => withoutClimbs rest
  | cs => cs

/-- The ids that are tried for a path, in order. -/
def candidates (base : List Char) : List FileId :=
  (endings.map fun ending => String.ofList (base ++ ending)) ++
    indexNames.map fun name => String.ofList (base ++ '/' :: name)

/-- The first candidate that exists. -/
def direct? (cleaned : List Char) (importer : FileId) (files : FileSet) : Option FileId :=
  match FileId.joinChars? (FileId.parentChars importer.toList) cleaned with
  | none => none
  | some base => (candidates base).find? files.contains

/-- Whether a file may be meant by a path although its directory differs: the stems are equal,
and one path without extension occurs in the other. -/
def overlaps (cleaned : List Char) (id : FileId) : Bool :=
  let tail := withoutClimbs cleaned
  let bare := withoutExtension id.toList
  FileId.stemChars id.toList == FileId.stemChars cleaned &&
    (Text.occursIn tail bare || Text.occursIn bare tail)

/-- The first other file that may be meant by a path. -/
def byName? (cleaned : List Char) (importer : FileId) (files : FileSet) : Option FileId :=
  let stem := FileId.stemChars cleaned
  if stem = [] ∨ withoutClimbs cleaned = [] ∨ stem = ['.'] ∨ stem = ['.', '.'] then none
  else files.ids.find? fun id => id ≠ importer && overlaps cleaned id

/-- The file that an import of a path means, if any. -/
def resolve (modulePath : String) (importer : FileId) (files : FileSet) : Option FileId :=
  let cleaned := clean modulePath.toList
  if cleaned = [] then none
  else
    match direct? cleaned importer files with
    | some id => some id
    | none => byName? cleaned importer files

end Resolve

end CodeAtlas
