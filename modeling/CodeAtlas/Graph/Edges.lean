import CodeAtlas.Diagnostic
import CodeAtlas.Graph.Basic
import CodeAtlas.Graph.Declarations
import CodeAtlas.Graph.Resolve

/-!
# `CodeAtlas.Graph.Edges`: how files are linked

An edge builder looks at the records of all files and proposes edges. There are two: one links
each import to the file that it means, and one links each call to every declaration of the
called name in another file.
-/

set_option autoImplicit false

namespace CodeAtlas

/-- What an edge builder sees. -/
structure EdgeContext where
  /-- The records of the files, in the order of their nodes. -/
  files : List FileAnalysis
  fileIds : FileSet

/-- What an edge builder proposes, and the problems it met. -/
structure EdgeBatch where
  edges : List GraphEdge
  diagnostics : List Diagnostic

/-- Proposes edges. -/
abbrev EdgeBuilder := EdgeContext → EdgeBatch

namespace EdgeBatch

/-- The batches of the elements of a list, one behind the other. -/
def collect {α : Type} (f : α → EdgeBatch) (xs : List α) : EdgeBatch :=
  ⟨xs.flatMap fun a => (f a).edges, xs.flatMap fun a => (f a).diagnostics⟩

end EdgeBatch

namespace EdgeBuilder

/-! ### Imports -/

/-- The edge of an import, the `index`th of its file, that means a file. -/
def importEdge (source target : FileId) (specifier : String) (index : Nat) : GraphEdge where
  id := "import-" ++ source ++ "-" ++ target ++ "-" ++ toString index
  source := source
  target := target
  kind := .importing
  metadata := .importing specifier

/-- The problem of an import that means no file. -/
def unresolved (source : FileId) (specifier : String) : Diagnostic :=
  ⟨.resolutionFailure, specifier, "no file matches import in " ++ source⟩

/-- The edge or the problem of an import. -/
def linkImport (ids : FileSet) (source : FileId) (i : RawImport) (index : Nat) : EdgeBatch :=
  match Resolve.resolve i.modulePath source ids with
  | some target => ⟨[importEdge source target i.specifier index], []⟩
  | none => ⟨[], [unresolved source i.specifier]⟩

/-- Links each import to the file that it means. -/
def imports : EdgeBuilder := fun ctx =>
  EdgeBatch.collect
    (fun file => EdgeBatch.collect (fun (i, index) => linkImport ctx.fileIds file.id i index)
      file.imports.zipIdx)
    ctx.files

/-! ### Calls -/

/-- The edge of a call, the `index`th of its file, to a declaration. -/
def callEdge (source : FileId) (call : CallSite) (index : Nat) (target : FileId) (line : Nat) :
    GraphEdge where
  id := "call-" ++ source ++ "-" ++ toString index ++ "-" ++ target ++ "-" ++ toString line
  source := source
  target := target
  kind := .calling
  metadata := .calling call.name call.line line
    ("call-" ++ call.name ++ "-line-" ++ toString call.line) (call.name ++ "-in")

/-- The edges of a call to the declarations of its name in other files. -/
def linkCall (all : DeclarationIndex) (source : FileId) (call : CallSite) (index : Nat) :
    List GraphEdge :=
  ((all.find call.name).filter fun d => d.file ≠ source).map fun d =>
    callEdge source call index d.file d.line

/-- Links each call to every declaration of its name in another file. -/
def calls : EdgeBuilder := fun ctx =>
  let all := DeclarationIndex.ofFiles ctx.files
  ⟨ctx.files.flatMap fun file =>
    file.calls.zipIdx.flatMap fun (call, index) => linkCall all file.id call index, []⟩

/-- The edge builders that are used unless others are asked for. -/
def standard : List EdgeBuilder := [imports, calls]

end EdgeBuilder

end CodeAtlas
