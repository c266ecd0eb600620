import CodeAtlas.Graph.Edges

/-!
# `CodeAtlas.Graph.Build`: the graph of a project

A project's graph has a node for each directory that holds files, in the order of their ids,
then one for each file, in the order in which the files are listed. A file without a record
of its own gets an empty one. The edges are those that the edge builders propose between
files of the graph.
-/

set_option autoImplicit false

namespace CodeAtlas

/-- A graph and the problems met in building it. -/
structure GraphBuild where
  graph : ProjectGraph
  diagnostics : List Diagnostic

namespace FileId

/-- What stands before the cut is shorter by the separator at least. -/
theorem length_cutLast {sep : Char} {cs before behind : List Char}
    (h : Text.cutLast sep cs = some (before, behind)) : before.length < cs.length := by
  induction cs generalizing before with
  | nil => simp [Text.cutLast] at h
  | cons c rest ih =>
    unfold Text.cutLast at h
    split at h
    · rename_i b e hrest
      simp only [Option.some.injEq, Prod.mk.injEq] at h
      obtain ⟨rfl, rfl⟩ := h
      simpa using ih hrest
    · split at h
      · simp only [Option.some.injEq, Prod.mk.injEq] at h
        obtain ⟨rfl, _⟩ := h
        simp
      · exact absurd h (by simp)

/-- So the chain of parents ends, and `ancestors` may recurse along it. -/
theorem length_parentChars {id : List Char} (h : parentChars id ≠ []) :
    (parentChars id).length < id.length := by
  unfold parentChars at h ⊢
  split
  · rename_i dir name hcut
    exact length_cutLast hcut
  · rename_i hcut
    simp [hcut] at h

/-- The directories that hold a file, the nearest first. -/
def ancestors (id : List Char) : List (List Char) :=
  if _h : parentChars id = [] then [] else parentChars id :: ancestors (parentChars id)
termination_by id.length
decreasing_by exact length_parentChars _h

/-- The parent of an id, unless it lies at the root. -/
def parent? (id : FileId) : Option FileId :=
  if id.parent = "" then none else some id.parent

end FileId

namespace GraphBuild

/-- The record of a file that was not analyzed. -/
def placeholder (path : Path) (id : FileId) : FileAnalysis where
  path := path
  id := id
  language := SourceFile.tagOf (FileId.extensionChars id.toList)
  chunks := []
  symbols := []
  calls := []
  imports := []
  lineCount := 0
  contentHash := ""
  text := ""

/-- A file of a project, by its id and the path that it was listed with. -/
structure Listed where
  id : FileId
  path : Path

/-- The files inside a project, each with its id. -/
def inside (root : Path) (files : List Path) : List Listed :=
  files.filterMap fun path => (FileId.ofPath? root path).map fun id => ⟨id, path⟩

/-- The problems of the paths outside a project. -/
def outside (root : Path) (files : List Path) : List Diagnostic :=
  files.filterMap fun path =>
    match FileId.ofPath? root path with
    | some _ => none
    | none => some ⟨.resolutionFailure, path.text, "file is outside the project root"⟩

/-- The files with the ids that did not occur before. -/
def distinct (seen : List FileId) : List Listed → List Listed
  | [] => []
  | f :: rest =>
    if seen.contains f.id then distinct seen rest else f :: distinct (f.id :: seen) rest

/-- The record of a file: the first analysis with its id, or an empty record. -/
def recordOf (analyses : List FileAnalysis) (f : Listed) : FileAnalysis :=
  (analyses.find? fun a => a.id = f.id).getD (placeholder f.path f.id)

/-- The node of a file. -/
def fileNode (analyses : List FileAnalysis) (f : Listed) : GraphNode :=
  ⟨f.id, .file, f.id.name, f.id.parent?, some (recordOf analyses f)⟩

/-- The node of a directory. -/
def directoryNode (id : FileId) : GraphNode :=
  ⟨id, .directory, id.name, id.parent?, none⟩

/-- The directories that hold files, in the order of their ids. -/
def directories (files : List Listed) : List FileId :=
  (FileSet.ofList (files.flatMap fun f =>
    (FileId.ancestors f.id.toList).map String.ofList)).ids

/-- Whether an edge may stay: both of its ends are files, and a call leads to another file. -/
def keeps (ids : FileSet) (e : GraphEdge) : Bool :=
  ids.contains e.source && ids.contains e.target && !(e.kind = .calling && e.source = e.target)

/-- The graph of the files of a project with the edges of given builders. -/
def build (builders : List EdgeBuilder) (root : Path) (analyses : List FileAnalysis)
    (files : List Path) : GraphBuild :=
  let listed := distinct [] (inside root files)
  let fileNodes := listed.map (fileNode analyses)
  let ids := FileSet.ofList (listed.map Listed.id)
  let batch := EdgeBatch.collect (fun builder => builder ⟨fileNodes.filterMap GraphNode.file, ids⟩)
    builders
  { graph :=
      { nodes := (directories listed).map directoryNode ++ fileNodes
        edges := batch.edges.filter (keeps ids) }
    diagnostics := outside root files ++ batch.diagnostics }

end GraphBuild

/-- The graph of the files of a project, linked by imports and calls. -/
def buildGraph (root : Path) (analyses : List FileAnalysis) (files : List Path) : GraphBuild :=
  GraphBuild.build EdgeBuilder.standard root analyses files

end CodeAtlas
