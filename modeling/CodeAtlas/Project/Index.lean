import CodeAtlas.Analysis.Analyzer
import CodeAtlas.Graph.Build
import CodeAtlas.Project.Data
import CodeAtlas.Project.Scan
import CodeAtlas.Vector.Build

/-!
# `CodeAtlas.Project.Index`: the index of a project

An index pass finds the files of a project, analyzes them, links them to a graph and writes the
graph. With an embedder it also makes the vectors of all chunks and writes them in the place of
those that were there.

What a pass uses and is not its own, the patterns of names and the readers of languages, it is given
(`IndexTools`). A program that says nothing else works with those of this library.
-/

set_option autoImplicit false

namespace CodeAtlas

/-! ### Progress -/

/-- A part of the work. -/
inductive IndexPhase where
  | scanning
  | analyzing
  | linking
  | embedding
  | storing
deriving DecidableEq, Repr

/-- The word for a part of the work. -/
def IndexPhase.tag : IndexPhase → String
  | .scanning => "scanning"
  | .analyzing => "analyzing"
  | .linking => "linking"
  | .embedding => "embedding"
  | .storing => "storing"

/-- How far the work has come. -/
structure IndexProgress where
  phase : IndexPhase
  current : Nat
  total : Nat
  file : Option FileId
deriving DecidableEq, Repr

/-- The steps of a part of the work, each with the file that it concerned. -/
def IndexProgress.steps (phase : IndexPhase) (files : List (Option FileId)) :
    List IndexProgress :=
  files.mapIdx fun i file => ⟨phase, i + 1, files.length, file⟩

/-! ### Analysis -/

/-- What an index pass is done with. -/
structure IndexTools where
  /-- The toolkit of each language. -/
  kits : Language → Toolkit
  /-- The patterns that tell which files are wanted. -/
  globs : GlobLibrary

/-- The tools of this library. -/
def IndexTools.standard : IndexTools :=
  ⟨Language.toolkit, .standard⟩

/-- The records of the files of a project, and what went wrong with them. -/
structure ProjectAnalysis where
  analyses : List FileAnalysis
  diagnostics : List Diagnostic
deriving DecidableEq, Repr

namespace ProjectAnalysis

/-- What becomes of one file. -/
inductive FileOutcome where
  | analyzed (outcome : AnalysisOutcome)
  /-- The file is larger than the configuration admits. -/
  | oversized
  | unreadable (fault : FileFault)

/-- The record of what becomes of the file, if it has one. -/
def FileOutcome.analysis? : FileOutcome → Option FileAnalysis
  | .analyzed outcome => some outcome.analysis
  | _ => none

/-- What went wrong with the file with a given name. -/
def FileOutcome.diagnostics (subject : String) : FileOutcome → List Diagnostic
  | .analyzed outcome => outcome.diagnostics
  | .oversized => []
  | .unreadable fault => [⟨.parseFailure, subject, "unreadable: " ++ fault.message⟩]

/-- What becomes of the file at a path. Its size is looked at first, so a file that is too large is
not reported even if it cannot be read. -/
def outcomeOf (t : FileTree) (root : Path) (c : ProjectConfig) (kits : Language → Toolkit)
    (path : Path) : FileOutcome :=
  if c.maxFileSize < t.byteSize path then .oversized
  else
    match t.text path with
    | .ok text => .analyzed (Analyzer.analyze c.chunkSize root path text kits)
    | .error fault => .unreadable fault

/-- The name of a file in diagnostics: its id, or its path outside the project. -/
def subject (root path : Path) : String :=
  (FileId.ofPath? root path).getD path.text

/-- Analyzes the files at given paths. -/
def ofFiles (t : FileTree) (root : Path) (c : ProjectConfig) (files : List Path)
    (kits : Language → Toolkit := Language.toolkit) : ProjectAnalysis :=
  let outcomes := files.map fun path => (path, outcomeOf t root c kits path)
  { analyses := outcomes.filterMap fun (_, o) => o.analysis?
    diagnostics := outcomes.flatMap fun (path, o) => o.diagnostics (subject root path) }

/-- The progress of the analysis of the files at given paths. -/
def progress (root : Path) (files : List Path) : List IndexProgress :=
  IndexProgress.steps .analyzing (files.map fun path => FileId.ofPath? root path)

end ProjectAnalysis

/-! ### The index pass -/

/-- What an index pass has done. -/
structure IndexReport where
  filesScanned : Nat
  filesAnalyzed : Nat
  nodesCreated : Nat
  edgesCreated : Nat
  chunksCreated : Nat
  /-- The number of vectors written, if there was an embedder. -/
  embeddingsStored : Option Nat
  diagnostics : List Diagnostic
deriving DecidableEq, Repr

/-- An index pass: what it has done or why it failed, its progress, and the tree behind it. -/
structure IndexPass where
  result : Except DataFault IndexReport
  progress : List IndexProgress
  tree : FileTree

namespace IndexPass

/-- What an index pass finds out before it writes anything. -/
structure Findings where
  files : List Path
  project : ProjectAnalysis
  built : GraphBuild

/-- Finds the files of a project, analyzes and links them. -/
def find (t : FileTree) (root : Path) (c : ProjectConfig) (tools : IndexTools) :
    Except FileFault Findings := do
  let files ← Scan.files t (.ofConfig c tools.globs) root
  let project := ProjectAnalysis.ofFiles t root c files tools.kits
  return ⟨files, project, buildGraph root project.analyses files⟩

namespace Findings

/-- The number of chunks of all files. -/
def chunkCount (f : Findings) : Nat :=
  (f.project.analyses.flatMap FileAnalysis.chunks).length

/-- The progress until the graph is written. -/
def progress (f : Findings) (root : Path) : List IndexProgress :=
  [⟨.scanning, f.files.length, f.files.length, none⟩] ++
    ProjectAnalysis.progress root f.files ++
    [⟨.linking, 0, f.project.analyses.length, none⟩, ⟨.storing, 0, 1, none⟩]

/-- The report of a pass that also wrote vectors, or did not, with the problems of that. -/
def report (f : Findings) (stored : Option Nat) (diagnostics : List Diagnostic) : IndexReport where
  filesScanned := f.files.length
  filesAnalyzed := f.project.analyses.length
  nodesCreated := f.built.graph.nodes.length
  edgesCreated := f.built.graph.edges.length
  chunksCreated := f.chunkCount
  embeddingsStored := stored
  diagnostics := f.project.diagnostics ++ f.built.diagnostics ++ diagnostics

end Findings

/-- The progress of making vectors. -/
def embeddingProgress (analyses : List FileAnalysis) : List IndexProgress :=
  IndexProgress.steps .embedding ((StoreBuild.progress analyses).map fun _ => none)

/-- Makes and writes the vectors of what was found. -/
def embed (f : Findings) (root : Path) (embedder : Embedder) (before : List IndexProgress)
    (t : FileTree) : IndexPass :=
  let b := StoreBuild.build f.project.analyses embedder
  let progress := before ++ embeddingProgress f.project.analyses
  match (FileTree.replaceVectors root b.store embedder.model).apply t with
  | (.error fault, t) => ⟨.error fault, progress, t⟩
  | (.ok stored, t) => ⟨.ok (f.report (some stored) b.diagnostics), progress, t⟩

/-- Indexes a project. -/
def run (t : FileTree) (root : Path) (c : ProjectConfig) (embedder? : Option Embedder)
    (tools : IndexTools := .standard) : IndexPass :=
  match find t root c tools with
  | .error fault => ⟨.error (.file fault), [], t⟩
  | .ok f =>
    let progress := f.progress root
    match (FileTree.saveGraph root f.built.graph).apply t with
    | (.error fault, t) => ⟨.error fault, progress, t⟩
    | (.ok (), t) =>
      match embedder? with
      | none => ⟨.ok (f.report none []), progress, t⟩
      | some embedder => embed f root embedder progress t

end IndexPass

end CodeAtlas
