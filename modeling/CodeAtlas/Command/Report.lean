import CodeAtlas.Project.Index
import CodeAtlas.Retrieval.Context

/-!
# `CodeAtlas.Command.Report`: what the command line prints

The lines that tell of an index pass, of the state of an index, and of what was found.
-/

set_option autoImplicit false

namespace CodeAtlas

namespace Report

/-- Lines, each with a line break behind it. -/
def lines (ls : List String) : String :=
  String.join (ls.map (· ++ "\n"))

/-- A text with spaces behind it up to a width. -/
def padRight (width : Nat) (text : List Char) : List Char :=
  text ++ List.replicate (width - text.length) ' '

/-- A text with spaces before it up to a width. -/
def padLeft (width : Nat) (text : List Char) : List Char :=
  List.replicate (width - text.length) ' ' ++ text

/-! ### Index passes -/

/-- The kinds of diagnostics in the order of their names. -/
def kinds : List DiagnosticKind :=
  [.embeddingFailure, .parseFailure, .resolutionFailure, .retrievalInputError]

/-- How many diagnostics there are of each kind, and all of them if that is wanted. -/
def diagnosticLines (diagnostics : List Diagnostic) (verbose : Bool) : List String :=
  if diagnostics = [] then []
  else
    let counts := kinds.filterMap fun k =>
      let n := (diagnostics.filter fun d => d.kind = k).length
      if n = 0 then none else some ("  " ++ k.title ++ ": " ++ toString n)
    let each := diagnostics.map fun d =>
      "  - [" ++ d.kind.title ++ "] " ++ d.subject ++ ": " ++ d.message
    "Diagnostics:" :: counts ++ if verbose then each else []

/-- The lines about an index pass that took some milliseconds. -/
def indexLines (r : IndexReport) (verbose : Bool) (elapsed : Nat) : List String :=
  ["Scanned " ++ toString r.filesScanned ++ " files, analyzed " ++ toString r.filesAnalyzed,
    "Created " ++ toString r.nodesCreated ++ " nodes, " ++ toString r.edgesCreated ++
      " edges, " ++ toString r.chunksCreated ++ " chunks",
    match r.embeddingsStored with
    | some n => "Stored " ++ toString n ++ " embeddings"
    | none => "Embeddings skipped"] ++
    diagnosticLines r.diagnostics verbose ++
    ["Completed in " ++ toString elapsed ++ "ms"]

/-! ### The state of an index -/

/-- The line about a graph, or about what stands in the way of one. -/
def graphLine : Except DataFault (Option ProjectGraph) → String
  | .ok (some g) =>
    "Graph:    " ++ toString g.fileCount ++ " files, " ++ toString g.nodes.length ++
      " nodes, " ++ toString g.edges.length ++ " edges"
  | .ok none => "Graph:    not built. Run `repolens index`."
  | .error f => "Graph:    unreadable (" ++ f.message ++ ")"

/-- The files that have vectors but no node in a graph. -/
def staleFiles (table : VectorTable) (g : ProjectGraph) : List FileId :=
  table.fileIds.filter fun id => (g.node? id).isNone

/-- The lines about a table that takes some bytes, for a project with a given configuration. -/
def tableLines (table : VectorTable) (size : Nat) (config? : Option ProjectConfig) :
    List String :=
  let model := table.model?.getD "-"
  ("Vectors:  " ++ toString table.count ++ " (" ++ model ++ ", " ++ toString size ++ " bytes)") ::
    match config? with
    | some c =>
      if 0 < table.count && model ≠ c.embedding.model then
        ["          built with a different model than `" ++ c.embedding.model ++
          "`. Run `repolens index`."]
      else []
    | none => []

/-- The line about files that have vectors but are gone. -/
def staleLines (table : VectorTable) (g : ProjectGraph) : List String :=
  let stale := (staleFiles table g).length
  if stale = 0 then []
  else
    ["          " ++ toString stale ++
      " embedded files are no longer in the graph. Run `repolens index`."]

/-! ### What was found -/

/-- The first line of a text. -/
def firstLine (text : List Char) : List Char :=
  let line := text.takeWhile (· ≠ '\n')
  if line.length < text.length && line.getLast? = some '\r' then line.dropLast else line

/-- One hundred. -/
def hundred : Single := ⟨0x42c80000⟩

/-- The line about a match. -/
def matchLine (m : RetrievalMatch) : String :=
  String.ofList ("  #".toList ++ padRight 3 (Nat.toDigits 10 m.chunkIndex) ++ ' ' ::
    padRight 13 m.method.tag.toList ++ ' ' :: padLeft 4 ((m.similarity.mul hundred).fixed 0) ++
    "%  ".toList ++ firstLine m.text.toList)

/-- The lines about everything that was found for a question. -/
def resultLines (text : String) (r : Retrieval) : List String :=
  if r.isEmpty then ["No results found for \"" ++ text ++ "\""]
  else
    ("Results for \"" ++ text ++ "\":") :: "" ::
      r.files.flatMap fun f => f.fileId :: f.found.map matchLine ++ [""]

/-- A retrieval as a document. -/
def document (r : Retrieval) : Json :=
  .record [("files", .ofList FileMatches.toJson r.files),
    ("diagnostics", .ofList Diagnostic.toJson r.diagnostics)]

end Report

end CodeAtlas
