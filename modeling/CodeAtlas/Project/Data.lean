import CodeAtlas.Files.Tree
import CodeAtlas.Graph.Document
import CodeAtlas.Project.Config
import CodeAtlas.Project.Layout

/-!
# `CodeAtlas.Project.Data`: what is kept of a project

The configuration and the graph are documents, the vectors a table. What was never written is
read as the configuration of a new project, no graph, and an empty table.
-/

set_option autoImplicit false

namespace CodeAtlas

/-- Why something that is kept cannot be read or written. -/
inductive DataFault where
  | file (fault : FileFault)
  | document (fault : Json.Fault)
  /-- A configuration has chunks of no size. -/
  | zeroChunkSize
  | row (fault : RowFault)
  /-- The file of the table holds something else. -/
  | noTable
  /-- The path of the table leads to no file. -/
  | noTableFile (path : Path)
deriving DecidableEq, Repr

namespace DataFault

/-- The word for the kind of a fault. -/
def kind : DataFault → String
  | .file f => f.kind
  | .document _ | .zeroChunkSize => "InvalidData"
  | .row _ | .noTable | .noTableFile _ => "Other"

/-- The message a command fails with. -/
def message : DataFault → String
  | .file f => f.message
  | .document f => f.message
  | .zeroChunkSize => "chunk_size must be greater than zero"
  | .row f => f.message
  | .noTable => "file is not a database"
  | .noTableFile path => "unable to open database file: " ++ path.text

end DataFault

/-- A change of a tree that may fail; what was changed before a failure stays. -/
abbrev TreeChange (α : Type) := ExceptT DataFault (StateM FileTree) α

namespace TreeChange

/-- Replaces the tree, or fails and leaves it. -/
def update (f : FileTree → Except FileFault FileTree) : TreeChange Unit := fun t =>
  match f t with
  | .ok t => (.ok (), t)
  | .error fault => (.error (.file fault), t)

/-- What a change gives, and the tree behind it. -/
def apply {α : Type} (change : TreeChange α) (t : FileTree) : Except DataFault α × FileTree :=
  change.run.run t

end TreeChange

namespace FileTree

/-- The value that a document holds; none if there is no document. -/
def document? {α : Type} (t : FileTree) (p : Path) (read : String → Except Json.Fault α) :
    Except DataFault (Option α) :=
  if t.contains p then
    match t.text p with
    | .error f => .error (.file f)
    | .ok text =>
      match read text with
      | .error f => .error (.document f)
      | .ok a => .ok (some a)
  else .ok none

/-- Writes a document of a project; the directory of its data is made if it is not there. -/
def writeDocument (root p : Path) (text : String) : TreeChange Unit := do
  TreeChange.update fun t => t.makeDirectories (Layout.dataDirectory root)
  TreeChange.update fun t => t.write p (.ofText text)

/-! ### Configuration and graph -/

/-- The configuration of a project. -/
def loadConfig (t : FileTree) (root : Path) : Except DataFault ProjectConfig := do
  match ← t.document? (Layout.configFile root) (ProjectConfig.read root) with
  | none => return .standard root
  | some c => if c.chunkSize = 0 then .error .zeroChunkSize else return c

/-- Writes the configuration of a project. -/
def saveConfig (root : Path) (c : ProjectConfig) : TreeChange Unit :=
  writeDocument root (Layout.configFile root) c.write

/-- The graph of a project, if one was written. -/
def loadGraph (t : FileTree) (root : Path) : Except DataFault (Option ProjectGraph) :=
  t.document? (Layout.graphFile root) ProjectGraph.read

/-- Writes the graph of a project. -/
def saveGraph (root : Path) (g : ProjectGraph) : TreeChange Unit :=
  writeDocument root (Layout.graphFile root) g.write

/-! ### The table of vectors -/

/-- The table in the file at a path; an empty file is an empty table. -/
def tableAt (t : FileTree) (p : Path) : Except DataFault (Option VectorTable) :=
  match t.locate true p with
  | .ok (.free _) => .ok none
  | .ok (.found _ (.file (.table rows))) => .ok (some rows)
  | .ok (.found _ (.file (.bytes data))) => if data.isEmpty then .ok none else .error .noTable
  | _ => .error (.noTableFile p)

/-- The table of a project. It is made if it is not there. -/
def openTable (root : Path) : TreeChange VectorTable := do
  TreeChange.update fun t => t.makeDirectories (Layout.dataDirectory root)
  let p := Layout.tableFile root
  match (← get).tableAt p with
  | .error f => throw f
  | .ok (some rows) => return rows
  | .ok none =>
    TreeChange.update fun t => t.write p (.table .empty)
    return .empty

/-- Replaces the vectors of a project; gives the number of those written. -/
def replaceVectors (root : Path) (store : VectorStore) (model : String) : TreeChange Nat := do
  let table ← openTable root
  match table.replace store model with
  | (.error f, _) => throw (.row f)
  | (.ok n, written) =>
    TreeChange.update fun t => t.write (Layout.tableFile root) (.table written)
    return n

end FileTree

end CodeAtlas
