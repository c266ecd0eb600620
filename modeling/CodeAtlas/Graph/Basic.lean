import CodeAtlas.Analysis.Basic

/-!
# `CodeAtlas.Graph.Basic`: project graphs

The nodes of a project graph are the directories and files of a project, its edges the
imports and calls that link one file to another.
-/

set_option autoImplicit false

namespace CodeAtlas

/-- What a node stands for. -/
inductive NodeKind where
  | file
  | directory
deriving DecidableEq, Repr

/-- The word for a kind of node. -/
def NodeKind.tag : NodeKind → String
  | .file => "file"
  | .directory => "directory"

/-- What an edge stands for. -/
inductive EdgeKind where
  | importing
  | calling
deriving DecidableEq, Repr

/-- The word for a kind of edge. -/
def EdgeKind.tag : EdgeKind → String
  | .importing => "import"
  | .calling => "call"

/-- A directory or a file of a project. A file's record is kept with its node. -/
structure GraphNode where
  id : FileId
  kind : NodeKind
  label : String
  /-- The directory that holds it, unless it lies at the root. -/
  parent : Option FileId
  file : Option FileAnalysis
deriving DecidableEq, Repr

namespace GraphNode

/-- Whether a node stands for a file. -/
def isFile (n : GraphNode) : Bool :=
  n.kind = .file

/-- The chunks of a node's file. -/
def chunks (n : GraphNode) : List Chunk :=
  match n.file with
  | some f => f.chunks
  | none => []

/-- The language tag of a node's file; empty without one. -/
def language (n : GraphNode) : String :=
  match n.file with
  | some f => f.language
  | none => ""

end GraphNode

/-- What is known of an edge besides its ends. -/
inductive EdgeMetadata where
  /-- The specifier of an import. -/
  | importing (specifier : String)
  /-- A call and the declaration that it may reach, with names for the places of both. -/
  | calling (name : String) (line declarationLine : Nat)
      (sourceAnchor declarationAnchor : String)
deriving DecidableEq, Repr

/-- A link from one file to another. -/
structure GraphEdge where
  id : String
  source : FileId
  target : FileId
  kind : EdgeKind
  metadata : EdgeMetadata
deriving DecidableEq, Repr

/-- The graph of a project. -/
structure ProjectGraph where
  nodes : List GraphNode
  edges : List GraphEdge
deriving DecidableEq, Repr

namespace ProjectGraph

/-- The first node with an id. -/
def node? (g : ProjectGraph) (id : FileId) : Option GraphNode :=
  g.nodes.find? fun n => n.id = id

/-- The nodes that stand for files. -/
def fileNodes (g : ProjectGraph) : List GraphNode :=
  g.nodes.filter GraphNode.isFile

/-- The edges of a kind that start at a file. -/
def outgoing (g : ProjectGraph) (id : FileId) (kind : EdgeKind) : List GraphEdge :=
  g.edges.filter fun e => e.source = id && e.kind = kind

/-- The number of files. -/
def fileCount (g : ProjectGraph) : Nat :=
  g.fileNodes.length

end ProjectGraph

end CodeAtlas
