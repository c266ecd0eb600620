import CodeAtlas.Analysis.Document
import CodeAtlas.Graph.Basic

/-!
# `CodeAtlas.Graph.Document`: the graph document

How a project graph is written as JSON and read back. The document has the nodes and then the
edges; what is known of an edge is tagged with the kind of link it describes.
-/

set_option autoImplicit false

namespace CodeAtlas

open Json (Decoder)

def GraphNode.toJson (n : GraphNode) : Json :=
  .record [("id", .ofString n.id), ("kind", .ofString n.kind.tag), ("label", .ofString n.label),
    ("parent", .ofOption .ofString n.parent), ("file", .ofOption FileAnalysis.toJson n.file)]

/-- The words for the kinds of nodes. -/
def NodeKind.words : List (String × NodeKind) :=
  [NodeKind.file, .directory].map fun k => (k.tag, k)

def GraphNode.decode : Decoder GraphNode :=
  Decoder.record ["id", "kind", "label", "parent", "file"] fun fs =>
    GraphNode.mk <$> fs.required "id" Decoder.string
      <*> fs.required "kind" (Decoder.choice NodeKind.words)
      <*> fs.required "label" Decoder.string
      <*> fs.nullable "parent" Decoder.string <*> fs.nullable "file" FileAnalysis.decode

def EdgeMetadata.toJson : EdgeMetadata → Json
  | .importing specifier =>
    .record [("kind", .ofString EdgeKind.importing.tag), ("specifier", .ofString specifier)]
  | .calling name line declarationLine sourceAnchor declarationAnchor =>
    .record [("kind", .ofString EdgeKind.calling.tag), ("name", .ofString name),
      ("line", .ofNat line), ("declaration_line", .ofNat declarationLine),
      ("source_anchor", .ofString sourceAnchor),
      ("declaration_anchor", .ofString declarationAnchor)]

def EdgeMetadata.decode : Decoder EdgeMetadata :=
  Decoder.tagged "kind"
    [(EdgeKind.importing.tag,
        Decoder.record ["specifier"] fun fs =>
          EdgeMetadata.importing <$> fs.required "specifier" Decoder.string),
      (EdgeKind.calling.tag,
        Decoder.record ["name", "line", "declaration_line", "source_anchor",
            "declaration_anchor"] fun fs =>
          EdgeMetadata.calling <$> fs.required "name" Decoder.string
            <*> fs.required "line" Decoder.nat64 <*> fs.required "declaration_line" Decoder.nat64
            <*> fs.required "source_anchor" Decoder.string
            <*> fs.required "declaration_anchor" Decoder.string)]

/-- The words for the kinds of edges. -/
def EdgeKind.words : List (String × EdgeKind) :=
  [EdgeKind.importing, .calling].map fun k => (k.tag, k)

def GraphEdge.toJson (e : GraphEdge) : Json :=
  .record [("id", .ofString e.id), ("source", .ofString e.source), ("target", .ofString e.target),
    ("kind", .ofString e.kind.tag), ("metadata", e.metadata.toJson)]

def GraphEdge.decode : Decoder GraphEdge :=
  Decoder.record ["id", "source", "target", "kind", "metadata"] fun fs =>
    GraphEdge.mk <$> fs.required "id" Decoder.string <*> fs.required "source" Decoder.string
      <*> fs.required "target" Decoder.string
      <*> fs.required "kind" (Decoder.choice EdgeKind.words)
      <*> fs.required "metadata" EdgeMetadata.decode

def ProjectGraph.toJson (g : ProjectGraph) : Json :=
  .record [("nodes", .ofList GraphNode.toJson g.nodes), ("edges", .ofList GraphEdge.toJson g.edges)]

def ProjectGraph.decode : Decoder ProjectGraph :=
  Decoder.record ["nodes", "edges"] fun fs =>
    ProjectGraph.mk <$> fs.required "nodes" (Decoder.list GraphNode.decode)
      <*> fs.required "edges" (Decoder.list GraphEdge.decode)

/-- The text of a graph's document. -/
def ProjectGraph.write (g : ProjectGraph) : String :=
  g.toJson.compactText

/-- Reads a graph's document. -/
def ProjectGraph.read (text : String) : Except Json.Fault ProjectGraph :=
  Decoder.ofText ProjectGraph.decode text.toList

end CodeAtlas
