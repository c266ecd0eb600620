import CodeAtlas.Graph.Document
import CodeAtlas.Proofs.Analysis.Document

/-!
# `CodeAtlas.Proofs.Graph.Document`: the graph document is read back

`ProjectGraph.read_write`: what is read from the document of a graph is the graph, if its numbers
have at most 64 bits. Everything else of a graph is free: no id need be that of a node, a file's
node need not have a record, and a directory's may.
-/

set_option autoImplicit false

namespace CodeAtlas

open Json Json.Decoder

/-! ### Nodes -/

/-- The kind of a node is read back from its word. -/
theorem NodeKind.decode_gives (k : NodeKind) :
    (choice NodeKind.words).Gives (.ofString k.tag) k := by
  cases k <;> exact ⟨trivial, rfl⟩

/-- The record of a file is not told as `null`, so a node with a record and one without are told
apart. -/
theorem FileAnalysis.toJson_ne_null (f : FileAnalysis) : f.toJson ≠ .null :=
  Json.noConfusion

namespace GraphNode

/-- Whether the record of a node has numbers of 64 bits only. -/
def Fits (n : GraphNode) : Prop :=
  ∀ f ∈ n.file, f.Fits

/-- A node is read back if the numbers of its record have 64 bits. A node need not have a parent or
a record. -/
theorem decode_gives {n : GraphNode} (h : n.Fits) : decode.Gives n.toJson n := by
  have hparent := option_gives (f := Json.ofString) (fun _ => Json.noConfusion)
    fun id (_ : id ∈ n.parent) => string_gives id
  have hfile := option_gives FileAnalysis.toJson_ne_null
    fun f hf => FileAnalysis.decode_gives (h f hf)
  have hmakes := Makes.first "id" GraphNode.mk (string_gives n.id)
    |>.and "kind" n.kind.decode_gives
    |>.and "label" (string_gives n.label)
    |>.andNullable "parent" hparent
    |>.andNullable "file" hfile
  exact record_gives rfl (by decide) hmakes

end GraphNode

/-! ### Edges -/

/-- The kind of an edge is read back from its word. -/
theorem EdgeKind.decode_gives (k : EdgeKind) :
    (choice EdgeKind.words).Gives (.ofString k.tag) k := by
  cases k <;> exact ⟨trivial, rfl⟩

namespace EdgeMetadata

/-- Whether the lines of a call have 64 bits. -/
def Fits : EdgeMetadata → Prop
  | .importing _ => True
  | .calling _ line declarationLine _ _ => Has64Bits line ∧ Has64Bits declarationLine

/-- What an edge tells of itself is read back if the lines have 64 bits. A tag tells the two forms
apart, so it has to be read before the members. -/
theorem decode_gives {m : EdgeMetadata} (h : m.Fits) : decode.Gives m.toJson m := by
  cases m with
  | importing specifier =>
    have hmakes := Makes.first "specifier" EdgeMetadata.importing (string_gives specifier)
    exact tagged_gives rfl (by simp) hmakes.plain (record_gives rfl (by decide) hmakes)
  | calling name line declarationLine sourceAnchor declarationAnchor =>
    have hmakes := Makes.first "name" EdgeMetadata.calling (string_gives name)
      |>.and "line" (nat64_gives h.1)
      |>.and "declaration_line" (nat64_gives h.2)
      |>.and "source_anchor" (string_gives sourceAnchor)
      |>.and "declaration_anchor" (string_gives declarationAnchor)
    exact tagged_gives rfl (by simp) hmakes.plain (record_gives rfl (by decide) hmakes)

end EdgeMetadata

/-- An edge is read back if the lines that it tells of have 64 bits. -/
theorem GraphEdge.decode_gives {e : GraphEdge} (h : e.metadata.Fits) :
    GraphEdge.decode.Gives e.toJson e := by
  have hmakes := Makes.first "id" GraphEdge.mk (string_gives e.id)
    |>.and "source" (string_gives e.source)
    |>.and "target" (string_gives e.target)
    |>.and "kind" e.kind.decode_gives
    |>.and "metadata" (EdgeMetadata.decode_gives h)
  exact record_gives rfl (by decide) hmakes

/-! ### Graphs -/

namespace ProjectGraph

/-- Whether all numbers of a graph have 64 bits. -/
structure Fits (g : ProjectGraph) : Prop where
  nodes : ∀ n ∈ g.nodes, n.Fits
  edges : ∀ e ∈ g.edges, e.metadata.Fits

/-- A graph is read back if all its numbers have 64 bits. -/
theorem decode_gives {g : ProjectGraph} (h : g.Fits) : decode.Gives g.toJson g := by
  have hmakes := Makes.first "nodes" ProjectGraph.mk
      (list_gives fun n hn => GraphNode.decode_gives (h.nodes n hn))
    |>.and "edges" (list_gives fun e he => GraphEdge.decode_gives (h.edges e he))
  exact record_gives rfl (by decide) hmakes

/-- The document of a graph is read as the graph. -/
theorem read_write {g : ProjectGraph} (h : g.Fits) : read g.write = .ok g := by
  rw [read, write, Json.compactText, String.toList_ofList]
  exact ofText_compact_of_gives (decode_gives h)

end ProjectGraph

end CodeAtlas
