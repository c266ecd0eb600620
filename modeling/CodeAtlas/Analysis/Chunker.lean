import CodeAtlas.Analysis.Basic
import CodeAtlas.Text.Blank
import CodeAtlas.Text.Utf8

/-!
# `CodeAtlas.Analysis.Chunker`: cutting a text into chunks

The ranges of the top-level nodes of a text are packed greedily into groups that span at most
a given number of bytes, the gaps between the nodes included. A node is never split: one that
is larger than the limit makes a group of its own. Each group's text is trimmed and becomes a
chunk unless it is blank.
-/

set_option autoImplicit false

namespace CodeAtlas.Chunker

/-- The number of bytes that a chunk may have unless configured otherwise. -/
def defaultSize : Nat := 2000

/-- A range of bytes. -/
structure Span where
  start : Nat
  stop : Nat
deriving DecidableEq, Repr

/-- A group of nodes in the making: its span and the size counted for it so far. -/
structure Group where
  span : Span
  size : Nat

/-- The group of a single node. -/
def Group.single (node : Span) : Group :=
  ⟨node, node.stop - node.start⟩

/-- The size of a group with one more node, the gap before the node included. -/
def Group.sizeWith (g : Group) (node : Span) : Nat :=
  g.size + (node.start - g.span.stop) + (node.stop - node.start)

/-- A group with one more node. -/
def Group.extend (g : Group) (node : Span) : Group :=
  ⟨⟨g.span.start, max node.stop g.span.stop⟩, g.sizeWith node⟩

/-- The spans of the groups into which nodes are packed behind a group in the making. -/
def packFrom (limit : Nat) (g : Group) : List Span → List Span
  | [] => [g.span]
  | node :: rest =>
    if limit < g.sizeWith node then g.span :: packFrom limit (Group.single node) rest
    else packFrom limit (g.extend node) rest

/-- The spans of the groups into which nodes are packed. -/
def pack (limit : Nat) : List Span → List Span
  | [] => []
  | node :: rest => packFrom limit (Group.single node) rest

/-- The trimmed text of a span with the offset where it starts. There is none if the span does
not lie on character boundaries or holds only blanks. -/
def trimmed? (source : List Char) (span : Span) : Option (Nat × List Char) :=
  match Text.slice? source span.start span.stop with
  | none => none
  | some raw =>
    let text := Text.trim raw
    if text = [] then none
    else some (span.start + (Text.byteSize raw - Text.byteSize (Text.trimStart raw)), text)

/-- The chunk with a given index. -/
def toChunk (fileId : FileId) (index : Nat) (found : Nat × List Char) : Chunk :=
  ⟨fileId, index, String.ofList found.2, found.1, found.1 + Text.byteSize found.2⟩

/-- Whether a text holds only blanks. -/
def isBlank (source : List Char) : Bool :=
  source.all Text.isBlank

/-- The spans whose trimmed texts are the chunks: the whole text if it keeps within the
limit, and the groups of its nodes otherwise. -/
def spans (limit : Nat) (source : List Char) (nodes : List Span) : List Span :=
  if isBlank source then []
  else if Text.byteSize source ≤ limit then [⟨0, Text.byteSize source⟩]
  else pack limit nodes

/-- The chunks of a text whose top-level nodes cover the given ranges. -/
def chunk (limit : Nat) (fileId : FileId) (source : List Char) (nodes : List Span) :
    List Chunk :=
  ((spans limit source nodes).filterMap (trimmed? source)).mapIdx (toChunk fileId)

/-- The whole text as one chunk, untrimmed; a blank text has none. -/
def whole? (fileId : FileId) (source : String) : Option Chunk :=
  if isBlank source.toList then none else some ⟨fileId, 0, source, 0, Text.byteSize source.toList⟩

end CodeAtlas.Chunker
