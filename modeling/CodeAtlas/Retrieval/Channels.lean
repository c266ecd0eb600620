import CodeAtlas.Graph.Basic
import CodeAtlas.Retrieval.Basic
import CodeAtlas.Retrieval.Token
import CodeAtlas.Text.Blank
import CodeAtlas.Vector.Basic
import CodeAtlas.Vector.Embedder

/-!
# `CodeAtlas.Retrieval.Channels`: the ways to find code for a question

Four channels look for code, one after the other. Files that an issue names and files that the
question names give all their chunks. Between the two, the search among vectors gives the chunks
most similar to the question; vectors of files that the graph no longer has are passed over. Last
come the first chunks of the files that the files named in the question import. A channel
neither sees nor hinders what another finds.
-/

set_option autoImplicit false

namespace CodeAtlas

/-- What code is looked for in, and what embeds the questions. -/
structure Retriever where
  graph : ProjectGraph
  store : VectorStore
  embedder : Embedder

/-- Why the search among vectors was left out. -/
inductive SemanticFault where
  | emptyStore
  | emptyQuery
  | refused (message : String)
  | dimension (query store : Nat)
deriving DecidableEq, Repr

/-- The report of a fault. -/
def SemanticFault.diagnostic : SemanticFault → Diagnostic
  | .emptyStore =>
    ⟨.retrievalInputError, "vector store", "vector store is empty, semantic search skipped"⟩
  | .emptyQuery => ⟨.retrievalInputError, "query", "empty query, semantic search skipped"⟩
  | .refused message => ⟨.embeddingFailure, "query", message⟩
  | .dimension query store =>
    ⟨.retrievalInputError, "query", "query vector has " ++ toString query ++
      " dimensions but the store has " ++ toString store ++ ", semantic search skipped"⟩

namespace Retriever

/-- The number of matches that the search among vectors gives unless another is asked for. -/
def defaultTopK : Nat := 5

/-- The number of chunks that an imported file gives. -/
def chunksPerImport : Nat := 2

/-- The score of what is named directly. -/
def directScore : Single := .one

/-- The score of what is imported: the number nearest to 0.8. -/
def importScore : Single := ⟨0x3f4ccccd⟩

/-- Matches of the given chunks of a file. -/
def matchesOf (node : GraphNode) (chunks : List Chunk) (similarity : Single)
    (method : RetrievalMethod) : List RetrievalMatch :=
  chunks.map fun c => ⟨node.id, c.index, c.text, similarity, node.language, method⟩

/-- Whether a file's id ends with a token. -/
def named (token : List Char) (node : GraphNode) : Bool :=
  Text.endsWith (String.toList node.id) token

/-- All chunks of the files that an issue names. -/
def issueMatches (r : Retriever) (issue : IssueContext) : List RetrievalMatch :=
  (Retrieval.issueTokens issue.body).flatMap fun token =>
    (r.graph.fileNodes.filter (named token)).flatMap fun node =>
      matchesOf node node.chunks directScore .issueContext

/-- What is embedded for a question. -/
def prompt (query : String) (issue? : Option IssueContext) : String :=
  match issue? with
  | some issue => query ++ "\n\nRelated issue: " ++ issue.title ++ "\n" ++ issue.body
  | none => query

/-- What is embedded for a question, if the search among vectors can be made at all. -/
def semanticPrompt (r : Retriever) (query : String) (issue? : Option IssueContext) :
    Except SemanticFault String :=
  if r.store.isEmpty then .error .emptyStore
  else if Text.trim query.toList = [] && issue?.isNone then .error .emptyQuery
  else .ok (prompt query issue?)

/-- Whether the graph has a file. -/
def hasFile (r : Retriever) (id : FileId) : Bool :=
  r.graph.fileNodes.any fun n => n.id = id

/-- The chunks most similar to a vector, of files that the graph has. -/
def nearest (r : Retriever) (vector : List Single) (topK : Nat) : List RetrievalMatch :=
  (((r.store.search vector r.store.size).filter fun (record, _) => r.hasFile record.fileId).take
    topK).map fun (record, similarity) =>
      ⟨record.fileId, record.chunkIndex, record.text, similarity, record.language, .semantic⟩

/-- The chunks most similar to a question. -/
def semanticMatches (r : Retriever) (query : String) (issue? : Option IssueContext)
    (topK : Nat) : Except SemanticFault (List RetrievalMatch) := do
  let text ← r.semanticPrompt query issue?
  let vector ← match r.embedder.embed text with
    | .ok vector => pure vector
    | .error message => throw (.refused message)
  match r.store.dimension? with
  | some d => if d = vector.length then pure () else throw (.dimension vector.length d)
  | none => pure ()
  return r.nearest vector topK

/-- The first files that the tokens of a question name, one for each token that names any. -/
def keywordNodes (r : Retriever) (query : String) : List GraphNode :=
  (Retrieval.keywordTokens query).filterMap fun token =>
    r.graph.fileNodes.find? fun n => named token n || n.label = String.ofList token

/-- All chunks of the files that a question names. -/
def keywordMatches (r : Retriever) (query : String) : List RetrievalMatch :=
  (r.keywordNodes query).flatMap fun node => matchesOf node node.chunks directScore .keyword

/-- The files that a file imports, each once. -/
def imported (r : Retriever) (id : FileId) : List FileId :=
  ((r.graph.outgoing id .importing).map GraphEdge.target).eraseDups

/-- The first chunks of the files that the files named in a question import. -/
def graphMatches (r : Retriever) (query : String) : List RetrievalMatch :=
  ((r.keywordNodes query).map GraphNode.id).eraseDups.flatMap fun id =>
    (r.imported id).flatMap fun target =>
      match r.graph.node? target with
      | some node => matchesOf node (node.chunks.take chunksPerImport) importScore .graph
      | none => []

/-- The matches of all channels in their order, and the fault of the search among vectors. -/
def allMatches (r : Retriever) (query : String) (issue? : Option IssueContext) (topK : Nat) :
    List RetrievalMatch × Option SemanticFault :=
  let (semantic, fault?) := match r.semanticMatches query issue? topK with
    | .ok found => (found, none)
    | .error fault => ([], some fault)
  ((issue?.map r.issueMatches).getD [] ++ semantic ++ r.keywordMatches query ++
    r.graphMatches query, fault?)

/-- What is found for a question. -/
def retrieve (r : Retriever) (query : String) (issue? : Option IssueContext) (topK : Nat) :
    Retrieval :=
  let (found, fault?) := r.allMatches query issue? topK
  ⟨FileMatches.group found, fault?.toList.map SemanticFault.diagnostic⟩

end Retriever

end CodeAtlas
