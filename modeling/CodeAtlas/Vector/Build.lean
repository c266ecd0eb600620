import CodeAtlas.Diagnostic
import CodeAtlas.Vector.Basic
import CodeAtlas.Vector.Embedder

/-!
# `CodeAtlas.Vector.Build`: stores of embedded chunks

Every chunk of every record is embedded with a prompt of its own. A chunk whose vector cannot be
used is left out of the store and reported. The chunks of the first usable vector fix the
dimension of the store.
-/

set_option autoImplicit false

namespace CodeAtlas

/-- A chunk that is to be embedded, with the record of its file. -/
structure EmbeddingJob where
  analysis : FileAnalysis
  chunk : Chunk
deriving DecidableEq, Repr

namespace EmbeddingJob

/-- The chunks of all records in order. -/
def ofAnalyses (analyses : List FileAnalysis) : List EmbeddingJob :=
  analyses.flatMap fun a => a.chunks.map fun c => ⟨a, c⟩

/-- What is embedded. -/
def prompt (j : EmbeddingJob) : String :=
  chunkPrompt j.analysis.id j.chunk.text

/-- The name of a chunk in reports. -/
def subject (j : EmbeddingJob) : String :=
  j.analysis.id ++ "#" ++ toString j.chunk.index

/-- The record of a chunk with its vector. -/
def record (j : EmbeddingJob) (vector : List Single) : EmbeddingRecord :=
  ⟨j.analysis.id, j.chunk.index, j.chunk.text, vector, j.analysis.language⟩

end EmbeddingJob

/-- Why a chunk has no vector in a store. -/
inductive EmbeddingFault where
  | refused (message : String)
  | emptyVector
  | dimension (found expected : Nat)
deriving DecidableEq, Repr

/-- The text of a fault. -/
def EmbeddingFault.message : EmbeddingFault → String
  | .refused message => message
  | .emptyVector => "embedder returned an empty vector"
  | .dimension found expected =>
    "dimension " ++ toString found ++ " does not match store dimension " ++ toString expected

/-- A store and what was left out of it. -/
structure StoreBuild where
  store : VectorStore
  diagnostics : List Diagnostic
deriving DecidableEq, Repr

namespace StoreBuild

/-- The vector of an answer, if a store of the given dimension can take it. -/
def accept (dimension? : Option Nat) :
    Except String (List Single) → Except EmbeddingFault (List Single)
  | .error message => .error (.refused message)
  | .ok vector =>
    if vector = [] then .error .emptyVector
    else
      match dimension? with
      | some d => if d = vector.length then .ok vector else .error (.dimension vector.length d)
      | none => .ok vector

/-- Takes in the answers for chunks in order; `dimension?` is the dimension so far. -/
def collect (dimension? : Option Nat) :
    List (EmbeddingJob × Except String (List Single)) → List EmbeddingRecord × List Diagnostic
  | [] => ([], [])
  | (job, answer) :: rest =>
    match accept dimension? answer with
    | .ok vector =>
      let (records, diagnostics) := collect (some vector.length) rest
      (job.record vector :: records, diagnostics)
    | .error fault =>
      let (records, diagnostics) := collect dimension? rest
      (records, ⟨.embeddingFailure, job.subject, fault.message⟩ :: diagnostics)

/-- The store of the answers for chunks. -/
def ofAnswers (answers : List (EmbeddingJob × Except String (List Single))) : StoreBuild :=
  let (records, diagnostics) := collect none answers
  ⟨⟨records⟩, diagnostics⟩

/-- The store of all chunks of the given records. -/
def build (analyses : List FileAnalysis) (embedder : Embedder) : StoreBuild :=
  ofAnswers ((EmbeddingJob.ofAnalyses analyses).map fun job => (job, embedder.embed job.prompt))

/-- The texts that are embedded on the way. -/
def prompts (analyses : List FileAnalysis) : List String :=
  (EmbeddingJob.ofAnalyses analyses).map EmbeddingJob.prompt

/-- The progress that is reported on the way: the number of chunks done. -/
def progress (analyses : List FileAnalysis) : List Nat :=
  (List.range (EmbeddingJob.ofAnalyses analyses).length).map (· + 1)

end StoreBuild

/-! ### The store in use -/

/-- The handle of the store in use. A snapshot is the store of the moment, which later
replacements do not touch. -/
structure VectorIndex where
  current : VectorStore
deriving DecidableEq, Repr

namespace VectorIndex

/-- The store in use. -/
def snapshot (i : VectorIndex) : VectorStore := i.current

/-- Installs a store; gives back the one that it replaces. -/
def replace (i : VectorIndex) (store : VectorStore) : VectorStore × VectorIndex :=
  (i.current, ⟨store⟩)

/-- Builds a store and installs it; gives back what was left out of it. -/
def rebuild (i : VectorIndex) (analyses : List FileAnalysis) (embedder : Embedder) :
    List Diagnostic × VectorIndex :=
  let b := StoreBuild.build analyses embedder
  (b.diagnostics, (i.replace b.store).2)

end VectorIndex

end CodeAtlas
