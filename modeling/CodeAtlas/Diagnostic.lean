/-!
# `CodeAtlas.Diagnostic`: problems that were passed over

A diagnostic tells of a failure that was confined to the smallest unit it concerns: a file, a
query, an import or a chunk.
-/

set_option autoImplicit false

namespace CodeAtlas

/-- What went wrong. -/
inductive DiagnosticKind where
  | parseFailure
  | resolutionFailure
  | embeddingFailure
  | retrievalInputError
deriving DecidableEq, Repr

/-- The word for a kind in documents. -/
def DiagnosticKind.tag : DiagnosticKind → String
  | .parseFailure => "parse_failure"
  | .resolutionFailure => "resolution_failure"
  | .embeddingFailure => "embedding_failure"
  | .retrievalInputError => "retrieval_input_error"

/-- The word for a kind in summaries. -/
def DiagnosticKind.title : DiagnosticKind → String
  | .parseFailure => "ParseFailure"
  | .resolutionFailure => "ResolutionFailure"
  | .embeddingFailure => "EmbeddingFailure"
  | .retrievalInputError => "RetrievalInputError"

/-- A problem: its kind, what it concerns, and a message. -/
structure Diagnostic where
  kind : DiagnosticKind
  subject : String
  message : String
deriving DecidableEq, Repr

end CodeAtlas
