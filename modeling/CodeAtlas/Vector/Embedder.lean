import CodeAtlas.Analysis.Basic
import CodeAtlas.Single.Basic

/-!
# `CodeAtlas.Vector.Embedder`: what makes vectors of texts

An embedder is a function from texts to vectors that may fail for a text, together with the
name of the model that it uses.
-/

set_option autoImplicit false

namespace CodeAtlas

/-- Makes vectors of texts, or says why it cannot. -/
structure Embedder where
  /-- The name of the model. -/
  model : String
  embed : String → Except String (List Single)

/-- What is embedded for a chunk: the name of its file and its text. -/
def chunkPrompt (fileId : FileId) (text : String) : String :=
  "File: " ++ fileId ++ "\nCode:\n" ++ text

end CodeAtlas
