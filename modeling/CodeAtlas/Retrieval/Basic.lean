import CodeAtlas.Diagnostic
import CodeAtlas.FileId
import CodeAtlas.Single.Basic

/-!
# `CodeAtlas.Retrieval.Basic`: what a question finds

A retrieval holds the matches found for a question, grouped by file. Files stand in the order in
which they were first reached, the matches of a file in the order in which they were found. A
chunk is kept once for each way in which it was found.
-/

set_option autoImplicit false

namespace CodeAtlas

/-- How a chunk was found. -/
inductive RetrievalMethod where
  | issueContext
  | semantic
  | keyword
  | graph
deriving DecidableEq, Repr

/-- The word for a method. -/
def RetrievalMethod.tag : RetrievalMethod → String
  | .issueContext => "issue-context"
  | .semantic => "semantic"
  | .keyword => "keyword"
  | .graph => "graph"

/-- A chunk that was found. -/
structure RetrievalMatch where
  fileId : FileId
  chunkIndex : Nat
  text : String
  similarity : Single
  language : String
  method : RetrievalMethod
deriving DecidableEq, Repr

/-- The chunks that were found in a file. -/
structure FileMatches where
  fileId : FileId
  found : List RetrievalMatch
deriving DecidableEq, Repr

/-- A reported problem with its title and text. -/
structure IssueContext where
  title : String
  body : String
deriving DecidableEq, Repr

/-- What was found, and what went wrong on the way. -/
structure Retrieval where
  files : List FileMatches
  diagnostics : List Diagnostic
deriving DecidableEq, Repr

namespace FileMatches

/-- The matches of a file with one more, unless its chunk was found in the same way before. -/
def push (f : FileMatches) (m : RetrievalMatch) : FileMatches :=
  if f.found.any fun n => n.chunkIndex = m.chunkIndex && n.method = m.method then f
  else { f with found := f.found ++ [m] }

/-- The groups of files with one more match. -/
def pushInto (m : RetrievalMatch) : List FileMatches → List FileMatches
  | [] => [⟨m.fileId, [m]⟩]
  | f :: fs => if f.fileId = m.fileId then f.push m :: fs else f :: pushInto m fs

/-- Matches grouped by file. -/
def group (found : List RetrievalMatch) : List FileMatches :=
  found.foldl (fun fs m => pushInto m fs) []

end FileMatches

namespace Retrieval

/-- Whether nothing was found, which the rendering says in words. -/
def isEmpty (r : Retrieval) : Bool := r.files.isEmpty

/-- The number of matches. -/
def matchCount (r : Retrieval) : Nat :=
  (r.files.flatMap FileMatches.found).length

/-- The matches of a file. -/
def file? (r : Retrieval) (id : FileId) : Option FileMatches :=
  r.files.find? fun f => f.fileId = id

end Retrieval

end CodeAtlas
