import CodeAtlas.Analysis.Document
import CodeAtlas.Retrieval.Basic
import CodeAtlas.Single.Decimal
import CodeAtlas.Text.Blank
import CodeAtlas.Text.Pieces

/-!
# `CodeAtlas.Retrieval.Context`: what was found as a text

A retrieval is written for a reader in Markdown, each chunk in a fence with its language, or as
a JSON document.
-/

set_option autoImplicit false

namespace CodeAtlas

/-- How a retrieval is written. -/
inductive ContextFormat where
  | markdown
  | json
deriving DecidableEq, Repr

def RetrievalMatch.toJson (m : RetrievalMatch) : Json :=
  .record [("file_id", .ofString m.fileId), ("chunk_index", .ofNat m.chunkIndex),
    ("text", .ofString m.text), ("similarity", m.similarity.toJson),
    ("language", .ofString m.language), ("method", .ofString m.method.tag)]

def FileMatches.toJson (f : FileMatches) : Json :=
  .record [("file_id", .ofString f.fileId), ("matches", .ofList RetrievalMatch.toJson f.found)]

def IssueContext.toJson (i : IssueContext) : Json :=
  .record [("title", .ofString i.title), ("body", .ofString i.body)]

namespace Context

/-- The mark that names and fences are made of. -/
def backtick : Char := Char.ofNat 96

/-- The mark around the text of a chunk. -/
def fence : List Char := [backtick, backtick, backtick]

/-- The lines of a match. -/
def matchLines (m : RetrievalMatch) : List (List Char) :=
  [("_chunk " ++ toString m.chunkIndex ++ " via " ++ m.method.tag ++ " (").toList ++
      m.similarity.fixed 2 ++ [')', '_'],
    fence ++ m.language.toList, m.text.toList, fence, []]

/-- The lines of a file. -/
def fileLines (f : FileMatches) : List (List Char) :=
  ("### File: ".toList ++ backtick :: String.toList f.fileId ++ [backtick]) :: [] ::
    f.found.flatMap matchLines

/-- The lines of an issue. -/
def issueLines (i : IssueContext) : List (List Char) :=
  let body := Text.trim i.body.toList
  ["### Current Issue".toList, [], ['*', '*'] ++ i.title.toList ++ ['*', '*']] ++
    (if body = [] then [] else [[], body]) ++ [[]]

/-- The lines of a retrieval in Markdown. -/
def markdownLines (r : Retrieval) (query : String) (issue? : Option IssueContext) :
    List (List Char) :=
  let query := Text.trim query.toList
  ["## Code Context".toList, []] ++
    (if query = [] then [] else ["**Query:** ".toList ++ query, []]) ++
    (if r.isEmpty then ["No relevant code context found.".toList, []] else []) ++
    r.files.flatMap fileLines ++
    (issue?.map issueLines).getD []

/-- A retrieval in Markdown. -/
def markdown (r : Retrieval) (query : String) (issue? : Option IssueContext) : String :=
  String.ofList (Text.glue '\n' (markdownLines r query issue?))

/-- A retrieval as a JSON document. -/
def document (r : Retrieval) (query : String) (issue? : Option IssueContext) : Json :=
  .record ([("query", Json.ofString query), ("files", .ofList FileMatches.toJson r.files)] ++
    (issue?.map fun i => ("issue", i.toJson)).toList ++
    [("diagnostics", .ofList Diagnostic.toJson r.diagnostics)])

/-- A retrieval as a text. -/
def text (format : ContextFormat) (r : Retrieval) (query : String)
    (issue? : Option IssueContext) : String :=
  match format with
  | .markdown => markdown r query issue?
  | .json => (document r query issue?).prettyText

end Context

end CodeAtlas
