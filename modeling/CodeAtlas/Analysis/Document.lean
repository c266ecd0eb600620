import CodeAtlas.Analysis.Basic
import CodeAtlas.Diagnostic
import CodeAtlas.Json.Basic
import CodeAtlas.Json.Decode

/-!
# `CodeAtlas.Analysis.Document`: records of files as JSON

How chunks, symbols, calls, imports, file records and diagnostics are written as JSON values
and read back.
-/

set_option autoImplicit false

namespace CodeAtlas

open Json (Decoder)

/-- A path as its text. -/
def Path.toJson (p : Path) : Json := .ofString p.text

/-- Reads a path. -/
def Path.decode : Decoder Path := fun d => (Decoder.string d).map Path.mk

def Chunk.toJson (c : Chunk) : Json :=
  .record [("file_id", .ofString c.fileId), ("index", .ofNat c.index), ("text", .ofString c.text),
    ("start_byte", .ofNat c.startByte), ("end_byte", .ofNat c.endByte)]

def Chunk.decode : Decoder Chunk :=
  Decoder.record ["file_id", "index", "text", "start_byte", "end_byte"] fun fs =>
    Chunk.mk <$> fs.required "file_id" Decoder.string <*> fs.required "index" Decoder.nat64
      <*> fs.required "text" Decoder.string <*> fs.required "start_byte" Decoder.nat64
      <*> fs.required "end_byte" Decoder.nat64

def Symbol.toJson (s : Symbol) : Json :=
  .record [("name", .ofString s.name), ("file_id", .ofString s.fileId), ("line", .ofNat s.line)]

def Symbol.decode : Decoder Symbol :=
  Decoder.record ["name", "file_id", "line"] fun fs =>
    Symbol.mk <$> fs.required "name" Decoder.string <*> fs.required "file_id" Decoder.string
      <*> fs.required "line" Decoder.nat64

def CallSite.toJson (c : CallSite) : Json :=
  .record [("name", .ofString c.name), ("line", .ofNat c.line), ("file_id", .ofString c.fileId)]

def CallSite.decode : Decoder CallSite :=
  Decoder.record ["name", "line", "file_id"] fun fs =>
    CallSite.mk <$> fs.required "name" Decoder.string <*> fs.required "line" Decoder.nat64
      <*> fs.required "file_id" Decoder.string

def RawImport.toJson (i : RawImport) : Json :=
  .record [("specifier", .ofString i.specifier), ("module_path", .ofString i.modulePath),
    ("file_id", .ofString i.fileId), ("candidate", i.candidate.toJson)]

def RawImport.decode : Decoder RawImport :=
  Decoder.record ["specifier", "module_path", "file_id", "candidate"] fun fs =>
    RawImport.mk <$> fs.required "specifier" Decoder.string
      <*> fs.required "module_path" Decoder.string <*> fs.required "file_id" Decoder.string
      <*> fs.required "candidate" Path.decode

/-- The members of a file record but for its text. -/
def FileAnalysis.briefMembers (f : FileAnalysis) : List (String × Json) :=
  [("path", f.path.toJson), ("id", .ofString f.id), ("language", .ofString f.language),
    ("chunks", .ofList Chunk.toJson f.chunks), ("symbols", .ofList Symbol.toJson f.symbols),
    ("calls", .ofList CallSite.toJson f.calls), ("imports", .ofList RawImport.toJson f.imports),
    ("line_count", .ofNat f.lineCount), ("content_hash", .ofString f.contentHash)]

def FileAnalysis.toJson (f : FileAnalysis) : Json :=
  .record (f.briefMembers ++ [("text", .ofString f.text)])

def FileAnalysis.decode : Decoder FileAnalysis :=
  Decoder.record ["path", "id", "language", "chunks", "symbols", "calls", "imports", "line_count",
      "content_hash", "text"] fun fs =>
    FileAnalysis.mk <$> fs.required "path" Path.decode <*> fs.required "id" Decoder.string
      <*> fs.required "language" Decoder.string
      <*> fs.required "chunks" (Decoder.list Chunk.decode)
      <*> fs.required "symbols" (Decoder.list Symbol.decode)
      <*> fs.required "calls" (Decoder.list CallSite.decode)
      <*> fs.required "imports" (Decoder.list RawImport.decode)
      <*> fs.required "line_count" Decoder.nat64
      <*> fs.required "content_hash" Decoder.string <*> fs.required "text" Decoder.string

def Diagnostic.toJson (d : Diagnostic) : Json :=
  .record [("kind", .ofString d.kind.tag), ("subject", .ofString d.subject),
    ("message", .ofString d.message)]

/-- The words for the kinds of diagnostics. -/
def DiagnosticKind.words : List (String × DiagnosticKind) :=
  [DiagnosticKind.parseFailure, .resolutionFailure, .embeddingFailure, .retrievalInputError].map
    fun k => (k.tag, k)

def Diagnostic.decode : Decoder Diagnostic :=
  Decoder.record ["kind", "subject", "message"] fun fs =>
    Diagnostic.mk <$> fs.required "kind" (Decoder.choice DiagnosticKind.words)
      <*> fs.required "subject" Decoder.string <*> fs.required "message" Decoder.string

end CodeAtlas
