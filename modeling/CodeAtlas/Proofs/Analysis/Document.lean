import CodeAtlas.Analysis.Document
import CodeAtlas.Proofs.Json.Decode

/-!
# `CodeAtlas.Proofs.Analysis.Document`: records of files are read back

What is written of a file is read back as it was, if its numbers have at most 64 bits (`Fits`).
-/

set_option autoImplicit false

namespace CodeAtlas

open Json Json.Decoder

/-! ### Parts of a record -/

/-- A path is kept as its text, so any text is a path. -/
theorem Path.decode_gives (p : Path) : Path.decode.Gives p.toJson p where
  plain := trivial
  decoded := by
    rw [Path.decode, Path.toJson, (string_gives p.text).decoded]
    rfl

/-- Whether the numbers of a chunk have 64 bits. -/
structure Chunk.Fits (c : Chunk) : Prop where
  index : Has64Bits c.index
  startByte : Has64Bits c.startByte
  endByte : Has64Bits c.endByte

/-- A chunk is read back if its numbers have 64 bits, which is all that a reader accepts. -/
theorem Chunk.decode_gives {c : Chunk} (h : c.Fits) : Chunk.decode.Gives c.toJson c := by
  have hmakes := Makes.first "file_id" Chunk.mk (string_gives c.fileId)
    |>.and "index" (nat64_gives h.index)
    |>.and "text" (string_gives c.text)
    |>.and "start_byte" (nat64_gives h.startByte)
    |>.and "end_byte" (nat64_gives h.endByte)
  exact record_gives rfl (by decide) hmakes

/-- A symbol is read back if its line has 64 bits. -/
theorem Symbol.decode_gives {s : Symbol} (h : Has64Bits s.line) :
    Symbol.decode.Gives s.toJson s := by
  have hmakes := Makes.first "name" Symbol.mk (string_gives s.name)
    |>.and "file_id" (string_gives s.fileId)
    |>.and "line" (nat64_gives h)
  exact record_gives rfl (by decide) hmakes

/-- A call is read back if its line has 64 bits. Its members come in another order than those of a
symbol. -/
theorem CallSite.decode_gives {c : CallSite} (h : Has64Bits c.line) :
    CallSite.decode.Gives c.toJson c := by
  have hmakes := Makes.first "name" CallSite.mk (string_gives c.name)
    |>.and "line" (nat64_gives h)
    |>.and "file_id" (string_gives c.fileId)
  exact record_gives rfl (by decide) hmakes

/-- An import has no numbers, so it is read back whatever it is. -/
theorem RawImport.decode_gives (i : RawImport) : RawImport.decode.Gives i.toJson i := by
  have hmakes := Makes.first "specifier" RawImport.mk (string_gives i.specifier)
    |>.and "module_path" (string_gives i.modulePath)
    |>.and "file_id" (string_gives i.fileId)
    |>.and "candidate" (Path.decode_gives i.candidate)
  exact record_gives rfl (by decide) hmakes

/-! ### Whole records -/

namespace FileAnalysis

/-- Whether all numbers of a record have 64 bits. -/
structure Fits (f : FileAnalysis) : Prop where
  chunks : ∀ c ∈ f.chunks, c.Fits
  symbols : ∀ s ∈ f.symbols, Has64Bits s.line
  calls : ∀ c ∈ f.calls, Has64Bits c.line
  lineCount : Has64Bits f.lineCount

/-- The record of a file is read back if all its numbers have 64 bits, those of its chunks, symbols
and calls included. -/
theorem decode_gives {f : FileAnalysis} (h : f.Fits) : decode.Gives f.toJson f := by
  have hmakes := Makes.first "path" FileAnalysis.mk (Path.decode_gives f.path)
    |>.and "id" (string_gives f.id)
    |>.and "language" (string_gives f.language)
    |>.and "chunks" (list_gives fun c hc => Chunk.decode_gives (h.chunks c hc))
    |>.and "symbols" (list_gives fun s hs => Symbol.decode_gives (h.symbols s hs))
    |>.and "calls" (list_gives fun c hc => CallSite.decode_gives (h.calls c hc))
    |>.and "imports" (list_gives fun (i : RawImport) (_ : i ∈ f.imports) => i.decode_gives)
    |>.and "line_count" (nat64_gives h.lineCount)
    |>.and "content_hash" (string_gives f.contentHash)
    |>.and "text" (string_gives f.text)
  exact record_gives rfl (by decide) hmakes

end FileAnalysis

end CodeAtlas
