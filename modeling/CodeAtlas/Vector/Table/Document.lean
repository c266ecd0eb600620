import CodeAtlas.Json.Basic
import CodeAtlas.Json.Decode
import CodeAtlas.Vector.Table.Basic

/-!
# `CodeAtlas.Vector.Table.Document`: the document of a table

How a table of vectors is written to a file and read back. The bytes of a vector are written as
hexadecimal digits.
-/

set_option autoImplicit false

namespace CodeAtlas

open Json (Decoder)

/-- The two digits of a byte. -/
def hexOfByte (b : UInt8) : List Char :=
  [Json.hexDigit (b.toNat / 16), Json.hexDigit (b.toNat % 16)]

/-- The bytes that pairs of digits write, if every pair writes one. -/
def bytesOfHex? : List Char → Option (List UInt8)
  | [] => some []
  | a :: b :: rest => do
    let high ← Json.Draft.hexValue? a
    let low ← Json.Draft.hexValue? b
    return UInt8.ofNat (16 * high + low) :: (← bytesOfHex? rest)
  | [_] => none

namespace VectorRow

def toJson (r : VectorRow) : Json :=
  .record [("file_id", .ofString r.fileId), ("chunk_index", .ofInt r.chunkIndex),
    ("text", .ofString r.text), ("language", .ofString r.language),
    ("embedding", .string (r.embedding.flatMap hexOfByte)), ("model", .ofString r.model)]

/-- The bytes of a vector. -/
def decodeEmbedding : Decoder (List UInt8)
  | .string (some text) =>
    match bytesOfHex? text with
    | some bytes => .ok bytes
    | none => .error .mismatch
  | d => .error (Decoder.unexpected d)

def decode : Decoder VectorRow :=
  Decoder.record ["file_id", "chunk_index", "text", "language", "embedding", "model"] fun fs =>
    VectorRow.mk <$> fs.required "file_id" Decoder.string
      <*> fs.required "chunk_index" Decoder.int64 <*> fs.required "text" Decoder.string
      <*> fs.required "language" Decoder.string <*> fs.required "embedding" decodeEmbedding
      <*> fs.required "model" Decoder.string

end VectorRow

namespace VectorTable

def toJson (t : VectorTable) : Json :=
  .record [("vectors", .ofList VectorRow.toJson t.rows)]

def decode : Decoder VectorTable :=
  Decoder.record ["vectors"] fun fs =>
    VectorTable.mk <$> fs.required "vectors" (Decoder.list VectorRow.decode)

/-- The text of the document of a table. -/
def write (t : VectorTable) : String :=
  t.toJson.compactText

/-- Reads the document of a table. -/
def read (text : String) : Except Json.Fault VectorTable :=
  Decoder.ofText decode text.toList

end VectorTable

end CodeAtlas
