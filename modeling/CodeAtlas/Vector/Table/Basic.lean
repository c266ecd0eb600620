import CodeAtlas.Diagnostic
import CodeAtlas.Vector.Basic

/-!
# `CodeAtlas.Vector.Table.Basic`: the table of vectors on disk

The rows of a table stand in the order in which they were written; no two of them are of the
same chunk. A store is written as a whole: all of it takes the place of what was there, or
nothing changes.
-/

set_option autoImplicit false

namespace CodeAtlas

/-- A row of the table. -/
structure VectorRow where
  fileId : FileId
  chunkIndex : Int
  text : String
  language : String
  /-- The bytes of the vector, four for each component. -/
  embedding : List UInt8
  /-- The model that made the vector. -/
  model : String
deriving DecidableEq, Repr

/-- Why a row cannot be written. -/
inductive RowFault where
  /-- There is a row of the same chunk. -/
  | duplicateKey
  /-- The number of the chunk has more than 63 bits. -/
  | indexTooLarge
deriving DecidableEq, Repr

/-- The messages of the database and of the conversion of the index. -/
def RowFault.message : RowFault → String
  | .duplicateKey => "UNIQUE constraint failed: vectors.file_id, vectors.chunk_index"
  | .indexTooLarge => "number too large to fit in target type"

/-- The rows of a table, the first one written first. -/
structure VectorTable where
  rows : List VectorRow
deriving DecidableEq, Repr

namespace VectorRow

/-- The components of a vector out of its bytes; bytes that do not make a component are passed
over. -/
def components : List UInt8 → List Single
  | a :: b :: c :: d :: rest => Single.ofBytes a b c d :: components rest
  | _ => []

/-- The row of a record. -/
def ofRecord (model : String) (r : EmbeddingRecord) : Except RowFault VectorRow :=
  if r.chunkIndex < 0x8000000000000000 then
    .ok ⟨r.fileId, r.chunkIndex, r.text, r.language, r.vector.flatMap Single.bytes, model⟩
  else .error .indexTooLarge

/-- The record of a row; a negative number of a chunk counts as zero. -/
def record (r : VectorRow) : EmbeddingRecord :=
  ⟨r.fileId, r.chunkIndex.toNat, r.text, components r.embedding, r.language⟩

/-- Whether two rows are of the same chunk. -/
def sameKey (r s : VectorRow) : Bool :=
  r.fileId = s.fileId && r.chunkIndex = s.chunkIndex

end VectorRow

namespace VectorTable

/-- The table without rows. -/
def empty : VectorTable := ⟨[]⟩

/-- The table with one more row. -/
def insert (t : VectorTable) (r : VectorRow) : Except RowFault VectorTable :=
  if t.rows.any r.sameKey then .error .duplicateKey else .ok ⟨t.rows ++ [r]⟩

/-- The table with one more record. -/
def insertRecord (model : String) (t : VectorTable) (r : EmbeddingRecord) :
    Except RowFault VectorTable :=
  (VectorRow.ofRecord model r).bind t.insert

/-- Replaces all rows by the records of a store. At the first record that cannot be written
everything is as it was before. -/
def replace (t : VectorTable) (store : VectorStore) (model : String) :
    Except RowFault Nat × VectorTable :=
  match store.records.foldlM (insertRecord model) empty with
  | .ok written => (.ok store.size, written)
  | .error fault => (.error fault, t)

/-- The store of all rows. -/
def store (t : VectorTable) : VectorStore :=
  ⟨t.rows.map VectorRow.record⟩

/-- The model of the first row. -/
def model? (t : VectorTable) : Option String :=
  t.rows.head?.map VectorRow.model

/-- What is told when the vectors are of another model. -/
def otherModel (stored wanted : String) : Diagnostic :=
  ⟨.retrievalInputError, "vector store",
    "vectors were embedded with `" ++ stored ++ "` but `" ++ wanted ++
      "` is configured, run `repolens index`"⟩

/-- The store of all rows if they are of the wanted model; otherwise no store and a
diagnostic. -/
def storeFor (t : VectorTable) (wanted : String) : VectorStore × Option Diagnostic :=
  match t.model? with
  | some stored =>
    if stored = wanted then (t.store, none) else (.empty, some (otherModel stored wanted))
  | none => (t.store, none)

/-- The files that have rows, in the order of their ids. -/
def fileIds (t : VectorTable) : List FileId :=
  (t.rows.map VectorRow.fileId).eraseDups.mergeSort fun a b => !(b < a)

/-- The number of rows. -/
def count (t : VectorTable) : Nat := t.rows.length

/-- The bytes that a table takes on disk: a page for the catalogue, one for each of two indexes
and one for the rows, and further pages as the rows fill them. -/
def byteSize (t : VectorTable) : Nat :=
  let rowBytes := t.rows.foldl (fun n r => n + r.text.utf8ByteSize + r.embedding.length + 64) 0
  4096 * (4 + rowBytes / 4096)

end VectorTable

end CodeAtlas
