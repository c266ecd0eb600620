import CodeAtlas.FileId
import CodeAtlas.Single.Basic

/-!
# `CodeAtlas.Vector.Basic`: embedded chunks and the search among them

A store holds the vectors of chunks in the order in which they were embedded. A search ranks all
of them by the cosine of the angle to a given vector.
-/

set_option autoImplicit false

namespace CodeAtlas

/-- A chunk with its vector. -/
structure EmbeddingRecord where
  fileId : FileId
  chunkIndex : Nat
  text : String
  vector : List Single
  language : String
deriving DecidableEq, Repr

/-- What a record is found by. -/
def EmbeddingRecord.key (r : EmbeddingRecord) : FileId × Nat :=
  (r.fileId, r.chunkIndex)

/-- The sum of the products of the components of two vectors. -/
def dotProduct (a b : List Single) : Single :=
  Single.sum (List.zipWith Single.mul a b)

/-- The length of a vector. -/
def norm (a : List Single) : Single :=
  (Single.sum (a.map fun x => x.mul x)).sqrt

/-- The cosine of the angle between two vectors; zero where there is none: for vectors without
components, of different dimensions or of length zero, and where the quotient is no number. -/
def cosine (a b : List Single) : Single :=
  if a.length ≠ b.length ∨ a = [] then .zero
  else if (norm a).isZero || (norm b).isZero then .zero
  else
    let quotient := (dotProduct a b).div ((norm a).mul (norm b))
    if quotient.isNaN then .zero else quotient

/-- The vectors of chunks, in order. -/
structure VectorStore where
  records : List EmbeddingRecord
deriving DecidableEq, Repr

namespace VectorStore

/-- The store without vectors. -/
def empty : VectorStore := ⟨[]⟩

/-- The number of vectors. -/
def size (s : VectorStore) : Nat := s.records.length

/-- Whether there is nothing to search. -/
def isEmpty (s : VectorStore) : Bool := s.records.isEmpty

/-- The dimension of the first vector. -/
def dimension? (s : VectorStore) : Option Nat :=
  s.records.head?.map fun r => r.vector.length

/-- The records with their scores against a vector. -/
def scored (s : VectorStore) (query : List Single) : List (EmbeddingRecord × Single) :=
  s.records.map fun r => (r, cosine query r.vector)

/-- How two records with their scores compare in a ranking: the larger score comes first, and
scores that do not compare count as equal. -/
def compareScores (a b : EmbeddingRecord × Single) : Ordering :=
  (b.2.compare? a.2).getD .eq

/-- All records with their scores, the best first; equals keep their order. -/
def ranked (s : VectorStore) (query : List Single) : List (EmbeddingRecord × Single) :=
  (s.scored query).mergeSort fun a b => (compareScores a b).isLE

/-- The best records with their scores, the best first, at most `k` of them. -/
def search (s : VectorStore) (query : List Single) (k : Nat) :
    List (EmbeddingRecord × Single) :=
  (s.ranked query).take k

/-- The files that have vectors, in order and each once. -/
def fileIds (s : VectorStore) : List FileId :=
  (s.records.map EmbeddingRecord.fileId).eraseDups

/-- Whether two stores hold the same values. A component that is no number differs from
itself. -/
def same (s t : VectorStore) : Bool :=
  s.records.length = t.records.length &&
    (s.records.zip t.records).all fun (a, b) =>
      a.fileId = b.fileId && a.chunkIndex = b.chunkIndex && a.text = b.text &&
        a.language = b.language && a.vector.length = b.vector.length &&
        (a.vector.zip b.vector).all fun (x, y) => x.same y

end VectorStore

end CodeAtlas
