import CodeAtlas.Vector.Build

/-!
# `CodeAtlas.Vector.Pool`: chunks embedded by many workers

The chunks of a store are embedded by a pool of workers, each of which has one chunk in work at a
time. A worker takes any chunk that nobody has taken, and asks the embedder for its vector. When the
answer has come, it adds one to a counter that all workers share, reports the number that it has
come to, and puts the answer in the place of the chunk. Between two of these moves other workers may
move. Once all places are filled, the store is made of the answers in the order of the chunks.
-/

set_option autoImplicit false

namespace CodeAtlas

/-- How far the work on a chunk is. -/
inductive EmbeddingStage where
  | waiting
  /-- The embedder has been asked. -/
  | asked
  | answered (answer : Except String (List Single))
  /-- The counter has come to `number`, which is not reported yet. -/
  | counted (answer : Except String (List Single)) (number : Nat)
  | placed (answer : Except String (List Single))

namespace EmbeddingStage

/-- Whether a worker has the chunk in work. -/
def isInWork : EmbeddingStage → Bool
  | .waiting | .placed _ => false
  | .asked | .answered _ | .counted _ _ => true

/-- The answer in the place of the chunk, if it is there. -/
def placed? : EmbeddingStage → Option (Except String (List Single))
  | .placed answer => some answer
  | _ => none

end EmbeddingStage

/-- A chunk that is to be embedded, and how far the work on it is. -/
structure EmbeddingTask where
  job : EmbeddingJob
  stage : EmbeddingStage

/-- The tasks of a pool, and what its workers have done so far. -/
structure EmbeddingPool where
  /-- One task for each chunk, in the order of the chunks. -/
  tasks : List EmbeddingTask
  /-- The counter that the workers share. -/
  count : Nat
  /-- What the embedder was asked, with the place of the chunk that it was asked for. -/
  asked : List (Nat × String)
  /-- The progress that was reported. -/
  reported : List Nat

namespace EmbeddingPool

/-- The number of workers: as many as are asked for, but at least one. If no pool is to be had, the
chunks are embedded by a single worker. -/
def workers (available : Bool) (concurrency : Nat) : Nat :=
  if available then max concurrency 1 else 1

/-- A pool that has not begun. -/
def start (jobs : List EmbeddingJob) : EmbeddingPool where
  tasks := jobs.map fun job => ⟨job, .waiting⟩
  count := 0
  asked := []
  reported := []

/-- The number of workers that have a chunk in work. -/
def inWork (p : EmbeddingPool) : Nat :=
  p.tasks.countP fun task => task.stage.isInWork

/-- The next move in the work on the chunk with a given place, if it can be made: a chunk is taken
only by a worker that has none, and nothing is left to do for one whose answer is in its place. -/
def move (workers : Nat) (embedder : Embedder) (p : EmbeddingPool) (k : Nat) :
    Option EmbeddingPool :=
  match p.tasks[k]? with
  | none => none
  | some ⟨job, .waiting⟩ =>
    if p.inWork < workers then
      some { p with
        tasks := p.tasks.set k ⟨job, .asked⟩
        asked := p.asked ++ [(k, job.prompt)] }
    else none
  | some ⟨job, .asked⟩ =>
    some { p with tasks := p.tasks.set k ⟨job, .answered (embedder.embed job.prompt)⟩ }
  | some ⟨job, .answered answer⟩ =>
    some { p with
      tasks := p.tasks.set k ⟨job, .counted answer (p.count + 1)⟩
      count := p.count + 1 }
  | some ⟨job, .counted answer number⟩ =>
    some { p with
      tasks := p.tasks.set k ⟨job, .placed answer⟩
      reported := p.reported ++ [number] }
  | some ⟨_, .placed _⟩ => none

/-- Moves one after the other, if all of them can be made. -/
def run? (workers : Nat) (embedder : Embedder) (p : EmbeddingPool) (moves : List Nat) :
    Option EmbeddingPool :=
  moves.foldlM (move workers embedder) p

/-- The store of the answers, once all of them are in their places. -/
def build? (p : EmbeddingPool) : Option StoreBuild :=
  if p.tasks.all fun task => task.stage.placed?.isSome then
    some (.ofAnswers (p.tasks.filterMap fun task =>
      task.stage.placed?.map fun answer => (task.job, answer)))
  else none

end EmbeddingPool

end CodeAtlas
