import CodeAtlas.Vector.Build

/-!
# `CodeAtlas.Vector.Shared`: the store in use among threads

Any number of threads share one `VectorIndex`. A call of a thread takes several moves, and between
two of them other threads may move. The handle is behind a lock: any number of threads may look at
the store at once, and a thread that swaps it is alone. A rebuild makes its store before it asks for
the lock. The answers of its embedder come in any order, each when its worker is done.
-/

set_option autoImplicit false

namespace CodeAtlas.SharedIndex

/-! ### Calls -/

/-- A call that puts another store in use. -/
inductive Swap where
  | replace (store : VectorStore)
  | rebuild (analyses : List FileAnalysis) (embedder : Embedder)

/-- A call of a thread. -/
inductive Call where
  | snapshot
  | swap (swap : Swap)

/-- What a call gives back. -/
inductive Answer where
  | snapshot (store : VectorStore)
  /-- The store that was replaced. -/
  | replaced (store : VectorStore)
  /-- What was left out of the store that was built. -/
  | rebuilt (diagnostics : List Diagnostic)
deriving DecidableEq, Repr

/-- The store that a swap installs, and what was left out of it. -/
def Swap.build : Swap → StoreBuild
  | .replace store => ⟨store, []⟩
  | .rebuild analyses embedder => .build analyses embedder

/-- What a swap gives back once it has installed a store in the place of another. -/
def Swap.answer (b : StoreBuild) (replaced : VectorStore) : Swap → Answer
  | .replace _ => .replaced replaced
  | .rebuild _ _ => .rebuilt b.diagnostics

/-! ### Threads -/

/-- How a thread holds the lock. -/
inductive Mode where
  | shared
  | exclusive
deriving DecidableEq, Repr

/-- What a thread wants the lock for. -/
inductive Task where
  | look
  /-- A swap whose store has been built. -/
  | swap (swap : Swap) (build : StoreBuild)

/-- Readers share the lock, and whoever changes the index has it alone. -/
def Task.mode : Task → Mode
  | .look => .shared
  | .swap _ _ => .exclusive

/-- Where a thread is. -/
inductive Phase where
  /-- In no call. -/
  | idle
  /-- Its store is being built; there is one place for the answer to each job. -/
  | building (analyses : List FileAnalysis) (embedder : Embedder)
      (answers : List (Option (Except String (List Single))))
  /-- It asks for the lock. -/
  | waiting (task : Task)
  /-- It holds the lock. -/
  | holding (task : Task)
  /-- It has taken the store in use, and has not yet put its own in the place. -/
  | taken (swap : Swap) (build : StoreBuild) (replaced : VectorStore)
  /-- It is about to give the lock back. -/
  | leaving (mode : Mode) (answer : Answer)

/-- How a thread holds the lock, if it does. -/
def Phase.mode? : Phase → Option Mode
  | .idle | .building _ _ _ | .waiting _ => none
  | .holding task => some task.mode
  | .taken _ _ _ => some .exclusive
  | .leaving mode _ => some mode

/-- A thread with what it is at. -/
structure Thread where
  phase : Phase
  /-- Its calls, in their order. -/
  called : List Call
  /-- What the calls that have ended gave back. -/
  returned : List Answer

/-- What the scheduler lets a thread do. -/
inductive Move where
  | call (call : Call)
  /-- The embedder answers one of the jobs. -/
  | answer (job : Nat)
  | go

/-- What has happened to the index. -/
inductive Event where
  | looked (thread : Nat) (seen : VectorStore)
  | swapped (thread : Nat) (swap : Swap) (installed replaced : VectorStore)

/-- What comes of a move. -/
structure Turn where
  phase : Phase
  index : VectorIndex
  event? : Option Event
  /-- The call if this was its start. -/
  call? : Option Call
  /-- What the call gives back if this was its end. -/
  answer? : Option Answer

/-- A move inside a call that is about the thread alone. -/
def Turn.quiet (phase : Phase) (index : VectorIndex) : Turn :=
  ⟨phase, index, none, none, none⟩

/-- The start of a call. -/
def Phase.ofCall : Call → Phase
  | .snapshot => .waiting .look
  | .swap (.replace store) => .waiting (.swap (.replace store) ⟨store, []⟩)
  | .swap (.rebuild analyses embedder) =>
    .building analyses embedder (List.replicate (EmbeddingJob.ofAnalyses analyses).length none)

/-- A move of the thread with a given number, if it can make it. Whether the lock may be had depends
on the other threads. -/
def Phase.next (number : Nat) (admits : Mode → Bool) (index : VectorIndex) :
    Phase → Move → Option Turn
  | .idle, .call call => some ⟨.ofCall call, index, none, some call, none⟩
  | .building analyses embedder answers, .answer k =>
    match (EmbeddingJob.ofAnalyses analyses)[k]?, answers[k]? with
    | some job, some none =>
      let answers := answers.set k (some (embedder.embed job.prompt))
      some (.quiet (.building analyses embedder answers) index)
    | _, _ => none
  | .building analyses embedder answers, .go =>
    match answers.mapM id with
    | some answers =>
      let build := StoreBuild.ofAnswers ((EmbeddingJob.ofAnalyses analyses).zip answers)
      some (.quiet (.waiting (.swap (.rebuild analyses embedder) build)) index)
    | none => none
  | .waiting task, .go => if admits task.mode then some (.quiet (.holding task) index) else none
  | .holding .look, .go =>
    some ⟨.leaving .shared (.snapshot index.snapshot), index, some (.looked number index.snapshot),
      none, none⟩
  | .holding (.swap swap build), .go =>
    some (.quiet (.taken swap build (index.replace build.store).1) index)
  | .taken swap build replaced, .go =>
    some ⟨.leaving .exclusive (swap.answer build replaced), (index.replace build.store).2,
      some (.swapped number swap build.store replaced), none, none⟩
  | .leaving _ answer, .go => some ⟨.idle, index, none, none, some answer⟩
  | _, _ => none

/-- A thread behind a move. -/
def Thread.after (t : Thread) (turn : Turn) : Thread where
  phase := turn.phase
  called := t.called ++ turn.call?.toList
  returned := t.returned ++ turn.answer?.toList

/-! ### All threads -/

/-- The index, the threads that share it, and everything that has happened to it so far. -/
structure State where
  index : VectorIndex
  threads : List Thread
  history : List Event

/-- A store in use, and threads that are in no call. -/
def State.start (store : VectorStore) (threads : Nat) : State :=
  ⟨⟨store⟩, List.replicate threads ⟨.idle, [], []⟩, []⟩

/-- Whether the lock may be had: nobody holds it, or it is shared. -/
def State.admits (s : State) (mode : Mode) : Bool :=
  s.threads.all fun t => t.phase.mode?.all fun held => mode = .shared ∧ held = .shared

/-- One move of a thread. Nothing comes of a move that the thread cannot make. -/
def State.step (s : State) (move : Nat × Move) : State :=
  match s.threads[move.1]? with
  | none => s
  | some thread =>
    match thread.phase.next move.1 s.admits s.index move.2 with
    | none => s
    | some turn =>
      { index := turn.index
        threads := s.threads.set move.1 (thread.after turn)
        history := s.history ++ turn.event?.toList }

/-- Moves of the threads, in any order. -/
def State.run (s : State) (moves : List (Nat × Move)) : State :=
  moves.foldl State.step s

end CodeAtlas.SharedIndex
