import CodeAtlas.Vector.Pool
import CodeAtlas.Proofs.Vector.Build
import Mathlib.Algebra.Ring.Nat
import Mathlib.Data.List.Perm.Basic

/-!
# `CodeAtlas.Proofs.Vector.Pool`: what is built does not depend on the workers

What one move of the workers does is said once (`Moved`, `moved_of_move`): it is about one task, and
the tasks before and behind it stay. The invariant of all moves (`Sound`) relates what has been
asked, counted and reported to the stages of the tasks, and it is kept by every move (`sound_move`)
and so by every run (`sound_run`). A task whose answer is in its place was asked once, counted once
and reported once. This gives the numbers and the prompts of a pool at its end; that its store is
the one of the answers in order follows since an answer depends on the prompt alone.

Every move makes the work that is left smaller by one (`left_moved`), and as long as an answer is
not in its place, some move can be made (`exists_move`). So the workers come to an end whatever
order they take.

The theorem is `built_under_any_schedule`.
-/

set_option autoImplicit false

namespace CodeAtlas

open StoreBuild (answersOf outcomesOf dimensionOf?)

/-! ### What a stage tells -/

namespace EmbeddingStage

/-- Whether the embedder was asked. -/
def isAsked : EmbeddingStage → Bool
  | .waiting => false
  | .asked | .answered _ | .counted _ _ | .placed _ => true

/-- Whether the chunk was counted. -/
def isCounted : EmbeddingStage → Bool
  | .waiting | .asked | .answered _ => false
  | .counted _ _ | .placed _ => true

/-- The answer of the embedder, if it has come. -/
def answer? : EmbeddingStage → Option (Except String (List Single))
  | .waiting | .asked => none
  | .answered answer | .counted answer _ | .placed answer => some answer

/-- The number that is to be reported next for the chunk. -/
def number? : EmbeddingStage → Option Nat
  | .counted _ number => some number
  | .waiting | .asked | .answered _ | .placed _ => none

/-- How many moves are left for the chunk. -/
def left : EmbeddingStage → Nat
  | .waiting => 4
  | .asked => 3
  | .answered _ => 2
  | .counted _ _ => 1
  | .placed _ => 0

/-- An answer in its place has come, was asked for and counted, and nothing is left to do. All that
is to be shown at the end of the work is in the last stage of each task. -/
theorem of_placed?_eq_some {stage : EmbeddingStage} {answer : Except String (List Single)}
    (h : stage.placed? = some answer) :
    stage.answer? = some answer ∧ stage.isAsked = true ∧ stage.isCounted = true ∧
      stage.number? = none := by
  cases stage with
  | placed found => exact ⟨h, rfl, rfl, rfl⟩
  | waiting | asked | answered _ | counted _ _ => cases h

end EmbeddingStage

namespace EmbeddingPool

/-- A list at a place that it has, and the same list with something else there. -/
theorem exists_split {α : Type} {xs : List α} {k : Nat} {x : α} (h : xs[k]? = some x) :
    ∃ before behind, before.length = k ∧ xs = before ++ x :: behind ∧
      ∀ y, xs.set k y = before ++ y :: behind := by
  induction xs generalizing k with
  | nil => simp at h
  | cons first rest ih =>
    cases k with
    | zero =>
      obtain rfl : first = x := by simpa using h
      exact ⟨[], rest, rfl, rfl, fun y => rfl⟩
    | succ k =>
      obtain ⟨before, behind, hlength, hsplit, hset⟩ := ih (by simpa using h)
      exact ⟨first :: before, behind, by simp [hlength], by simp [hsplit], fun y => by simp [hset]⟩

/-! ### What a move does -/

/-- A move from one pool to another: which task it is about, and what it adds to what the workers
have done. -/
inductive Moved (workers : Nat) (embedder : Embedder) : EmbeddingPool → EmbeddingPool → Prop where
  | ask {before behind job count asked reported}
      (free : inWork ⟨before ++ ⟨job, .waiting⟩ :: behind, count, asked, reported⟩ < workers) :
      Moved workers embedder ⟨before ++ ⟨job, .waiting⟩ :: behind, count, asked, reported⟩
        ⟨before ++ ⟨job, .asked⟩ :: behind, count, asked ++ [(before.length, job.prompt)], reported⟩
  | answer {before behind job count asked reported} :
      Moved workers embedder ⟨before ++ ⟨job, .asked⟩ :: behind, count, asked, reported⟩
        ⟨before ++ ⟨job, .answered (embedder.embed job.prompt)⟩ :: behind, count, asked, reported⟩
  | count {before behind job count asked reported answer} :
      Moved workers embedder ⟨before ++ ⟨job, .answered answer⟩ :: behind, count, asked, reported⟩
        ⟨before ++ ⟨job, .counted answer (count + 1)⟩ :: behind, count + 1, asked, reported⟩
  | place {before behind job count asked reported answer number} :
      Moved workers embedder
        ⟨before ++ ⟨job, .counted answer number⟩ :: behind, count, asked, reported⟩
        ⟨before ++ ⟨job, .placed answer⟩ :: behind, count, asked, reported ++ [number]⟩

section

variable {workers : Nat} {embedder : Embedder} {p q : EmbeddingPool}

/-- A move that succeeds is one of the four, with the task it works on between those it leaves
alone. -/
theorem moved_of_move {k : Nat} (h : p.move workers embedder k = some q) :
    Moved workers embedder p q := by
  obtain ⟨tasks, count, asked, reported⟩ := p
  unfold move at h
  -- One case for each stage of the task that is read; the tasks on both sides of it stay.
  split at h
  · cases h
  · rename_i job htask
    obtain ⟨before, behind, rfl, rfl, hset⟩ := exists_split htask
    split at h
    · rename_i hfree
      simp only [hset, Option.some.injEq] at h
      exact h ▸ .ask hfree
    · cases h
  · rename_i job htask
    obtain ⟨before, behind, rfl, rfl, hset⟩ := exists_split htask
    simp only [hset, Option.some.injEq] at h
    exact h ▸ .answer
  · rename_i job answer htask
    obtain ⟨before, behind, rfl, rfl, hset⟩ := exists_split htask
    simp only [hset, Option.some.injEq] at h
    exact h ▸ .count
  · rename_i job answer number htask
    obtain ⟨before, behind, rfl, rfl, hset⟩ := exists_split htask
    simp only [hset, Option.some.injEq] at h
    exact h ▸ .place
  · cases h

/-! ### The invariant -/

/-- What was asked for the tasks, in their order; the first of them has the place `first`. -/
def askedOf (tasks : List EmbeddingTask) (first : Nat) : List (Nat × String) :=
  ((tasks.zipIdx first).filter fun t => t.1.stage.isAsked).map fun t => (t.2, t.1.job.prompt)

/-- What the tasks have asked for splits at any one of them, so a move changes the part of its own
task. -/
@[simp] theorem askedOf_append_cons (before behind : List EmbeddingTask) (task : EmbeddingTask) :
    askedOf (before ++ task :: behind) 0 =
      askedOf before 0 ++
        (if task.stage.isAsked then [(before.length, task.job.prompt)] else []) ++
          askedOf behind (before.length + 1) := by
  unfold askedOf
  split
  · rename_i hasked
    simp [List.zipIdx_append, hasked]
  · rename_i hasked
    simp [List.zipIdx_append, hasked]

/-- The numbers that are to be reported next for the tasks. -/
def numbersOf (tasks : List EmbeddingTask) : List Nat :=
  tasks.filterMap fun task => task.stage.number?

/-- The same for the numbers that are drawn and not yet reported. -/
@[simp] theorem numbersOf_append_cons (before behind : List EmbeddingTask)
    (task : EmbeddingTask) :
    numbersOf (before ++ task :: behind)
      = numbersOf before ++ (task.stage.number?.toList ++ numbersOf behind) := by
  cases hnumber : task.stage.number? with
  | none => simp [numbersOf, hnumber]
  | some number => simp [numbersOf, hnumber]

/-- How what the workers have done fits the stages of the tasks. -/
structure Sound (workers : Nat) (embedder : Embedder) (jobs : List EmbeddingJob)
    (p : EmbeddingPool) : Prop where
  jobs : p.tasks.map EmbeddingTask.job = jobs
  /-- No worker has two chunks in work. -/
  workers : p.inWork ≤ workers
  /-- An answer is the one to the prompt of its own chunk. -/
  answers : ∀ task ∈ p.tasks, ∀ answer, task.stage.answer? = some answer →
    answer = embedder.embed task.job.prompt
  asked : p.asked.Perm (askedOf p.tasks 0)
  count : p.tasks.countP (fun task => task.stage.isCounted) = p.count
  /-- Every number up to the counter has been reported once or is to be reported once. -/
  reported : (p.reported ++ numbersOf p.tasks).Perm ((List.range p.count).map (· + 1))

/-- Before the first move every task is waiting: nothing is asked, counted or reported. -/
theorem sound_start (workers : Nat) (embedder : Embedder) (jobs : List EmbeddingJob) :
    Sound workers embedder jobs (start jobs) := by
  -- Each part of the invariant counts tasks of other stages, and there are none.
  have hwaiting : ∀ task ∈ (start jobs).tasks, task.stage = .waiting := by simp [start]
  refine ⟨?_, ?_, ?_, ?_, ?_, ?_⟩
  · simp [start, Function.comp_def]
  · have hnone : (start jobs).inWork = 0 :=
      List.countP_eq_zero.mpr fun task ht => by simp [hwaiting task ht, EmbeddingStage.isInWork]
    omega
  · intro task ht answer hanswer
    rw [hwaiting task ht] at hanswer
    cases hanswer
  · have hnone : askedOf (start jobs).tasks 0 = [] := by
      simp only [askedOf, List.map_eq_nil_iff, List.filter_eq_nil_iff]
      intro t ht
      simp [hwaiting t.1 (List.fst_mem_of_mem_zipIdx ht), EmbeddingStage.isAsked]
    rw [hnone]
    exact List.Perm.refl _
  · exact List.countP_eq_zero.mpr fun task ht => by
      simp [hwaiting task ht, EmbeddingStage.isCounted]
  · have hnone : numbersOf (start jobs).tasks = [] :=
      List.filterMap_eq_nil_iff.mpr fun task ht => by
        simp [hwaiting task ht, EmbeddingStage.number?]
    rw [hnone]
    exact List.Perm.refl _

/-- What holds of all tasks still does when one has changed, if the change keeps it. A move looks at
one task only. -/
theorem forall_mem_of_changed {P : EmbeddingTask → Prop} {before behind : List EmbeddingTask}
    {old new : EmbeddingTask} (h : ∀ task ∈ before ++ old :: behind, P task)
    (hkeeps : P old → P new) : ∀ task ∈ before ++ new :: behind, P task := by
  simp only [List.forall_mem_append, List.forall_mem_cons] at h ⊢
  exact ⟨h.1, hkeeps h.2.1, h.2.2⟩

/-- Each of the four moves preserves the invariant. -/
theorem sound_moved {jobs : List EmbeddingJob} (h : Sound workers embedder jobs p)
    (hmoved : Moved workers embedder p q) : Sound workers embedder jobs q := by
  obtain ⟨hjobs, hworkers, hanswers, hasked, hcount, hreported⟩ := h
  -- Each move changes what is said of one stage: the rest of the invariant is as it was.
  cases hmoved with
  | @ask before behind job count asked reported free =>
    refine ⟨by simpa using hjobs, ?_, ?_, ?_, ?_, ?_⟩
    · simp [inWork, EmbeddingStage.isInWork] at free ⊢
      omega
    · exact forall_mem_of_changed hanswers fun _ => by simp [EmbeddingStage.answer?]
    · -- What is asked for the task comes last in time, but in its place among the tasks.
      have hold : asked.Perm (askedOf before 0 ++ askedOf behind (before.length + 1)) := by
        simpa [EmbeddingStage.isAsked] using hasked
      have hnew : (asked ++ [(before.length, job.prompt)]).Perm
          (askedOf before 0 ++ (before.length, job.prompt) :: askedOf behind (before.length + 1)) :=
        (List.perm_append_singleton _ _).trans ((hold.cons _).trans List.perm_middle.symm)
      simpa [EmbeddingStage.isAsked] using hnew
    · simpa [EmbeddingStage.isCounted] using hcount
    · simpa [EmbeddingStage.number?] using hreported
  | @answer before behind job count asked reported =>
    refine ⟨by simpa using hjobs, ?_, ?_, ?_, ?_, ?_⟩
    · simpa [inWork, EmbeddingStage.isInWork] using hworkers
    · exact forall_mem_of_changed hanswers fun _ => by simp [EmbeddingStage.answer?]
    · simpa [EmbeddingStage.isAsked] using hasked
    · simpa [EmbeddingStage.isCounted] using hcount
    · simpa [EmbeddingStage.number?] using hreported
  | @count before behind job count asked reported answer =>
    refine ⟨by simpa using hjobs, ?_, ?_, ?_, ?_, ?_⟩
    · simpa [inWork, EmbeddingStage.isInWork] using hworkers
    · exact forall_mem_of_changed hanswers fun hold => hold
    · simpa [EmbeddingStage.isAsked] using hasked
    · simp [EmbeddingStage.isCounted] at hcount ⊢
      omega
    · -- The number that the counter has come to is the one that is new.
      have hold : (reported ++ numbersOf before ++ numbersOf behind).Perm
          ((List.range count).map (· + 1)) := by
        simpa [EmbeddingStage.number?] using hreported
      have hnew : (reported ++ numbersOf before ++ (count + 1) :: numbersOf behind).Perm
          ((List.range count).map (· + 1) ++ [count + 1]) :=
        List.perm_middle.trans ((hold.cons _).trans (List.perm_append_singleton _ _).symm)
      simpa [EmbeddingStage.number?, List.range_succ] using hnew
  | @place before behind job count asked reported answer number =>
    refine ⟨by simpa using hjobs, ?_, ?_, ?_, ?_, ?_⟩
    · simp [inWork, EmbeddingStage.isInWork] at hworkers ⊢
      omega
    · exact forall_mem_of_changed hanswers fun hold => hold
    · simpa [EmbeddingStage.isAsked] using hasked
    · simpa [EmbeddingStage.isCounted] using hcount
    · -- The number goes from the task to the reported ones.
      have hold : (reported ++ (numbersOf before ++ number :: numbersOf behind)).Perm
          ((List.range count).map (· + 1)) := by
        simpa [EmbeddingStage.number?] using hreported
      have hnew := (List.perm_middle.symm.append_left reported).trans hold
      simpa [EmbeddingStage.number?] using hnew

/-- A run is a move and the run behind it. -/
theorem run?_cons_eq_some_iff {k : Nat} {moves : List Nat} :
    p.run? workers embedder (k :: moves) = some q ↔
      ∃ between, p.move workers embedder k = some between ∧
        between.run? workers embedder moves = some q := by
  rw [run?, List.foldlM_cons]
  exact Option.bind_eq_some_iff

/-- So it holds after any moves. -/
theorem sound_run {jobs : List EmbeddingJob} {moves : List Nat} (h : Sound workers embedder jobs p)
    (hrun : p.run? workers embedder moves = some q) : Sound workers embedder jobs q := by
  induction moves generalizing p with
  | nil =>
    obtain rfl : p = q := Option.some.inj hrun
    exact h
  | cons k moves ih =>
    obtain ⟨between, hmove, hrest⟩ := run?_cons_eq_some_iff.mp hrun
    exact ih (sound_moved h (moved_of_move hmove)) hrest

/-! ### How the work goes on -/

/-- How many moves are left. -/
def left (p : EmbeddingPool) : Nat :=
  (p.tasks.map fun task => task.stage.left).sum

/-- Every task has four moves before it. -/
theorem left_start (jobs : List EmbeddingJob) : (start jobs).left = 4 * jobs.length := by
  simp [left, start, EmbeddingStage.left, Function.comp_def]
  omega

/-- Each move uses up one of those left. -/
theorem left_moved (hmoved : Moved workers embedder p q) : q.left + 1 = p.left := by
  cases hmoved <;> simp [left, EmbeddingStage.left] <;> omega

/-- So no run has more moves than the start leaves. -/
theorem left_run {moves : List Nat} (hrun : p.run? workers embedder moves = some q) :
    q.left + moves.length = p.left := by
  induction moves generalizing p with
  | nil =>
    obtain rfl : p = q := Option.some.inj hrun
    simp
  | cons k moves ih =>
    obtain ⟨between, hmove, hrest⟩ := run?_cons_eq_some_iff.mp hrun
    have hfirst := left_moved (moved_of_move hmove)
    have hbehind := ih hrest
    simp only [List.length_cons]
    omega

/-- A task whose answer is not in its place can go on, if a worker is free to take it. -/
theorem exists_move_of_mem {task : EmbeddingTask} (hmem : task ∈ p.tasks)
    (hopen : task.stage.placed? = none) (hfree : task.stage = .waiting → p.inWork < workers) :
    ∃ k q, p.move workers embedder k = some q := by
  obtain ⟨k, hk⟩ := List.getElem?_of_mem hmem
  obtain ⟨job, stage⟩ := task
  refine ⟨k, Option.isSome_iff_exists.mp ?_⟩
  cases stage with
  | waiting => simp [move, hk, hfree rfl]
  | asked => simp [move, hk]
  | answered answer => simp [move, hk]
  | counted answer number => simp [move, hk]
  | placed answer => cases hopen

/-- The workers do not stand in each other's way: as long as the store cannot be built, one of them
can make a move. -/
theorem exists_move (hworkers : 0 < workers) (hbuild : p.build? = none) :
    ∃ k q, p.move workers embedder k = some q := by
  by_cases hwork : ∃ task ∈ p.tasks, task.stage.isInWork = true
  · obtain ⟨task, hmem, hin⟩ := hwork
    -- A worker that has a chunk in work needs nobody to go on.
    refine exists_move_of_mem hmem ?_ fun hwaiting => ?_
    · cases hstage : task.stage with
      | placed answer => simp [hstage, EmbeddingStage.isInWork] at hin
      | waiting | asked | answered _ | counted _ _ => rfl
    · simp [hwaiting, EmbeddingStage.isInWork] at hin
  · have hnone : p.inWork = 0 :=
      List.countP_eq_zero.mpr fun task hmem hin => hwork ⟨task, hmem, hin⟩
    have hopen : ∃ task ∈ p.tasks, task.stage.placed? = none := by
      simpa [build?] using hbuild
    obtain ⟨task, hmem, hplaced⟩ := hopen
    exact exists_move_of_mem hmem hplaced fun _ => by omega

/-- The workers can come to the end of the work. -/
theorem exists_run_build (hworkers : 0 < workers) (embedder : Embedder) (p : EmbeddingPool) :
    ∃ moves q b, p.run? workers embedder moves = some q ∧ q.build? = some b := by
  -- Every move leaves less to do.
  induction hleft : p.left using Nat.strong_induction_on generalizing p with
  | h n ih =>
    cases hbuild : p.build? with
    | some b => exact ⟨[], p, b, rfl, hbuild⟩
    | none =>
      obtain ⟨k, between, hmove⟩ := exists_move hworkers hbuild
      have hless : between.left + 1 = p.left := left_moved (moved_of_move hmove)
      obtain ⟨moves, q, b, hrun, hq⟩ := ih between.left (by omega) between rfl
      exact ⟨k :: moves, q, b, run?_cons_eq_some_iff.mpr ⟨between, hmove, hrun⟩, hq⟩

/-! ### The end of the work -/

/-- A pool whose answers are all in their places, and what is built of them. -/
theorem forall_placed_of_build? {b : StoreBuild} (h : p.build? = some b) :
    (∀ task ∈ p.tasks, ∃ answer, task.stage.placed? = some answer) ∧
      b = .ofAnswers (p.tasks.filterMap fun task =>
        task.stage.placed?.map fun answer => (task.job, answer)) := by
  unfold build? at h
  split at h
  · rename_i hall
    refine ⟨fun task hmem => ?_, (Option.some.inj h).symm⟩
    exact Option.isSome_iff_exists.mp (List.all_eq_true.mp hall task hmem)
  · cases h

variable {jobs : List EmbeddingJob}

/-- The answers stand in the order of the chunks, for each waits in the place of its own task until
all have come. -/
theorem build?_of_sound {b : StoreBuild} (h : Sound workers embedder jobs p)
    (hbuild : p.build? = some b) :
    b = .ofAnswers (jobs.map fun job => (job, embedder.embed job.prompt)) := by
  obtain ⟨hplaced, rfl⟩ := forall_placed_of_build? hbuild
  -- Which worker asked, and when, cannot be seen in the answer.
  have hanswers : ∀ task ∈ p.tasks, task.stage.placed?.map (fun answer => (task.job, answer))
      = some (task.job, embedder.embed task.job.prompt) := by
    intro task hmem
    obtain ⟨answer, hanswer⟩ := hplaced task hmem
    obtain ⟨hcome, -⟩ := EmbeddingStage.of_placed?_eq_some hanswer
    rw [hanswer, Option.map_some, h.answers task hmem answer hcome]
  rw [List.filterMap_congr hanswers, ← h.jobs, List.map_map]
  exact congrArg _ (congrFun List.filterMap_eq_map _)

/-- A pool whose results can be collected has asked for every chunk, and once: the invariant knows
it of each task by its stage, and collecting needs the last stage of all. -/
theorem asked_of_sound {b : StoreBuild} (h : Sound workers embedder jobs p)
    (hbuild : p.build? = some b) :
    p.asked.Perm (jobs.zipIdx.map fun (job, k) => (k, job.prompt)) := by
  obtain ⟨hplaced, -⟩ := forall_placed_of_build? hbuild
  have hall : askedOf p.tasks 0 = jobs.zipIdx.map fun (job, k) => (k, job.prompt) := by
    rw [askedOf, List.filter_eq_self.mpr, ← h.jobs, List.zipIdx_map, List.map_map]
    · rfl
    · intro t ht
      obtain ⟨answer, hanswer⟩ := hplaced t.1 (List.fst_mem_of_mem_zipIdx ht)
      exact (EmbeddingStage.of_placed?_eq_some hanswer).2.1
  exact hall ▸ h.asked

/-- In the last stage no number is outstanding, so all that were counted are reported. -/
theorem reported_of_sound {b : StoreBuild} (h : Sound workers embedder jobs p)
    (hbuild : p.build? = some b) :
    p.reported.Perm ((List.range jobs.length).map (· + 1)) := by
  obtain ⟨hplaced, -⟩ := forall_placed_of_build? hbuild
  have hdone (task : EmbeddingTask) (hmem : task ∈ p.tasks) :
      task.stage.isCounted = true ∧ task.stage.number? = none := by
    obtain ⟨answer, hanswer⟩ := hplaced task hmem
    exact (EmbeddingStage.of_placed?_eq_some hanswer).2.2
  -- What is reported and what is outstanding are all numbers; the second part is empty now.
  have hnumbers : numbersOf p.tasks = [] :=
    List.filterMap_eq_nil_iff.mpr fun task hmem => (hdone task hmem).2
  have hcount : p.count = jobs.length := by
    rw [← h.count, ← h.jobs, List.length_map]
    exact List.countP_eq_length.mpr fun task hmem => (hdone task hmem).1
  have hreported := h.reported
  rwa [hnumbers, List.append_nil, hcount] at hreported

end

/-- There is always a worker, so a pool with a task that waits can move. -/
theorem workers_pos (available : Bool) (concurrency : Nat) : 0 < workers available concurrency := by
  unfold workers
  split
  · omega
  · omega

/-- **Whatever the workers do, nothing is lost or mixed.** Take any records, any embedder, any
number of workers, and any moves that the workers can make from the start. No more chunks are in
work than there are workers, no more than four moves are made for a chunk, and as long as the store
cannot be built, a worker can go on, so that the work comes to its end. Then the embedder has been
asked for each chunk once, with the prompt of the chunk, and each number up to the number of chunks
has been reported once. Each chunk has, in order, a record with its vector or a diagnostic with its
name. All vectors of records have one length that is not zero, which is that of the first vector
that is not empty, and every vector of this length is kept. What is built is what one worker builds
that takes one chunk after the other. -/
theorem built_under_any_schedule (analyses : List FileAnalysis) (embedder : Embedder)
    (available : Bool) (concurrency : Nat) (moves : List Nat) (p : EmbeddingPool)
    (hrun : (start (EmbeddingJob.ofAnalyses analyses)).run? (workers available concurrency)
      embedder moves = some p) :
    let jobs := EmbeddingJob.ofAnalyses analyses
    let dimension? := dimensionOf? (answersOf analyses embedder)
    (p.inWork ≤ workers available concurrency ∧ moves.length ≤ 4 * jobs.length ∧
      (p.build? = none → ∃ k q, p.move (workers available concurrency) embedder k = some q) ∧
      ∃ more q b, p.run? (workers available concurrency) embedder more = some q ∧
        q.build? = some b) ∧
    ∀ b, p.build? = some b →
      p.asked.Perm (jobs.zipIdx.map fun (job, k) => (k, job.prompt)) ∧
      p.reported.Perm ((List.range jobs.length).map (· + 1)) ∧
      b.store.records = Outcomes.made (outcomesOf analyses embedder) ∧
      b.diagnostics = Outcomes.reported (outcomesOf analyses embedder) ∧
      (∀ r ∈ b.store.records, r.vector ≠ [] ∧ dimension? = some r.vector.length) ∧
      (∀ job ∈ jobs, ∀ vector, embedder.embed job.prompt = .ok vector → vector ≠ [] →
        dimension? = some vector.length → job.record vector ∈ b.store.records) ∧
      b = StoreBuild.build analyses embedder := by
  intro jobs dimension?
  have hsound := sound_run (sound_start _ embedder jobs) hrun
  have hworkers := workers_pos available concurrency
  refine ⟨⟨hsound.workers, ?_, exists_move hworkers, exists_run_build hworkers embedder p⟩, ?_⟩
  · have hleft := (left_run hrun).trans (left_start jobs)
    omega
  · intro b hbuild
    -- The rest is then what is known of the build without workers.
    have hb : b = StoreBuild.build analyses embedder := build?_of_sound hsound hbuild
    have hrecords : b.store.records = Outcomes.made (outcomesOf analyses embedder) := by
      rw [hb, StoreBuild.build_eq]
    have hdiagnostics : b.diagnostics = Outcomes.reported (outcomesOf analyses embedder) := by
      rw [hb, StoreBuild.build_eq]
    refine ⟨asked_of_sound hsound hbuild, reported_of_sound hsound hbuild, hrecords, hdiagnostics,
      ?_, ?_, hb⟩
    · intro r hr
      rw [hb] at hr
      exact StoreBuild.dimension_of_mem_build analyses embedder hr
    · intro job hjob vector hvector hne hdimension
      rw [hb]
      exact StoreBuild.record_mem_build analyses embedder hjob hvector hne hdimension

/-- Two workers embed four chunks of two files. The first chunk is refused last of all, a vector of
another length comes first, and the second and the third number are reported in the other order. -/
theorem built_under_any_schedule_two_workers :
    let chunk : FileId → Nat → String → Chunk := fun id k text => ⟨id, k, text, k, k⟩
    let a : FileAnalysis := ⟨⟨"/p/a.rs"⟩, "a.rs", "rs", [chunk "a.rs" 0 "refused",
      chunk "a.rs" 1 "kept", chunk "a.rs" 2 "odd"], [], [], [], 3, "", ""⟩
    let b : FileAnalysis :=
      ⟨⟨"/p/b.rs"⟩, "b.rs", "rs", [chunk "b.rs" 0 "empty"], [], [], [], 1, "", ""⟩
    let embedder : Embedder := ⟨"m", fun text =>
      if text = chunkPrompt "a.rs" "refused" then .error "down"
      else if text = chunkPrompt "a.rs" "kept" then .ok [.one]
      else if text = chunkPrompt "a.rs" "odd" then .ok [.one, .one]
      else .ok []⟩
    let moves := [2, 1, 2, 2, 2, 3, 3, 1, 3, 1, 1, 3, 0, 0, 0, 0]
    ∃ p build,
      (start (EmbeddingJob.ofAnalyses [a, b])).run? (workers true 2) embedder moves = some p ∧
      p.build? = some build ∧ p.reported = [1, 3, 2, 4] ∧ p.reported.Perm [1, 2, 3, 4] ∧
      build = StoreBuild.build [a, b] embedder ∧
      build.store.records = [⟨"a.rs", 1, "kept", [.one], "rs"⟩] ∧
      build.diagnostics = [⟨.embeddingFailure, "a.rs#0", "down"⟩,
        ⟨.embeddingFailure, "a.rs#2", "dimension 2 does not match store dimension 1"⟩,
        ⟨.embeddingFailure, "b.rs#0", "embedder returned an empty vector"⟩] := by
  intro chunk a b embedder moves
  -- The run is computed once, with everything that is to be read off its end.
  have hend : ((start (EmbeddingJob.ofAnalyses [a, b])).run? (workers true 2) embedder moves).bind
      (fun p => p.build?.map fun build => (p.reported, build)) =
        some ([1, 3, 2, 4], ⟨⟨[⟨"a.rs", 1, "kept", [.one], "rs"⟩]⟩,
          [⟨.embeddingFailure, "a.rs#0", "down"⟩,
            ⟨.embeddingFailure, "a.rs#2", "dimension 2 does not match store dimension 1"⟩,
            ⟨.embeddingFailure, "b.rs#0", "embedder returned an empty vector"⟩]⟩) := by
    decide +kernel
  obtain ⟨p, hrun, hp⟩ := Option.bind_eq_some_iff.mp hend
  obtain ⟨build, hbuild, hpair⟩ := Option.map_eq_some_iff.mp hp
  obtain ⟨hreported, rfl⟩ := Prod.mk.inj hpair
  obtain ⟨-, hall⟩ := built_under_any_schedule [a, b] embedder true 2 moves p hrun
  obtain ⟨-, hnumbers, -, -, -, -, heq⟩ := hall _ hbuild
  exact ⟨p, _, hrun, hbuild, hreported, hnumbers, heq, rfl, rfl⟩

end EmbeddingPool

end CodeAtlas
