import CodeAtlas.Vector.Build
import CodeAtlas.Proofs.Outcomes

/-!
# `CodeAtlas.Proofs.Vector.Build`: every chunk is embedded or reported

`StoreBuild.collect` carries the dimension from one answer to the next. What becomes of a chunk can
be told without it: the dimension is the length of the first vector that is not empty
(`dimensionOf?`), and then each answer has an outcome of its own, which is a record or a diagnostic
(`outcome`). `collect_eq` is this equation. The rest follows from it:

* `length_build`: there are as many records and diagnostics as chunks.
* `keys_build`: the keys of the records are those of their chunks, in order.
* `kind_of_mem_build`: the diagnostics are failures to embed.
* `dimension_of_mem_build`, `record_mem_build`: the vectors of a store have one length, and no
  vector of this length is left out.
-/

set_option autoImplicit false

namespace CodeAtlas

open Outcomes (made reported)

/-- What the record of a chunk is found by. -/
def EmbeddingJob.key (j : EmbeddingJob) : FileId × Nat :=
  (j.analysis.id, j.chunk.index)

/-- A record is found by the chunk it was made for. -/
theorem EmbeddingJob.key_record (j : EmbeddingJob) (vector : List Single) :
    (j.record vector).key = j.key := rfl

/-- What is reported of a chunk that has no vector. -/
def EmbeddingJob.diagnostic (j : EmbeddingJob) (fault : EmbeddingFault) : Diagnostic :=
  ⟨.embeddingFailure, j.subject, fault.message⟩

namespace StoreBuild

/-- The length of the first vector that is not empty. -/
def dimensionOf? (answers : List (EmbeddingJob × Except String (List Single))) : Option Nat :=
  ((answers.filterMap fun a => a.2.toOption).find? (· ≠ [])).map List.length

/-- What becomes of a chunk: the record with its vector, if the vector has the dimension of the
store, and otherwise a diagnostic. -/
def outcome (dimension? : Option Nat) :
    EmbeddingJob × Except String (List Single) → EmbeddingRecord ⊕ Diagnostic
  | (job, .error message) => .inr (job.diagnostic (.refused message))
  | (job, .ok vector) =>
    if vector = [] then .inr (job.diagnostic .emptyVector)
    else if dimension? = some vector.length then .inl (job.record vector)
    else .inr (job.diagnostic (.dimension vector.length (dimension?.getD 0)))

/-- A failure says nothing about the length of the vectors. -/
@[simp] theorem dimensionOf?_error_cons (job : EmbeddingJob) (message : String)
    (rest : List (EmbeddingJob × Except String (List Single))) :
    dimensionOf? ((job, .error message) :: rest) = dimensionOf? rest := rfl

/-- Nor does an empty vector, which is a failure of its own. -/
@[simp] theorem dimensionOf?_empty_cons (job : EmbeddingJob)
    (rest : List (EmbeddingJob × Except String (List Single))) :
    dimensionOf? ((job, .ok []) :: rest) = dimensionOf? rest := rfl

/-- The first vector that is none of these sets the length. -/
theorem dimensionOf?_ok_cons (job : EmbeddingJob) {vector : List Single} (h : vector ≠ [])
    (rest : List (EmbeddingJob × Except String (List Single))) :
    dimensionOf? ((job, .ok vector) :: rest) = some vector.length := by
  simp [dimensionOf?, Except.toOption, h]

/-- The dimension that is carried along is the one that the first vector fixes, so the answers may
be judged one by one. -/
theorem collect_eq (dimension? : Option Nat)
    (answers : List (EmbeddingJob × Except String (List Single))) :
    collect dimension? answers =
      (made (answers.map (outcome (dimension?.or (dimensionOf? answers)))),
        reported (answers.map (outcome (dimension?.or (dimensionOf? answers))))) := by
  -- The dimension is general: the first vector that is taken fixes it for the rest.
  induction answers generalizing dimension? with
  | nil => rfl
  | cons first rest ih =>
    obtain ⟨job, answer⟩ := first
    cases answer with
    | error message => simp [collect, accept, outcome, ih dimension?, EmbeddingJob.diagnostic]
    | ok vector =>
      by_cases hempty : vector = []
      · subst hempty
        simp [collect, accept, outcome, ih dimension?, EmbeddingJob.diagnostic]
      · have hfirst := dimensionOf?_ok_cons job hempty rest
        cases dimension? with
        | none => simp [collect, accept, outcome, ih (some vector.length), hempty, hfirst]
        | some d =>
          -- A dimension that is there stays, and the vector has to fit it.
          by_cases hd : d = vector.length
          · subst hd
            simp [collect, accept, outcome, ih (some vector.length), hempty]
          · simp [collect, accept, outcome, ih (some d), hempty, hd, EmbeddingJob.diagnostic]

/-- The answers for all chunks of the given records. -/
def answersOf (analyses : List FileAnalysis) (embedder : Embedder) :
    List (EmbeddingJob × Except String (List Single)) :=
  (EmbeddingJob.ofAnalyses analyses).map fun job => (job, embedder.embed job.prompt)

/-- What becomes of all chunks of the given records. -/
def outcomesOf (analyses : List FileAnalysis) (embedder : Embedder) :
    List (EmbeddingRecord ⊕ Diagnostic) :=
  (answersOf analyses embedder).map (outcome (dimensionOf? (answersOf analyses embedder)))

/-- The loop that carries the length along is a map over the answers, once the length is known from
the start. -/
theorem build_eq (analyses : List FileAnalysis) (embedder : Embedder) :
    build analyses embedder =
      ⟨⟨made (outcomesOf analyses embedder)⟩, reported (outcomesOf analyses embedder)⟩ := by
  have hcollect := collect_eq none (answersOf analyses embedder)
  rw [Option.none_or] at hcollect
  rw [build, ofAnswers, ← answersOf, hcollect]
  rfl

/-- A chunk has a record if it was given a vector of the dimension of the store. -/
theorem outcome_eq_inl_iff {dimension? : Option Nat} {job : EmbeddingJob}
    {answer : Except String (List Single)} {r : EmbeddingRecord} :
    outcome dimension? (job, answer) = .inl r ↔
      ∃ vector, answer = .ok vector ∧ vector ≠ [] ∧ dimension? = some vector.length ∧
        job.record vector = r := by
  cases answer with
  | error message => simp [outcome]
  | ok vector =>
    -- A vector that is empty and one of another length have branches of their own.
    simp only [outcome]
    split
    · rename_i hempty
      simp [hempty]
    · rename_i hempty
      split
      · rename_i hdimension
        simp [hempty, hdimension]
      · rename_i hdimension
        simp [hdimension]

/-- What is reported of a chunk carries its name. -/
theorem exists_of_outcome_eq_inr {dimension? : Option Nat}
    {a : EmbeddingJob × Except String (List Single)} {d : Diagnostic}
    (h : outcome dimension? a = .inr d) : ∃ fault, d = a.1.diagnostic fault := by
  obtain ⟨job, answer⟩ := a
  cases answer with
  | error message => exact ⟨.refused message, (Sum.inr.inj h).symm⟩
  | ok vector =>
    simp only [outcome] at h
    split at h
    · exact ⟨.emptyVector, (Sum.inr.inj h).symm⟩
    · split at h
      · cases h
      · exact ⟨_, (Sum.inr.inj h).symm⟩

variable (analyses : List FileAnalysis) (embedder : Embedder)

/-- Every chunk gives a record or a diagnostic. -/
theorem length_build :
    (build analyses embedder).store.records.length + (build analyses embedder).diagnostics.length
      = (analyses.flatMap FileAnalysis.chunks).length := by
  have hjobs : (EmbeddingJob.ofAnalyses analyses).length
      = (analyses.flatMap FileAnalysis.chunks).length := by
    simp [EmbeddingJob.ofAnalyses, List.length_flatMap]
  rw [build_eq, Outcomes.length_made_add_length_reported, outcomesOf, List.length_map, answersOf,
    List.length_map, hjobs]

/-- The keys of the records are those of their chunks, so chunks with different keys give a store
that a table can hold. -/
theorem keys_build :
    ((build analyses embedder).store.records.map EmbeddingRecord.key).Sublist
      (analyses.flatMap fun a => a.chunks.map fun c => (a.id, c.index)) := by
  have hkeys : (answersOf analyses embedder).map (fun a => a.1.key) =
      analyses.flatMap fun a => a.chunks.map fun c => (a.id, c.index) := by
    rw [answersOf, EmbeddingJob.ofAnalyses, List.map_flatMap, List.map_flatMap]
    simp only [List.map_map]
    rfl
  rw [build_eq, ← hkeys]
  refine Outcomes.map_made_map_sublist fun a r h => ?_
  obtain ⟨vector, -, -, -, rfl⟩ := outcome_eq_inl_iff.mp h
  exact EmbeddingJob.key_record a.1 vector

/-- Building the store reports nothing but failed embeddings. -/
theorem kind_of_mem_build {d : Diagnostic} (hd : d ∈ (build analyses embedder).diagnostics) :
    d.kind = .embeddingFailure := by
  rw [build_eq] at hd
  obtain ⟨a, -, h⟩ := List.mem_map.mp (Outcomes.mem_reported.mp hd)
  obtain ⟨fault, rfl⟩ := exists_of_outcome_eq_inr h
  rfl

/-- All vectors in a store have the length of the first one that was not empty. -/
theorem dimension_of_mem_build {r : EmbeddingRecord}
    (hr : r ∈ (build analyses embedder).store.records) :
    r.vector ≠ [] ∧ dimensionOf? (answersOf analyses embedder) = some r.vector.length := by
  rw [build_eq] at hr
  obtain ⟨a, -, h⟩ := List.mem_map.mp (Outcomes.mem_made.mp hr)
  obtain ⟨vector, -, hne, hdimension, rfl⟩ := outcome_eq_inl_iff.mp h
  exact ⟨hne, hdimension⟩

/-- Every vector of that length is in the store. -/
theorem record_mem_build {job : EmbeddingJob} {vector : List Single}
    (hjob : job ∈ EmbeddingJob.ofAnalyses analyses)
    (hvector : embedder.embed job.prompt = .ok vector) (hne : vector ≠ [])
    (hdimension : dimensionOf? (answersOf analyses embedder) = some vector.length) :
    job.record vector ∈ (build analyses embedder).store.records := by
  have hanswer : (job, embedder.embed job.prompt) ∈ answersOf analyses embedder :=
    List.mem_map_of_mem hjob
  rw [build_eq]
  refine Outcomes.mem_made.mpr (List.mem_map.mpr ⟨_, hanswer, ?_⟩)
  exact outcome_eq_inl_iff.mpr ⟨vector, hvector, hne, hdimension, rfl⟩

end StoreBuild

end CodeAtlas
