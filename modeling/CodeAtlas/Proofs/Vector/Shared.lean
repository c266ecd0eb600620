import CodeAtlas.Vector.Shared
import Mathlib.Data.List.Basic

/-!
# `CodeAtlas.Proofs.Vector.Shared`: no store is lost, doubled or mixed

A history is legal if it could have been made by one call after the other (`Legal`). Which stores it
installs and hands back follows from that alone (`replacedIn_append_snapshot`, `seen_eq_of_legal`,
`installed_eq_of_legal`).

That threads make only legal histories is proved by moves. What one turn of a thread does is said
once (`Turn.Fits`, `fits_of_next`). The invariant of all threads (`State.Sound`) has two parts that
need each other: a thread that holds the lock alone keeps the others out, and so the store that it
has taken is still in use when it puts its own in the place. It is kept by every move
(`sound_step`). The theorems:

* `stores_kept`: whatever moves the threads make, no store is lost, doubled or mixed, and what a
  thread was given stays.
* `exists_run_alone`: a thread that nobody stands in the way of makes its call as if it were alone.
-/

set_option autoImplicit false

namespace CodeAtlas.SharedIndex

/-! ### Histories of one index -/

/-- The stores that the swaps of a history handed back. -/
def replacedIn (history : List Event) : List VectorStore :=
  history.filterMap fun
    | .looked _ _ => none
    | .swapped _ _ _ replaced => some replaced

/-- The stores that the swaps of a history installed. -/
def installedIn (history : List Event) : List VectorStore :=
  history.filterMap fun
    | .looked _ _ => none
    | .swapped _ _ installed _ => some installed

/-- The thread that made an event happen. -/
def Event.thread : Event → Nat
  | .looked thread _ | .swapped thread _ _ _ => thread

/-- The call of an event. -/
def Event.call : Event → Call
  | .looked _ _ => .snapshot
  | .swapped _ swap _ _ => .swap swap

/-- What the call of an event gives back. -/
def Event.answer : Event → Answer
  | .looked _ seen => .snapshot seen
  | .swapped _ swap _ replaced => swap.answer swap.build replaced

/-- What a thread has made happen. -/
def eventsOf (number : Nat) (history : List Event) : List Event :=
  history.filter fun e => e.thread = number

/-- One thread's part of a history is taken piece by piece. -/
theorem eventsOf_append (number : Nat) (before behind : List Event) :
    eventsOf number (before ++ behind) = eventsOf number before ++ eventsOf number behind :=
  List.filter_append _ _

/-- A piece that is all of one thread is its part of it. -/
theorem eventsOf_of_forall_eq {number : Nat} {history : List Event}
    (h : ∀ e ∈ history, e.thread = number) : eventsOf number history = history :=
  List.filter_eq_self.mpr fun e he => decide_eq_true (h e he)

/-- What another thread does leaves this one's part as it was. -/
theorem eventsOf_append_of_ne {number other : Nat} {before behind : List Event}
    (h : ∀ e ∈ behind, e.thread = number) (hne : number ≠ other) :
    eventsOf other (before ++ behind) = eventsOf other before := by
  have hnone : eventsOf other behind = [] :=
    List.filter_eq_nil_iff.mpr fun e he => by simpa [h e he] using hne
  rw [eventsOf_append, hnone, List.append_nil]

/-- Whether a history is one of calls that are made one after the other, from one index to another:
every snapshot is the store in use, and every swap installs the store that its call alone tells. -/
def Legal : VectorIndex → List Event → VectorIndex → Prop
  | index, [], last => last = index
  | index, .looked _ seen :: rest, last => seen = index.snapshot ∧ Legal index rest last
  | index, .swapped _ swap installed replaced :: rest, last =>
    installed = swap.build.store ∧ replaced = (index.replace installed).1 ∧
      Legal (index.replace installed).2 rest last

variable {index last : VectorIndex} {history before behind : List Event}

/-- A legal history is cut at any point by the index at that point. -/
theorem legal_append_iff :
    Legal index (before ++ behind) last ↔
      ∃ between, Legal index before between ∧ Legal between behind last := by
  induction before generalizing index with
  | nil => simp [Legal]
  | cons event before ih =>
    cases event with
    | looked thread seen => simp [Legal, ih, and_assoc]
    | swapped thread swap installed replaced => simp [Legal, ih, and_assoc]

/-- The stores that were handed back, and behind them the store in use, are the first store and
behind it those that were installed. Each swap hands back what it found, which is what the one
before it left. -/
theorem replacedIn_append_snapshot (h : Legal index history last) :
    replacedIn history ++ [last.snapshot] = index.snapshot :: installedIn history := by
  induction history generalizing index with
  | nil => rw [show last = index from h]; rfl
  | cons event history ih =>
    cases event with
    | looked thread seen => exact ih h.2
    | swapped thread swap installed replaced =>
      obtain ⟨-, rfl, hrest⟩ := h
      exact congrArg (index.snapshot :: ·) (ih hrest)

/-- The store in use is the one that was installed last. -/
theorem snapshot_eq_getLastD (h : Legal index history last) :
    last.snapshot = (installedIn history).getLastD index.snapshot := by
  have hlast := congrArg List.getLast? (replacedIn_append_snapshot h)
  rw [List.getLast?_concat, List.getLast?_cons] at hlast
  rw [Option.some.inj hlast, List.getLastD_eq_getLast?]

/-- A reader sees the store that was installed last before it, or the first one if there was
none. -/
theorem seen_eq_of_legal {thread : Nat} {seen : VectorStore}
    (h : Legal index (before ++ .looked thread seen :: behind) last) :
    seen = (installedIn before).getLastD index.snapshot := by
  obtain ⟨between, hbefore, rfl, -⟩ := legal_append_iff.mp h
  exact snapshot_eq_getLastD hbefore

/-- A swap installs what its own build made, whatever ran beside it. -/
theorem installed_eq_of_legal {thread : Nat} {swap : Swap} {installed replaced : VectorStore}
    (h : Legal index history last) (hevent : .swapped thread swap installed replaced ∈ history) :
    installed = swap.build.store := by
  obtain ⟨before, behind, rfl⟩ := List.append_of_mem hevent
  obtain ⟨between, -, rfl, -⟩ := legal_append_iff.mp h
  rfl

/-! ### One move -/

/-- Whether what a thread holds is right: the answers that have come in are the embedder's, the
store that was built is the one that the call alone tells, and the store that was taken is in use.
-/
def Phase.Sound (index : VectorIndex) : Phase → Prop
  | .idle | .waiting .look | .holding .look | .leaving _ _ => True
  | .building analyses embedder answers =>
    answers.length = (EmbeddingJob.ofAnalyses analyses).length ∧
      ∀ (k : Nat) (answer : Except String (List Single)), answers[k]? = some (some answer) → ∃ job,
        (EmbeddingJob.ofAnalyses analyses)[k]? = some job ∧
          answer = embedder.embed (EmbeddingJob.prompt job)
  | .waiting (.swap swap build) | .holding (.swap swap build) => build = swap.build
  | .taken swap build replaced => build = swap.build ∧ replaced = index.snapshot

/-- What a thread without the lock holds does not depend on the store in use, so other threads may
change it. -/
theorem Phase.Sound.of_mode? {phase : Phase} (h : phase.Sound index) (hmode : phase.mode? = none)
    (other : VectorIndex) : phase.Sound other := by
  cases phase with
  | idle => trivial
  | building analyses embedder answers => exact h
  | waiting task =>
    cases task with
    | look => trivial
    | swap swap build => exact h
  | holding task => exact absurd hmode (Option.some_ne_none _)
  | taken swap build replaced => exact absurd hmode (Option.some_ne_none _)
  | leaving mode answer => exact absurd hmode (Option.some_ne_none _)

/-- The call of a thread that has not yet done its work. -/
def Phase.ahead : Phase → List Call
  | .idle | .leaving _ _ => []
  | .building analyses embedder _ => [.swap (.rebuild analyses embedder)]
  | .waiting .look | .holding .look => [.snapshot]
  | .waiting (.swap swap _) | .holding (.swap swap _) | .taken swap _ _ => [.swap swap]

/-- What a call of a thread gives back that has done its work. -/
def Phase.due : Phase → List Answer
  | .leaving _ answer => [answer]
  | _ => []

section Turn

variable {number : Nat} {admits : Mode → Bool} {phase : Phase} {move : Move} {turn : Turn}

/-- Slots that are all filled are collected. -/
theorem mapM_map_some (answers : List (Except String (List Single))) :
    (answers.map some).mapM id = some answers := by
  induction answers with
  | nil => rfl
  | cons answer answers ih =>
    rw [List.map_cons, List.mapM_cons, ih]
    rfl

/-- And slots that are collected were all filled. -/
theorem eq_map_some_of_mapM {slots : List (Option (Except String (List Single)))}
    {answers : List (Except String (List Single))} (h : slots.mapM id = some answers) :
    slots = answers.map some := by
  -- One slot after the other: the first that is empty would make the whole fail.
  induction slots generalizing answers with
  | nil =>
    obtain rfl := Option.some.inj h
    rfl
  | cons slot slots ih =>
    rw [List.mapM_cons] at h
    obtain ⟨answer, hanswer, h⟩ := Option.bind_eq_some_iff.mp h
    obtain ⟨rest, hrest, h⟩ := Option.bind_eq_some_iff.mp h
    obtain rfl := Option.some.inj h
    rw [List.map_cons, ← ih hrest]
    exact congrArg (· :: slots) hanswer

/-- A store is built from the answers to the jobs in order. -/
theorem ofAnswers_zip_map (analyses : List FileAnalysis) (embedder : Embedder) :
    StoreBuild.ofAnswers ((EmbeddingJob.ofAnalyses analyses).zip
        ((EmbeddingJob.ofAnalyses analyses).map fun job => embedder.embed job.prompt))
      = .build analyses embedder := by
  have hzip (jobs : List EmbeddingJob) : jobs.zip (jobs.map fun job => embedder.embed job.prompt)
      = jobs.map fun job => (job, embedder.embed job.prompt) := by
    induction jobs with
    | nil => rfl
    | cons job jobs ih => rw [List.map_cons, List.zip_cons_cons, ih, List.map_cons]
  rw [StoreBuild.build, hzip]

/-- Once all answers are there, the store is the one that is built from them in order. -/
theorem ofAnswers_eq_build {analyses : List FileAnalysis} {embedder : Embedder}
    {slots : List (Option (Except String (List Single)))}
    {answers : List (Except String (List Single))}
    (h : (Phase.building analyses embedder slots).Sound index)
    (hall : slots.mapM id = some answers) :
    StoreBuild.ofAnswers ((EmbeddingJob.ofAnalyses analyses).zip answers)
      = .build analyses embedder := by
  obtain ⟨hlength, hright⟩ := h
  obtain rfl := eq_map_some_of_mapM hall
  -- An answer stands at the place of its job, so the order in which they came in is forgotten.
  have hanswers : answers
      = (EmbeddingJob.ofAnalyses analyses).map fun job => embedder.embed job.prompt := by
    refine List.ext_getElem? fun k => ?_
    cases hk : answers[k]? with
    | none =>
      rw [List.getElem?_eq_none_iff, ← List.length_map some, hlength] at hk
      rw [List.getElem?_eq_none (by simpa using hk)]
    | some answer =>
      obtain ⟨job, hjob, rfl⟩ := hright k answer (by simp [hk])
      rw [List.getElem?_map, hjob]
      rfl
  rw [hanswers, ofAnswers_zip_map]

/-- An answer that comes in is put in the place of its job. -/
theorem sound_set {analyses : List FileAnalysis} {embedder : Embedder}
    {slots : List (Option (Except String (List Single)))} {k : Nat} {job : EmbeddingJob}
    (h : (Phase.building analyses embedder slots).Sound index)
    (hjob : (EmbeddingJob.ofAnalyses analyses)[k]? = some job) :
    (Phase.building analyses embedder (slots.set k (some (embedder.embed job.prompt)))).Sound
      index := by
  obtain ⟨hlength, hright⟩ := h
  refine ⟨by rw [List.length_set, hlength], fun i answer hi => ?_⟩
  -- The slot that is filled has the answer to its job, and the others are as they were.
  by_cases hk : k = i
  · subst hk
    have hlt : k < slots.length := by
      rw [hlength]
      exact (List.getElem?_eq_some_iff.mp hjob).1
    rw [List.getElem?_set_self hlt] at hi
    exact ⟨job, hjob, (Option.some.inj (Option.some.inj hi)).symm⟩
  · rw [List.getElem?_set_ne hk] at hi
    exact hright i answer hi

/-- At the start of a call, no answer has come in, and the lock is not held. -/
theorem ofCall_sound (index : VectorIndex) (call : Call) :
    (Phase.ofCall call).Sound index ∧ (Phase.ofCall call).ahead = [call] ∧
      (Phase.ofCall call).due = [] ∧ (Phase.ofCall call).mode? = none := by
  cases call with
  | snapshot => exact ⟨trivial, rfl, rfl, rfl⟩
  | swap swap =>
    cases swap with
    | replace store => exact ⟨rfl, rfl, rfl, rfl⟩
    | rebuild analyses embedder =>
      refine ⟨⟨List.length_replicate, fun k answer h => ?_⟩, rfl, rfl, rfl⟩
      obtain ⟨_, h⟩ := List.getElem?_eq_some_iff.mp h
      rw [List.getElem_replicate] at h
      exact absurd h.symm (Option.some_ne_none _)

/-- What is right of every turn. -/
structure Turn.Fits (number : Nat) (admits : Mode → Bool) (index : VectorIndex) (phase : Phase)
    (turn : Turn) : Prop where
  sound : turn.phase.Sound turn.index
  /-- What is asked, now or before, is what happens to the index, now or later. -/
  asked : phase.ahead ++ turn.call?.toList = turn.event?.toList.map Event.call ++ turn.phase.ahead
  /-- What is given back, now or later, is what has happened to the index. -/
  told : turn.answer?.toList ++ turn.phase.due
    = phase.due ++ turn.event?.toList.map Event.answer
  own : ∀ e ∈ turn.event?.toList, e.thread = number
  legal : Legal index turn.event?.toList turn.index
  /-- Only a thread that is alone changes the index. -/
  alone : turn.index = index ∨ phase.mode? = some .exclusive
  /-- The lock is had if it was had before, or may be had now. -/
  mode : ∀ mode, turn.phase.mode? = some mode → phase.mode? = some mode ∨ admits mode = true

/-- A move inside a call that is about the thread alone. -/
theorem Turn.Fits.quiet {next : Phase} (hsound : next.Sound index)
    (hahead : phase.ahead = next.ahead) (hbefore : phase.due = []) (hbehind : next.due = [])
    (hmode : ∀ mode, next.mode? = some mode → phase.mode? = some mode ∨ admits mode = true) :
    (Turn.quiet next index).Fits number admits index phase where
  sound := hsound
  asked := (List.append_nil _).trans hahead
  told := by simp [Turn.quiet, hbefore, hbehind]
  own := fun _ he => absurd he List.not_mem_nil
  legal := rfl
  alone := .inl rfl
  mode := hmode

/-- Every turn is right. The rest of the proof knows the turns by this alone, and not by the phases
of a thread. -/
theorem fits_of_next (h : phase.next number admits index move = some turn)
    (hphase : phase.Sound index) : turn.Fits number admits index phase := by
  -- One case for each way through `Phase.next`; where the move cannot be made, nothing is left.
  revert h
  fun_cases Phase.next number admits index phase move with
  | case1 call =>
    rintro ⟨⟩
    obtain ⟨hsound, hahead, hdue, hmode⟩ := ofCall_sound index call
    exact ⟨hsound, hahead.symm, hdue, fun _ he => absurd he List.not_mem_nil, rfl, .inl rfl,
      fun mode h => absurd (hmode.symm.trans h) (Option.some_ne_none _).symm⟩
  | case2 analyses embedder slots k job hnone hjob =>
    rintro ⟨⟩
    exact .quiet (sound_set hphase hjob) rfl rfl rfl fun mode h => .inl h
  | case3 => rintro ⟨⟩
  | case4 analyses embedder slots answers hall =>
    rintro ⟨⟩
    exact .quiet (ofAnswers_eq_build hphase hall) rfl rfl rfl fun mode h => .inl h
  | case5 => rintro ⟨⟩
  | case6 task hadmits =>
    rintro ⟨⟩
    have hmode (mode : Mode) (h : (Phase.holding task).mode? = some mode) : admits mode = true := by
      rw [← Option.some.inj h]
      exact hadmits
    cases task with
    | look => exact .quiet trivial rfl rfl rfl fun mode h => .inr (hmode mode h)
    | swap swap build => exact .quiet hphase rfl rfl rfl fun mode h => .inr (hmode mode h)
  | case7 => rintro ⟨⟩
  | case8 =>
    rintro ⟨⟩
    exact ⟨trivial, rfl, rfl, List.forall_mem_singleton.mpr rfl, ⟨rfl, rfl⟩, .inl rfl,
      fun mode h => .inl h⟩
  | case9 swap build =>
    -- The store in use is taken.
    rintro ⟨⟩
    exact .quiet ⟨hphase, rfl⟩ rfl rfl rfl fun mode h => .inl h
  | case10 swap build replaced =>
    -- The store that was taken is still in use, so what happens is one swap.
    rintro ⟨⟩
    obtain ⟨rfl, rfl⟩ := hphase
    exact ⟨trivial, rfl, rfl, List.forall_mem_singleton.mpr rfl, ⟨rfl, rfl, rfl⟩, .inr rfl,
      fun mode h => .inl h⟩
  | case11 mode answer =>
    rintro ⟨⟩
    exact ⟨trivial, rfl, rfl, fun _ he => absurd he List.not_mem_nil, rfl, .inl rfl,
      fun mode h => (nomatch h)⟩
  | case12 => rintro ⟨⟩

end Turn

/-! ### Any number of moves -/

namespace State

/-- What is right of every state that threads come to from a store in use. -/
structure Sound (initial : VectorStore) (s : State) : Prop where
  /-- Who holds the lock alone keeps the others out. -/
  exclusive : ∀ (i j : Nat) (v w : Thread), s.threads[i]? = some v → s.threads[j]? = some w →
    i ≠ j → v.phase.mode? = some .exclusive → w.phase.mode? = none
  phases : ∀ (i : Nat) (t : Thread), s.threads[i]? = some t → t.phase.Sound s.index
  legal : Legal ⟨initial⟩ s.history s.index
  /-- The calls of a thread are what it has made happen, up to one that is still to do its work. -/
  asked : ∀ (i : Nat) (t : Thread), s.threads[i]? = some t →
    t.called = (eventsOf i s.history).map Event.call ++ t.phase.ahead
  /-- They give back what has happened to the index, up to one that is still to give it back. -/
  told : ∀ (i : Nat) (t : Thread), s.threads[i]? = some t →
    t.returned ++ t.phase.due = (eventsOf i s.history).map Event.answer

variable {initial : VectorStore} {s : State}

/-- No thread holds the lock at the start, and no history is there to be told wrong. -/
theorem sound_start (initial : VectorStore) (threads : Nat) :
    (start initial threads).Sound initial := by
  -- Every thread is idle, and the claims are about what threads are at.
  have hidle (i : Nat) (t : Thread) (h : (start initial threads).threads[i]? = some t) :
      t = ⟨.idle, [], []⟩ :=
    (List.mem_replicate.mp (List.mem_of_getElem? h)).2
  refine ⟨fun i j v w hv hw hij hmode => ?_, fun i t h => ?_, rfl, fun i t h => ?_,
    fun i t h => ?_⟩
  · rw [hidle i v hv] at hmode
    exact absurd hmode (Option.some_ne_none _).symm
  · rw [hidle i t h]
    trivial
  · rw [hidle i t h]
    rfl
  · rw [hidle i t h]
    rfl

/-- The lock is had only by a thread that it is compatible with. -/
theorem compatible_of_admits {mode held : Mode} {i : Nat} {t : Thread}
    (h : s.admits mode = true) (ht : s.threads[i]? = some t) (hheld : t.phase.mode? = some held) :
    mode = .shared ∧ held = .shared := by
  have hall := List.all_eq_true.mp h t (List.mem_of_getElem? ht)
  rw [hheld] at hall
  exact of_decide_eq_true hall

/-- A thread that has the lock alone keeps all others out, also behind a turn. -/
theorem mode?_eq_none_of_turn {i j : Nat} {v w : Thread} {turn : Turn} (h : s.Sound initial)
    (hv : s.threads[i]? = some v) (hw : s.threads[j]? = some w) (hij : i ≠ j)
    (hturn : turn.Fits i s.admits s.index v.phase) :
    (turn.phase.mode? = some .exclusive → w.phase.mode? = none) ∧
      (w.phase.mode? = some .exclusive → turn.phase.mode? = none) := by
  constructor
  · intro hmode
    -- Behind the turn the thread holds the lock as before, or it was let in just now, and then the
    -- lock was tested.
    rcases hturn.mode _ hmode with hold | hadmits
    · exact h.exclusive i j v w hv hw hij hold
    · refine Option.eq_none_iff_forall_ne_some.mpr fun held hheld => ?_
      exact absurd (compatible_of_admits hadmits hw hheld).1 (by decide)
  · intro hmode
    refine Option.eq_none_iff_forall_ne_some.mpr fun mode hturned => ?_
    rcases hturn.mode _ hturned with hold | hadmits
    · have hnone := h.exclusive j i w v hw hv hij.symm hmode
      exact absurd (hold.symm.trans hnone) (Option.some_ne_none _)
    · exact absurd (compatible_of_admits hadmits hw hmode).2 (by decide)

/-- What another thread holds stays right, for the store in use is changed only by a thread that is
alone. -/
theorem sound_of_turn {i j : Nat} {v w : Thread} {turn : Turn} (h : s.Sound initial)
    (hv : s.threads[i]? = some v) (hw : s.threads[j]? = some w) (hij : i ≠ j)
    (hturn : turn.Fits i s.admits s.index v.phase) : w.phase.Sound turn.index := by
  rcases hturn.alone with hsame | halone
  · rw [hsame]
    exact h.phases j w hw
  · exact (h.phases j w hw).of_mode? (h.exclusive i j v w hv hw hij halone) turn.index

/-- Behind a move, a thread is the one that moved or one that was there before. Every part of the
invariant is shown by these two cases. -/
theorem getElem?_set_cases {threads : List Thread} {i j : Nat} {new t : Thread}
    (h : (threads.set i new)[j]? = some t) : i = j ∧ t = new ∨ i ≠ j ∧ threads[j]? = some t := by
  by_cases hij : i = j
  · subst hij
    have hlt : i < (threads.set i new).length := (List.getElem?_eq_some_iff.mp h).1
    rw [List.length_set] at hlt
    rw [List.getElem?_set_self hlt] at h
    exact .inl ⟨rfl, (Option.some.inj h).symm⟩
  · rw [List.getElem?_set_ne hij] at h
    exact .inr ⟨hij, h⟩

/-- What a thread has called is what it has made happen also behind a turn, which adds to both. -/
theorem asked_of_turn {i : Nat} {v : Thread} {turn : Turn} (h : s.Sound initial)
    (hv : s.threads[i]? = some v) (hturn : turn.Fits i s.admits s.index v.phase) :
    (v.after turn).called
      = (eventsOf i (s.history ++ turn.event?.toList)).map Event.call ++ turn.phase.ahead := by
  rw [eventsOf_append, eventsOf_of_forall_eq hturn.own, List.map_append, List.append_assoc,
    ← hturn.asked, ← List.append_assoc, ← h.asked i v hv]
  rfl

/-- What the calls of a thread gave back is what has happened by them also behind a turn. -/
theorem told_of_turn {i : Nat} {v : Thread} {turn : Turn} (h : s.Sound initial)
    (hv : s.threads[i]? = some v) (hturn : turn.Fits i s.admits s.index v.phase) :
    (v.after turn).returned ++ turn.phase.due
      = (eventsOf i (s.history ++ turn.event?.toList)).map Event.answer := by
  rw [eventsOf_append, eventsOf_of_forall_eq hturn.own, List.map_append, ← h.told i v hv,
    List.append_assoc, ← hturn.told, ← List.append_assoc]
  rfl

/-- Every move keeps the invariant: the thread that moves by what its turn promises, and the others
because they are kept out. -/
theorem sound_step (h : s.Sound initial) (move : Nat × Move) : (s.step move).Sound initial := by
  unfold step
  split
  · exact h
  · rename_i thread hthread
    split
    · exact h
    · rename_i turn hnext
      -- What is said of a thread is said anew of the one that has moved; the others have to be
      -- kept.
      have hturn := fits_of_next hnext (h.phases _ _ hthread)
      refine ⟨?_, ?_, legal_append_iff.mpr ⟨s.index, h.legal, hturn.legal⟩, ?_, ?_⟩
      · -- Either of the two threads may be the one that has moved, but not both.
        intro i j v w hv hw hij hmode
        rcases getElem?_set_cases hv with ⟨rfl, rfl⟩ | ⟨hi, hv⟩
        · rcases getElem?_set_cases hw with ⟨hj, -⟩ | ⟨hj, hw⟩
          · exact absurd hj hij
          · exact (mode?_eq_none_of_turn h hthread hw hj hturn).1 hmode
        · rcases getElem?_set_cases hw with ⟨rfl, rfl⟩ | ⟨hj, hw⟩
          · exact (mode?_eq_none_of_turn h hthread hv hi hturn).2 hmode
          · exact h.exclusive i j v w hv hw hij hmode
      · intro i t ht
        rcases getElem?_set_cases ht with ⟨rfl, rfl⟩ | ⟨hi, ht⟩
        · exact hturn.sound
        · exact sound_of_turn h hthread ht hi hturn
      · intro i t ht
        rcases getElem?_set_cases ht with ⟨rfl, rfl⟩ | ⟨hi, ht⟩
        · exact asked_of_turn h hthread hturn
        · rw [eventsOf_append_of_ne hturn.own hi]
          exact h.asked i t ht
      · intro i t ht
        rcases getElem?_set_cases ht with ⟨rfl, rfl⟩ | ⟨hi, ht⟩
        · exact told_of_turn h hthread hturn
        · rw [eventsOf_append_of_ne hturn.own hi]
          exact h.told i t ht

/-- The invariant of one step, for any run. -/
theorem sound_run (h : s.Sound initial) (moves : List (Nat × Move)) :
    (s.run moves).Sound initial := by
  induction moves generalizing s with
  | nil => exact h
  | cons move moves ih => exact ih (sound_step h move)

/-! ### What is kept by later moves -/

/-- A move adds to what has happened, and to what the calls of a thread gave back. -/
theorem prefix_step (s : State) (move : Nat × Move) :
    s.history <+: (s.step move).history ∧ ∀ (i : Nat) (t : Thread), s.threads[i]? = some t →
      ∃ t', (s.step move).threads[i]? = some t' ∧ t.returned <+: t'.returned := by
  unfold step
  split
  · exact ⟨List.prefix_refl _, fun i t ht => ⟨t, ht, List.prefix_refl _⟩⟩
  · rename_i thread hthread
    split
    · exact ⟨List.prefix_refl _, fun i t ht => ⟨t, ht, List.prefix_refl _⟩⟩
    · rename_i turn hnext
      refine ⟨List.prefix_append _ _, fun i t ht => ?_⟩
      -- Only the thread that moves is changed.
      by_cases hi : move.1 = i
      · subst hi
        obtain rfl := Option.some.inj (hthread.symm.trans ht)
        have hlt := (List.getElem?_eq_some_iff.mp ht).1
        exact ⟨_, List.getElem?_set_self hlt, List.prefix_append _ _⟩
      · exact ⟨t, by rw [List.getElem?_set_ne hi, ht], List.prefix_refl _⟩

/-- Later moves only add: neither the history nor a thread's answers are taken back. -/
theorem prefix_run (s : State) (moves : List (Nat × Move)) :
    s.history <+: (s.run moves).history ∧ ∀ (i : Nat) (t : Thread), s.threads[i]? = some t →
      ∃ t', (s.run moves).threads[i]? = some t' ∧ t.returned <+: t'.returned := by
  induction moves generalizing s with
  | nil => exact ⟨List.prefix_refl _, fun i t ht => ⟨t, ht, List.prefix_refl _⟩⟩
  | cons move moves ih =>
    obtain ⟨hhistory, hthreads⟩ := prefix_step s move
    obtain ⟨hhistory', hthreads'⟩ := ih (s.step move)
    refine ⟨hhistory.trans hhistory', fun i t ht => ?_⟩
    obtain ⟨between, hbetween, hprefix⟩ := hthreads i t ht
    obtain ⟨t', ht', hprefix'⟩ := hthreads' i between hbetween
    exact ⟨t', ht', hprefix.trans hprefix'⟩

/-- **No store is lost, doubled or mixed.** Take any store in use, any number of threads, and any
moves of theirs in any order. The stores that the swaps handed back, in the order of the swaps, and
behind them the store in use, are the first store and behind it the stores that the swaps installed.
Every snapshot is the store that was installed last before it. What a swap installs is the store
that was given, or what is built from the records of its own call by its own embedder. What a thread
has made happen is what it called, in its order, up to a call that is still to do its work; its
calls gave back what has happened by them, up to one that is still to give it back; and whatever
moves come then, the thread keeps what it was given. -/
theorem stores_kept (initial : VectorStore) (threads : Nat) (moves : List (Nat × Move)) :
    let s := (start initial threads).run moves
    replacedIn s.history ++ [s.index.snapshot] = initial :: installedIn s.history ∧
    (∀ before thread seen behind, s.history = before ++ .looked thread seen :: behind →
      seen = (installedIn before).getLastD initial) ∧
    (∀ thread store installed replaced,
      .swapped thread (.replace store) installed replaced ∈ s.history → installed = store) ∧
    (∀ thread analyses embedder installed replaced,
      .swapped thread (.rebuild analyses embedder) installed replaced ∈ s.history →
        installed = (StoreBuild.build analyses embedder).store) ∧
    ∀ (i : Nat) (t : Thread), s.threads[i]? = some t →
      t.called = (eventsOf i s.history).map Event.call ++ t.phase.ahead ∧
      t.returned ++ t.phase.due = (eventsOf i s.history).map Event.answer ∧
      ∀ more, s.history <+: (s.run more).history ∧
        ∃ t', (s.run more).threads[i]? = some t' ∧ t.returned <+: t'.returned := by
  intro s
  -- Everything is read off the invariant, which holds after any moves; what later moves may do is
  -- the only part that looks ahead.
  have hsound : s.Sound initial := sound_run (sound_start initial threads) moves
  refine ⟨replacedIn_append_snapshot hsound.legal, ?_, ?_, ?_, ?_⟩
  · intro before thread seen behind hhistory
    exact seen_eq_of_legal (hhistory ▸ hsound.legal)
  · intro thread store installed replaced hevent
    exact installed_eq_of_legal hsound.legal hevent
  · intro thread analyses embedder installed replaced hevent
    exact installed_eq_of_legal hsound.legal hevent
  · intro i t ht
    refine ⟨hsound.asked i t ht, hsound.told i t ht, fun more => ?_⟩
    obtain ⟨hhistory, hthreads⟩ := prefix_run s more
    exact ⟨hhistory, hthreads i t ht⟩

/-- While the store of a rebuild is built from two chunks, the second of which is answered first,
another thread looks twice, and a third one replaces the store in between. A thread that asks for
the lock while it cannot be had stays where it is. -/
theorem stores_kept_interleaved :
    let chunk : Nat → Chunk := fun k => ⟨"a.rs", k, toString k, k, k⟩
    let file : FileAnalysis :=
      ⟨⟨"/p/a.rs"⟩, "a.rs", "rs", [chunk 0, chunk 1], [], [], [], 2, "", ""⟩
    let embedder : Embedder :=
      ⟨"m", fun text => .ok (if text = chunkPrompt "a.rs" "1" then [.one, .one] else [.one])⟩
    let other : VectorStore := ⟨[⟨"b.rs", 0, "", [.one], "rs"⟩]⟩
    let built : VectorStore := ⟨[⟨"a.rs", 0, "0", [.one], "rs"⟩]⟩
    let moves : List (Nat × Move) :=
      [(0, .call (.swap (.rebuild [file] embedder))), (1, .call .snapshot), (1, .go), (1, .go),
        (0, .answer 1), (1, .go), (2, .call (.swap (.replace other))), (1, .call .snapshot),
        (2, .go), (1, .go), (2, .go), (0, .answer 0), (2, .go), (1, .go), (2, .go), (1, .go),
        (0, .go), (0, .go), (1, .go), (1, .go), (0, .go), (0, .go), (0, .go), (0, .go)]
    let s := (start ⟨[]⟩ 3).run moves
    replacedIn s.history = [⟨[]⟩, other] ∧ installedIn s.history = [other, built] ∧
      s.index.snapshot = built ∧
        s.threads[1]?.map Thread.returned = some [.snapshot ⟨[]⟩, .snapshot other] := by
  intro chunk file embedder other built moves s
  have hinstalled : installedIn s.history = [other, built] := by decide +kernel
  have hlast : s.index.snapshot = built := by decide +kernel
  have hreturned : s.threads[1]?.map Thread.returned = some [.snapshot ⟨[]⟩, .snapshot other] := by
    decide +kernel
  have hchain : replacedIn s.history ++ [s.index.snapshot] = ⟨[]⟩ :: installedIn s.history :=
    (stores_kept ⟨[]⟩ 3 moves).1
  -- From here on only what was computed of the run matters.
  clear_value s
  rw [hinstalled, hlast] at hchain
  have hreplaced : replacedIn s.history ++ [built] = [⟨[]⟩, other] ++ [built] := hchain
  exact ⟨List.append_cancel_right hreplaced, hinstalled, hlast, hreturned⟩

end State

/-! ### A thread that is let through -/

/-- What a call gives back, and the index behind it, if no other thread is there. -/
def Call.alone (index : VectorIndex) : Call → Answer × VectorIndex
  | .snapshot => (.snapshot index.snapshot, index)
  | .swap (.replace store) => (.replaced (index.replace store).1, (index.replace store).2)
  | .swap (.rebuild analyses embedder) =>
    (.rebuilt (index.rebuild analyses embedder).1, (index.rebuild analyses embedder).2)

namespace State

/-- A state in which one thread has moved on. -/
def moved (s : State) (i : Nat) (t : Thread) (index : VectorIndex) (events : List Event) : State :=
  ⟨index, s.threads.set i t, s.history ++ events⟩

variable {s : State} {i : Nat} {t : Thread} {index : VectorIndex} {events : List Event}
  {move : Move}

/-- A step of the thread under view, in terms of its turn. The others stand as they were, so they
need not be named. -/
theorem step_moved (hi : i < s.threads.length) {turn : Turn}
    (h : t.phase.next i (s.moved i t index events).admits index move = some turn) :
    (s.moved i t index events).step (i, move)
      = s.moved i (t.after turn) turn.index (events ++ turn.event?.toList) := by
  have ht : (s.moved i t index events).threads[i]? = some t := List.getElem?_set_self hi
  unfold step
  simp only [ht]
  rw [show (s.moved i t index events).index = index from rfl, h]
  simp [moved]

/-- If nobody holds the lock, and the thread that has moved on does not, the lock may be had. -/
theorem admits_moved (h : s.admits .exclusive = true) (ht : t.phase.mode? = none) (mode : Mode) :
    (s.moved i t index events).admits mode = true := by
  refine List.all_eq_true.mpr fun w hw => ?_
  have hnone : w.phase.mode? = none := by
    rcases List.mem_or_eq_of_mem_set hw with hw | rfl
    · refine Option.eq_none_iff_forall_ne_some.mpr fun held hheld => ?_
      obtain ⟨j, hj⟩ := List.mem_iff_getElem?.mp hw
      exact absurd (compatible_of_admits h hj hheld).1 (by decide)
    · exact ht
  rw [hnone]
  rfl

/-- A turn that tells nothing moves only the thread's phase. -/
theorem step_quiet (hi : i < s.threads.length) {next : Phase}
    (h : t.phase.next i (s.moved i t index events).admits index move = some (.quiet next index)) :
    (s.moved i t index events).step (i, move)
      = s.moved i { t with phase := next } index events := by
  rw [step_moved hi h]
  simp [Thread.after, Turn.quiet]

/-- A thread that asks for the lock and gets it does what it wants the lock for. -/
theorem run_swap (hi : i < s.threads.length) (h : s.admits .exclusive = true) (swap : Swap)
    (build : StoreBuild) (called : List Call) (returned : List Answer) :
    (s.moved i ⟨.waiting (.swap swap build), called, returned⟩ s.index []).run
        [(i, .go), (i, .go), (i, .go), (i, .go)]
      = s.moved i ⟨.idle, called, returned ++ [swap.answer build s.index.snapshot]⟩
          (s.index.replace build.store).2 [.swapped i swap build.store s.index.snapshot] := by
  have henter : (Phase.waiting (.swap swap build)).next i
      (s.moved i ⟨.waiting (.swap swap build), called, returned⟩ s.index []).admits s.index .go
        = some (.quiet (.holding (.swap swap build)) s.index) :=
    if_pos (admits_moved h rfl _)
  simp only [run, List.foldl_cons, List.foldl_nil]
  rw [step_quiet hi henter, step_quiet hi rfl, step_moved hi rfl, step_moved hi rfl]
  simp [Thread.after, VectorIndex.replace, VectorIndex.snapshot]

/-- A thread that nothing keeps from the lock reads in three moves. -/
theorem run_look (hi : i < s.threads.length) (h : s.admits .exclusive = true)
    (called : List Call) (returned : List Answer) :
    (s.moved i ⟨.waiting .look, called, returned⟩ s.index []).run [(i, .go), (i, .go), (i, .go)]
      = s.moved i ⟨.idle, called, returned ++ [.snapshot s.index.snapshot]⟩ s.index
          [.looked i s.index.snapshot] := by
  have henter : (Phase.waiting .look).next i
      (s.moved i ⟨.waiting .look, called, returned⟩ s.index []).admits s.index .go
        = some (.quiet (.holding .look) s.index) :=
    if_pos (admits_moved h rfl _)
  simp only [run, List.foldl_cons, List.foldl_nil]
  rw [step_quiet hi henter, step_moved hi rfl, step_moved hi rfl]
  simp [Thread.after]

/-- The embedder answers the jobs that are left. -/
theorem exists_run_answers (hi : i < s.threads.length) (analyses : List FileAnalysis)
    (embedder : Embedder) (called : List Call) (returned : List Answer) (rest : List EmbeddingJob) :
    ∀ done, EmbeddingJob.ofAnalyses analyses = done ++ rest → ∃ moves : List (Nat × Move),
      (s.moved i ⟨.building analyses embedder
          (done.map (fun job => some (embedder.embed job.prompt))
            ++ List.replicate rest.length none), called, returned⟩ s.index []).run moves
        = s.moved i ⟨.building analyses embedder ((EmbeddingJob.ofAnalyses analyses).map
            fun job => some (embedder.embed job.prompt)), called, returned⟩ s.index [] := by
  -- One answer after the other, behind those that have come in.
  induction rest with
  | nil =>
    intro done hjobs
    refine ⟨[], ?_⟩
    rw [hjobs]
    simp [run]
  | cons job rest ih =>
    intro done hjobs
    obtain ⟨moves, hmoves⟩ := ih (done ++ [job]) (by simpa using hjobs)
    refine ⟨(i, .answer done.length) :: moves, ?_⟩
    rw [run, List.foldl_cons, ← run, ← hmoves]
    congr 1
    refine step_quiet hi ?_
    simp [Phase.next, hjobs, List.replicate_succ]

/-- A call of a swap comes to the point where it asks for the lock with the store that it is to
install. -/
theorem exists_run_build (hi : i < s.threads.length) (swap : Swap) (called : List Call)
    (returned : List Answer) : ∃ moves : List (Nat × Move),
      (s.moved i ⟨.ofCall (.swap swap), called, returned⟩ s.index []).run moves
        = s.moved i ⟨.waiting (.swap swap swap.build), called, returned⟩ s.index [] := by
  -- A store that is given is there at once, and one that is built takes a move for each answer.
  cases swap with
  | replace store => exact ⟨[], rfl⟩
  | rebuild analyses embedder =>
    obtain ⟨moves, hmoves⟩ := exists_run_answers hi analyses embedder called returned
      (EmbeddingJob.ofAnalyses analyses) [] rfl
    refine ⟨moves ++ [(i, .go)], ?_⟩
    rw [run, List.foldl_append, ← run]
    refine (congrArg (State.run · [(i, .go)]) hmoves).trans (step_quiet hi ?_)
    have hall : ((EmbeddingJob.ofAnalyses analyses).map fun job =>
        some (embedder.embed job.prompt)).mapM id
          = some ((EmbeddingJob.ofAnalyses analyses).map fun job => embedder.embed job.prompt) := by
      rw [← mapM_map_some, List.map_map]
      rfl
    simp only [Phase.next, hall, ofAnswers_zip_map]
    rfl

/-- **A thread that nobody stands in the way of makes its call.** Take any state in which a thread
is in no call, and no thread holds the lock. The thread can make any call to its end by moves of its
own; the call then gives back what it gives back, and changes the index as it does, if no other
thread is there. -/
theorem exists_run_alone (ht : s.threads[i]? = some t) (hidle : t.phase = .idle)
    (h : s.admits .exclusive = true) (call : Call) :
    ∃ (moves : List (Nat × Move)) (event : Event), event.thread = i ∧ event.call = call ∧
      s.run moves = s.moved i ⟨.idle, t.called ++ [call],
        t.returned ++ [(call.alone s.index).1]⟩ (call.alone s.index).2 [event] := by
  have hi : i < s.threads.length := (List.getElem?_eq_some_iff.mp ht).1
  obtain ⟨phase, called, returned⟩ := t
  obtain rfl : phase = .idle := hidle
  have hcall : s.step (i, .call call)
      = s.moved i ⟨.ofCall call, called ++ [call], returned⟩ s.index [] := by
    rw [step, ht]
    simp [Phase.next, moved, Thread.after]
  -- Each kind of call is followed to its end: it asks for the lock, has it, works, and gives it
  -- back.
  cases call with
  | snapshot =>
    refine ⟨(i, .call .snapshot) :: [(i, .go), (i, .go), (i, .go)], .looked i s.index.snapshot, rfl,
      rfl, ?_⟩
    rw [run, List.foldl_cons, hcall, ← run]
    exact run_look hi h _ _
  | swap swap =>
    obtain ⟨moves, hmoves⟩ := exists_run_build hi swap (called ++ [.swap swap]) returned
    have halone : Call.alone s.index (.swap swap) =
        (swap.answer swap.build s.index.snapshot, (s.index.replace swap.build.store).2) := by
      cases swap <;> rfl
    refine ⟨(i, .call (.swap swap)) :: (moves ++ [(i, .go), (i, .go), (i, .go), (i, .go)]),
      .swapped i swap swap.build.store s.index.snapshot, rfl, rfl, ?_⟩
    rw [run, List.foldl_cons, hcall, List.foldl_append, ← run, ← run, hmoves, halone]
    exact run_swap hi h _ _ _ _

end State

end CodeAtlas.SharedIndex
