import CodeAtlas.Proofs.Retrieval.Channels
import CodeAtlas.Proofs.Vector.Search

/-!
# `CodeAtlas.Proofs.Retrieval.Semantic`: records of files that are gone

A store may still hold records of files that the graph no longer has. The search among vectors ranks
all records, and passes over those records only then. This is the same as if they had never been in
the store (`nearest_eq`), since the ranking of some records does not depend on the others
(`VectorStore.ranked_restrict`). The tests before the search are made on the whole store, but if
all vectors have one length they cannot tell the two stores apart, unless no record is left
(`questionVector?_current`); and then there is nothing to find.

The theorem is `semantic_of_current_files`.
-/

set_option autoImplicit false

namespace CodeAtlas.Retriever

variable {r : Retriever} {query : String} {issue? : Option IssueContext} {topK : Nat}
  {vector : List Single}

/-- The matches of the search among vectors, in the order in which they are found. -/
def semanticFound (r : Retriever) (query : String) (issue? : Option IssueContext) (topK : Nat) :
    List RetrievalMatch :=
  (r.allMatches query issue? topK).1.filter fun m => m.method = .semantic

/-- The same search without the records of files that the graph does not have. -/
def current (r : Retriever) : Retriever :=
  { r with store := r.store.restrict r.hasFile }

/-- The match of a record that is similar to a vector. -/
def similarMatch (vector : List Single) (x : EmbeddingRecord) : RetrievalMatch :=
  ⟨x.fileId, x.chunkIndex, x.text, cosine vector x.vector, x.language, .semantic⟩

/-- Whether a question is embedded, to a vector that has the length of all vectors in the store. -/
structure ComparedBy (r : Retriever) (query : String) (issue? : Option IssueContext)
    (vector : List Single) : Prop where
  /-- An empty question without an issue is not embedded. -/
  asked : Text.trim query.toList ≠ [] ∨ issue?.isSome
  embedded : r.embedder.embed (prompt query issue?) = .ok vector
  length_eq : ∀ x ∈ r.store.records, x.vector.length = vector.length

/-! ### The search -/

/-- Only records of files that the graph has are ranked. -/
theorem nearest_eq (r : Retriever) (vector : List Single) (topK : Nat) :
    r.nearest vector topK = ((r.current.store.ranked vector).take topK).map
      fun found => similarMatch vector found.1 := by
  have hall : r.store.search vector r.store.size = r.store.ranked vector := by
    refine List.take_of_length_le (Nat.le_of_eq ?_)
    simp [(VectorStore.perm_ranked _ _).length_eq, VectorStore.scored, VectorStore.size]
  rw [nearest, hall, current, VectorStore.ranked_restrict]
  refine List.map_congr_left fun found hfound => ?_
  have hmem := (List.mem_filter.mp (List.mem_of_mem_take hfound)).1
  rw [similarMatch, ← VectorStore.score_of_mem_ranked hmem]

/-- Restricting to the files of the graph twice is doing it once. -/
theorem current_current (r : Retriever) : r.current.current = r.current := by
  simp [current, VectorStore.restrict, hasFile, List.filter_filter]

/-- The search already skips what is not a file of the graph, so dropping those records first
changes nothing. -/
theorem nearest_current (r : Retriever) (vector : List Single) (topK : Nat) :
    r.current.nearest vector topK = r.nearest vector topK := by
  rw [nearest_eq, nearest_eq, current_current]

/-- The other channels have no part in what the search among vectors finds. -/
theorem semanticFound_eq (r : Retriever) (query : String) (issue? : Option IssueContext)
    (topK : Nat) : r.semanticFound query issue? topK = r.searched query issue? topK := by
  have hnames : (r.byName query issue?).filter (fun m => decide (m.method = .semantic)) = [] :=
    List.filter_eq_nil_iff.mpr fun m hm => by simp [method_ne_of_mem_byName hm]
  simp only [byName, List.filter_append, List.append_eq_nil_iff] at hnames
  obtain ⟨⟨hissue, hkeyword⟩, hgraph⟩ := hnames
  have hown : (r.searched query issue? topK).filter (fun m => decide (m.method = .semantic))
      = r.searched query issue? topK :=
    List.filter_eq_self.mpr fun m hm => decide_eq_true (method_of_mem_searched hm)
  rw [semanticFound, allMatches_eq, List.filter_append, List.filter_append, List.filter_append,
    hissue, hkeyword, hgraph, hown, List.nil_append, List.append_nil, List.append_nil]

/-- If all vectors have one length and some record is left, a question is searched with the same
vector as before. -/
theorem questionVector?_current
    (hlength : ∀ x ∈ r.store.records, ∀ y ∈ r.store.records, x.vector.length = y.vector.length)
    (hleft : r.current.store.records ≠ []) :
    r.current.questionVector? query issue? = r.questionVector? query issue? := by
  have hsubset : r.current.store.records ⊆ r.store.records := List.filter_sublist.subset
  -- Both stores have a first record, and their vectors are of one length.
  obtain ⟨x, xs, hx⟩ := List.exists_cons_of_ne_nil hleft
  have hmem : x ∈ r.store.records := hsubset (hx ▸ List.mem_cons_self)
  obtain ⟨y, ys, hy⟩ := List.exists_cons_of_ne_nil (List.ne_nil_of_mem hmem)
  have hfirst : x.vector.length = y.vector.length := hlength x hmem y (hy ▸ List.mem_cons_self)
  have hdimension : r.current.store.dimension? = r.store.dimension? := by
    simp [VectorStore.dimension?, hx, hy, hfirst]
  have hprompt : r.current.semanticPrompt query issue? = r.semanticPrompt query issue? := by
    simp [semanticPrompt, VectorStore.isEmpty, hx, hy]
  rw [questionVector?, questionVector?, hprompt, hdimension]
  rfl

/-- If no record is left, nothing is found, whatever the question is compared with. -/
theorem searched_of_nothing_left (hleft : r.current.store.records = []) :
    r.searched query issue? topK = [] := by
  cases hvector : r.questionVector? query issue? with
  | none => exact searched_of_none hvector
  | some vector =>
    rw [searched_of_some hvector, nearest_eq]
    simp [VectorStore.ranked, VectorStore.scored, hleft]

/-- The search finds the same without the records of files that are gone. Their vectors are
compared, but they have no say in the ranking of the others. -/
theorem semanticFound_current
    (hlength : ∀ x ∈ r.store.records, ∀ y ∈ r.store.records, x.vector.length = y.vector.length) :
    r.current.semanticFound query issue? topK = r.semanticFound query issue? topK := by
  rw [semanticFound_eq, semanticFound_eq]
  by_cases hleft : r.current.store.records = []
  · rw [searched_of_nothing_left hleft, searched_of_nothing_left]
    rwa [current_current]
  · simp only [searched, questionVector?_current hlength hleft, nearest_current]

/-- If the records can be compared with a question, they are. -/
theorem semanticFound_of_comparedBy (h : r.ComparedBy query issue? vector) :
    r.semanticFound query issue? topK = r.nearest vector topK := by
  rw [semanticFound_eq]
  cases hrecords : r.store.records with
  | nil =>
    -- An empty store is not compared with anything, but nothing could be found in it either.
    have hleft : r.current.store.records = [] := by simp [current, VectorStore.restrict, hrecords]
    rw [searched_of_nothing_left hleft, nearest_eq]
    simp [VectorStore.ranked, VectorStore.scored, hleft]
  | cons x xs =>
    have hfirst : x.vector.length = vector.length :=
      h.length_eq x (hrecords ▸ List.mem_cons_self)
    have hprompt : r.semanticPrompt query issue? = .ok (prompt query issue?) := by
      rcases h.asked with hquery | hissue
      · simp [semanticPrompt, VectorStore.isEmpty, hrecords, hquery]
      · have hsome : issue?.isNone = false := by simpa using hissue
        simp [semanticPrompt, VectorStore.isEmpty, hrecords, hsome]
    refine searched_of_some ?_
    simp [questionVector?, hprompt, h.embedded, Except.toOption, VectorStore.dimension?, hrecords,
      hfirst]

/-- If the records are compared with a question, they can be. -/
theorem comparedBy_of_questionVector?
    (hlength : ∀ x ∈ r.store.records, ∀ y ∈ r.store.records, x.vector.length = y.vector.length)
    (h : r.questionVector? query issue? = some vector) : r.ComparedBy query issue? vector := by
  obtain ⟨text, hprompt, h⟩ := Option.bind_eq_some_iff.mp h
  obtain ⟨answer, hembed, h⟩ := Option.bind_eq_some_iff.mp h
  split at h
  · rename_i hdimension
    obtain rfl : answer = vector := Option.some.inj h
    -- There is a prompt only if there are vectors and the question is not blank.
    unfold semanticPrompt at hprompt
    split at hprompt
    · cases hprompt
    · split at hprompt
      · cases hprompt
      · rename_i hblank
        obtain rfl : prompt query issue? = text := Option.some.inj hprompt
        refine ⟨?_, ?_, fun x hx => ?_⟩
        · rw [Bool.and_eq_true, decide_eq_true_eq, not_and_or] at hblank
          simpa [Option.isSome_iff_ne_none] using hblank
        · cases hanswer : r.embedder.embed (prompt query issue?) with
          | error message => simp [hanswer, Except.toOption] at hembed
          | ok found => simpa [hanswer, Except.toOption] using hembed
        · -- The test is made on the first record, and the others have its length.
          obtain ⟨y, ys, hy⟩ := List.exists_cons_of_ne_nil (List.ne_nil_of_mem hx)
          have hfirst : y.vector.length = answer.length := by
            simpa [VectorStore.dimension?, hy] using hdimension
          exact (hlength x hx y (hy ▸ List.mem_cons_self)).trans hfirst
  · cases h

/-- If the records cannot be compared with a question, nothing is found. -/
theorem semanticFound_of_not_comparedBy
    (hlength : ∀ x ∈ r.store.records, ∀ y ∈ r.store.records, x.vector.length = y.vector.length)
    (h : ∀ vector, ¬ r.ComparedBy query issue? vector) :
    r.semanticFound query issue? topK = [] := by
  rw [semanticFound_eq]
  cases hvector : r.questionVector? query issue? with
  | none => exact searched_of_none hvector
  | some vector => exact absurd (comparedBy_of_questionVector? hlength hvector) (h vector)

/-- With more matches asked for, what was found before stands in front. -/
theorem semanticFound_prefix {topK' : Nat} (h : topK ≤ topK') :
    r.semanticFound query issue? topK <+: r.semanticFound query issue? topK' := by
  rw [semanticFound_eq, semanticFound_eq]
  cases hvector : r.questionVector? query issue? with
  | none => simp [searched_of_none hvector]
  | some vector =>
    simp only [searched_of_some hvector, nearest_eq]
    exact (List.take_prefix_take_left h).map _

/-! ### What is held for a file -/

/-- If the keys of the records tell them apart, no two matches are of the same chunk. -/
theorem nodup_semanticFound (hkeys : (r.store.records.map EmbeddingRecord.key).Nodup) :
    ((r.semanticFound query issue? topK).map fun m => (m.fileId, m.chunkIndex)).Nodup := by
  rw [semanticFound_eq]
  cases hvector : r.questionVector? query issue? with
  | none => simp [searched_of_none hvector]
  | some vector =>
    simp only [searched_of_some hvector, nearest_eq, List.map_map]
    -- Ranking permutes the records, so their keys are the same ones in another order.
    have hranked : ((r.current.store.ranked vector).map fun found => found.1.key).Perm
        (r.current.store.records.map EmbeddingRecord.key) := by
      have hperm := (r.current.store.perm_ranked vector).map fun found => found.1.key
      simpa [VectorStore.scored, Function.comp_def] using hperm
    have hleft : (r.current.store.records.map EmbeddingRecord.key).Nodup :=
      hkeys.sublist (List.filter_sublist.map _)
    exact (hranked.nodup_iff.mpr hleft).sublist ((List.take_sublist _ _).map _)

/-- The search's matches of a file are held as they are: none of them repeats another one. -/
theorem filter_foundIn_semantic (hkeys : (r.store.records.map EmbeddingRecord.key).Nodup)
    (id : FileId) :
    ((r.retrieve query issue? topK).foundIn id).filter (fun m => decide (m.method = .semantic))
      = (r.semanticFound query issue? topK).filter fun m => m.fileId = id := by
  rw [filter_method_foundIn fun method => decide (method = .semantic), ← semanticFound]
  refine FileMatches.firsts_of_nodup ?_
  -- Within one file, the index alone tells the chunk.
  have hnodup : ((r.semanticFound query issue? topK).map fun m => (m.fileId, m.chunkIndex)).Nodup :=
    nodup_semanticFound hkeys
  have hpairs := (List.pairwise_map.mp hnodup).filter fun m => decide (m.fileId = id)
  refine List.pairwise_map.mpr (hpairs.imp_of_mem ?_)
  intro m n hm hn hne heq
  have hfile : m.fileId = n.fileId := by
    simp only [List.mem_filter, decide_eq_true_eq] at hm hn
    exact hm.2.trans hn.2.symm
  exact hne (Prod.ext hfile (congrArg Prod.fst heq))

/-- **Records of files that are gone have no part in what is found.** Take any graph, any store in
which all vectors have one length and keys tell the records apart, any embedder and any question.
What the search among vectors finds, and with it all files and matches of the retrieval, is the same
without the records of files that the graph does not have. If the question is embedded to a vector
of that length, the search finds as many of the other records as are asked for, if there are so
many: those that come first by their similarity, the larger one first, and by their places if it is
equal. If it is not, nothing is found. With more matches asked for, others are only put behind. And
each match is held for its file, since none repeats another one. -/
theorem semantic_of_current_files (r : Retriever) (query : String) (issue? : Option IssueContext)
    (topK : Nat)
    (hlength : ∀ x ∈ r.store.records, ∀ y ∈ r.store.records, x.vector.length = y.vector.length)
    (hkeys : (r.store.records.map EmbeddingRecord.key).Nodup) :
    let live := r.store.records.filter fun x => x.fileId ∈ r.graph.fileIds
    let left : Retriever := { r with store := ⟨live⟩ }
    let found := r.semanticFound query issue? topK
    left.semanticFound query issue? topK = found ∧
    (left.retrieve query issue? topK).files = (r.retrieve query issue? topK).files ∧
    (∀ vector, r.ComparedBy query issue? vector →
      found.length = min topK live.length ∧
      ∃ ranking : List (EmbeddingRecord × Nat), ranking.Perm live.zipIdx ∧
        ranking.Pairwise (VectorStore.RanksBefore vector) ∧
          found = (ranking.take topK).map fun x => similarMatch vector x.1) ∧
    ((∀ vector, ¬ r.ComparedBy query issue? vector) → found = []) ∧
    (∀ topK', topK ≤ topK' → found <+: r.semanticFound query issue? topK') ∧
    ∀ id, ((r.retrieve query issue? topK).foundIn id).filter
        (fun m => decide (m.method = .semantic)) = found.filter fun m => m.fileId = id := by
  intro live left found
  have hleft : left = r.current := by
    -- The code asks for a node of a file, the statement for an id among those of the files.
    have hfile (id : FileId) : r.hasFile id = decide (id ∈ r.graph.fileIds) := by
      rw [Bool.eq_iff_iff]
      simp [hasFile, ProjectGraph.fileIds]
    simp [left, live, current, VectorStore.restrict, hfile]
  have hsame : r.current.semanticFound query issue? topK = found := semanticFound_current hlength
  rw [hleft]
  refine ⟨hsame, ?_, ?_, semanticFound_of_not_comparedBy hlength, ?_,
    filter_foundIn_semantic hkeys⟩
  · -- The other channels look at the graph only.
    have hall : (r.current.allMatches query issue? topK).1
        = (r.allMatches query issue? topK).1 := by
      rw [allMatches_eq, allMatches_eq, ← semanticFound_eq, ← semanticFound_eq, hsame]
      rfl
    exact congrArg FileMatches.group hall
  · intro vector hvector
    have hfound : found = r.nearest vector topK := semanticFound_of_comparedBy hvector
    obtain ⟨ranking, hperm, hranks, hranked⟩ := left.store.exists_ranking vector
    rw [hfound, nearest_eq, ← hleft, hranked]
    refine ⟨?_, ranking, hperm, hranks, ?_⟩
    · have hcount : ranking.length = live.length := by simpa [left] using hperm.length_eq
      simp [hcount]
    · rw [← List.map_take, List.map_map]
      rfl
  · intro topK' h
    exact semanticFound_prefix h

/-- The first record of the store is nearest to the question, but its file is gone. Of the others
two are equally near, and they come before the third one. -/
theorem semantic_of_current_files_gone :
    let file : FileId → GraphNode := fun id => ⟨id, .file, id, none, none⟩
    let store : VectorStore := ⟨[⟨"gone.rs", 0, "", [.one, .zero], "rs"⟩,
      ⟨"a.rs", 0, "", [.zero, .one], "rs"⟩, ⟨"a.rs", 1, "", [.one, .one], "rs"⟩,
      ⟨"b.rs", 0, "", [.one, .one], "rs"⟩]⟩
    let r : Retriever :=
      ⟨⟨[file "a.rs", file "b.rs"], []⟩, store, ⟨"m", fun _ => .ok [.one, .zero]⟩⟩
    let left : Retriever := { r with store := ⟨store.records.tail⟩ }
    (store.records.map EmbeddingRecord.key).Nodup ∧
    left.semanticFound "where?" none 2 = r.semanticFound "where?" none 2 ∧
    (r.semanticFound "where?" none 2).length = 2 ∧
    r.semanticFound "where?" none 2 <+: r.semanticFound "where?" none 3 ∧
    (r.semanticFound "where?" none 2).map (fun m => (m.fileId, m.chunkIndex))
      = [("a.rs", 1), ("b.rs", 0)] := by
  intro file store r left
  have hlength : ∀ x ∈ store.records, ∀ y ∈ store.records, x.vector.length = y.vector.length := by
    decide
  have hkeys : (store.records.map EmbeddingRecord.key).Nodup := by decide
  obtain ⟨hsame, -, hfound, -, hmore, -⟩ :=
    semantic_of_current_files r "where?" none 2 hlength hkeys
  have hvector : r.ComparedBy "where?" none [.one, .zero] := by
    refine ⟨by decide, rfl, by decide⟩
  have hlive : r.store.records.filter (fun x => x.fileId ∈ r.graph.fileIds)
      = store.records.tail := by decide
  rw [hlive] at hsame hfound
  obtain ⟨hcount, ranking, hperm, hranks, hmatches⟩ := hfound _ hvector
  -- A ranking is determined by its records, so it is enough to give one and to check its order.
  obtain rfl : ranking = [(⟨"a.rs", 1, "", [.one, .one], "rs"⟩, 1),
      (⟨"b.rs", 0, "", [.one, .one], "rs"⟩, 2), (⟨"a.rs", 0, "", [.zero, .one], "rs"⟩, 0)] :=
    VectorStore.eq_of_ranksBefore (hperm.trans (by decide)) hranks (by decide +kernel)
  refine ⟨hkeys, hsame, hcount, hmore 3 (by decide), ?_⟩
  rw [hmatches]
  rfl

end CodeAtlas.Retriever
