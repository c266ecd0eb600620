import CodeAtlas.Proofs.Retrieval.Channels
import CodeAtlas.Proofs.Vector.Search
import Mathlib.Data.List.Pairwise

/-!
# `CodeAtlas.Proofs.Retrieval.Order`: the order of a retrieval

The channels take turns, and nothing is ranked afterwards. `RetrievalMatch.Precedes` is the order in
which matches are found, and everything that a retrieval shows is a part of that list. The theorems:

* `pairwise_nearest`: the search among vectors finds the more similar chunks first.
* `pairwise_allMatches`: the matches of all channels are found in order.
* `exists_found_of_mem_allMatches`: nothing that a channel finds is lost.
* `ordered_retrieve`: a retrieval of any graph, store and embedder has one group for each file that
  was reached, without empty groups and repeats, and both its files and the matches of each of them
  are in the order of the channels.
-/

set_option autoImplicit false

namespace CodeAtlas

/-- The turn of a channel among the four. -/
def RetrievalMethod.turn : RetrievalMethod → Nat
  | .issueContext => 0
  | .semantic => 1
  | .keyword => 2
  | .graph => 3

/-- What holds of the groups of a retrieval, whatever it was made from. -/
structure Retrieval.Ordered (r : Retrieval) : Prop where
  nodup_fileIds : (r.files.map FileMatches.fileId).Nodup
  /-- A file is there because something was found in it. -/
  found_ne_nil : ∀ f ∈ r.files, f.found ≠ []
  fileId_eq : ∀ f ∈ r.files, ∀ m ∈ f.found, m.fileId = f.fileId
  /-- A chunk is kept once for each way in which it was found. -/
  nodup_found : ∀ f ∈ r.files, (f.found.map fun m => (m.chunkIndex, m.method)).Nodup
  /-- The matches of a file stand in the order of the channels. -/
  by_turn : ∀ f ∈ r.files, f.found.Pairwise fun m n => m.method.turn ≤ n.method.turn
  /-- Those of the search among vectors go from the larger similarities to the smaller ones. -/
  by_similarity : ∀ f ∈ r.files, (f.found.filter fun m => m.method = .semantic).Pairwise
    fun m n => n.similarity ≤ m.similarity
  /-- Along the files, the channel of the first match never goes back to an earlier one. -/
  files_by_turn : (r.files.filterMap fun f => f.found.head?).Pairwise
    fun m n => m.method.turn ≤ n.method.turn

namespace RetrievalMatch

variable {m n : RetrievalMatch}

/-- Whether a match may be found before another: in an earlier turn, or in the same turn and, if
that is the search among vectors, with a similarity that is not smaller. -/
def Precedes (m n : RetrievalMatch) : Prop :=
  m.method.turn < n.method.turn ∨
    m.method = n.method ∧ (m.method = .semantic → n.similarity ≤ m.similarity)

/-- A match that precedes another is of no later channel. -/
theorem Precedes.turn_le (h : m.Precedes n) : m.method.turn ≤ n.method.turn := by
  rcases h with hlt | ⟨hmethod, -⟩
  · exact Nat.le_of_lt hlt
  · rw [hmethod]

/-- Inside the semantic channel it is at least as similar. The first case of the order cannot hold
there, the channels being one. -/
theorem Precedes.similarity_le (h : m.Precedes n) (hm : m.method = .semantic)
    (hn : n.method = .semantic) : n.similarity ≤ m.similarity := by
  rcases h with hlt | ⟨-, hsimilarity⟩
  · rw [hm, hn] at hlt
    exact absurd hlt (Nat.lt_irrefl _)
  · exact hsimilarity hm

end RetrievalMatch

namespace Retriever

open RetrievalMatch (Precedes)

variable {r : Retriever} {query : String} {issue? : Option IssueContext} {topK : Nat}

/-! ### The order of finding -/

/-- The search among vectors finds the more similar chunks first. -/
theorem pairwise_nearest (r : Retriever) (vector : List Single) (topK : Nat) :
    (r.nearest vector topK).Pairwise fun m n => n.similarity ≤ m.similarity := by
  -- Leaving out the files that are gone and cutting the rest off does not change the order.
  have hsublist : (((r.store.search vector r.store.size).filter fun found =>
      r.hasFile found.1.fileId).take topK).Sublist (r.store.ranked vector) :=
    (List.take_sublist _ _).trans (List.filter_sublist.trans (List.take_sublist _ _))
  exact List.pairwise_map.mpr ((VectorStore.pairwise_ranked r.store vector).sublist hsublist)

/-- Matches of one channel other than the search among vectors may stand in any order. -/
theorem pairwise_precedes_of_method {ms : List RetrievalMatch} {method : RetrievalMethod}
    (hmethod : method ≠ .semantic) (h : ∀ m ∈ ms, m.method = method) : ms.Pairwise Precedes := by
  refine List.pairwise_of_forall_mem_list ?_
  intro m hm n hn
  refine .inr ⟨(h m hm).trans (h n hn).symm, ?_⟩
  intro hsemantic
  exact absurd ((h m hm).symm.trans hsemantic) hmethod

/-- The search comes in falling similarity, also when there is no vector and it is empty. -/
theorem pairwise_searched (r : Retriever) (query : String) (issue? : Option IssueContext)
    (topK : Nat) :
    (r.searched query issue? topK).Pairwise fun m n => n.similarity ≤ m.similarity := by
  cases hvector : r.questionVector? query issue? with
  | none => simp [searched_of_none hvector]
  | some vector => simpa [searched_of_some hvector] using pairwise_nearest r vector topK

/-- The matches of all channels are found in order, and grouping takes parts of this list only. -/
theorem pairwise_allMatches (r : Retriever) (query : String) (issue? : Option IssueContext)
    (topK : Nat) : (r.allMatches query issue? topK).1.Pairwise Precedes := by
  have hmethod : ∀ m ∈ r.searched query issue? topK, m.method = .semantic :=
    fun m hm => method_of_mem_searched hm
  have hissue : ∀ m ∈ (issue?.map r.issueMatches).getD [], m.method = .issueContext := by
    intro m hm
    cases issue? with
    | none => exact absurd hm List.not_mem_nil
    | some issue => exact method_of_mem_issueMatches hm
  have hsearch : (r.searched query issue? topK).Pairwise Precedes := by
    refine (pairwise_searched r query issue? topK).imp_of_mem ?_
    intro m n hm hn hle
    exact .inr ⟨(hmethod m hm).trans (hmethod n hn).symm, fun _ => hle⟩
  -- Between two channels, the turns alone decide.
  have hturns : ∀ {m n : RetrievalMatch} {a b : RetrievalMethod}, m.method = a → n.method = b →
      a.turn < b.turn → m.Precedes n := by
    rintro m n a b rfl rfl hlt
    exact .inl hlt
  rw [allMatches_eq]
  simp only [List.pairwise_append, List.mem_append]
  refine ⟨⟨⟨pairwise_precedes_of_method (by decide) hissue, hsearch, ?_⟩,
    pairwise_precedes_of_method (by decide) (fun m hm => method_of_mem_keywordMatches hm), ?_⟩,
    pairwise_precedes_of_method (by decide) (fun m hm => method_of_mem_graphMatches hm), ?_⟩
  · intro m hm n hn
    exact hturns (hissue m hm) (hmethod n hn) (by decide)
  · rintro m (hm | hm) n hn
    · exact hturns (hissue m hm) (method_of_mem_keywordMatches hn) (by decide)
    · exact hturns (hmethod m hm) (method_of_mem_keywordMatches hn) (by decide)
  · rintro m ((hm | hm) | hm) n hn
    · exact hturns (hissue m hm) (method_of_mem_graphMatches hn) (by decide)
    · exact hturns (hmethod m hm) (method_of_mem_graphMatches hn) (by decide)
    · exact hturns (method_of_mem_keywordMatches hm) (method_of_mem_graphMatches hn) (by decide)

/-! ### The order of a retrieval -/

/-- A group holds a part of all matches, in their order. -/
theorem found_sublist_of_mem_retrieve {f : FileMatches}
    (h : f ∈ (r.retrieve query issue? topK).files) :
    f.found.Sublist (r.allMatches query issue? topK).1 := by
  rw [FileMatches.found_of_mem_group h]
  exact (FileMatches.firsts_sublist _).trans List.filter_sublist

/-- Nothing that a channel finds is lost: it is kept in the group of its file, or the first match
that it repeats is. -/
theorem exists_found_of_mem_allMatches {m : RetrievalMatch}
    (hm : m ∈ (r.allMatches query issue? topK).1) :
    ∃ f ∈ (r.retrieve query issue? topK).files,
      f.fileId = m.fileId ∧ ∃ n ∈ f.found, m.Repeats n := by
  -- The group of the file holds the first matches of the file, and `m` is one of its matches.
  have hown : m ∈ (r.allMatches query issue? topK).1.filter fun n => n.fileId = m.fileId := by
    simp [hm]
  obtain ⟨n, hn, hrepeats⟩ := FileMatches.exists_mem_firsts hown
  rw [← FileMatches.foundIn_group, FileMatches.foundIn] at hn
  cases hfind : (FileMatches.group (r.allMatches query issue? topK).1).find?
      (fun f => f.fileId = m.fileId) with
  | none => simp [hfind] at hn
  | some f =>
    rw [hfind] at hn
    have hfile := List.find?_some hfind
    exact ⟨f, List.mem_of_find?_eq_some hfind, by simpa using hfile, n, hn, hrepeats⟩

/-- **Shape and order of every retrieval.** Take any graph, whatever its nodes and edges, any
store, any embedder, and any question with or without an issue. The groups of what is found are
ordered, and nothing that a channel finds is lost: there is a group for its file, with a match of
the same chunk number that was found in the same way. -/
theorem ordered_retrieve (r : Retriever) (query : String) (issue? : Option IssueContext)
    (topK : Nat) :
    (r.retrieve query issue? topK).Ordered ∧
      ∀ m ∈ (r.allMatches query issue? topK).1, ∃ f ∈ (r.retrieve query issue? topK).files,
        f.fileId = m.fileId ∧ ∃ n ∈ f.found, m.Repeats n := by
  -- All matches stand in order before they are grouped, and a group is a part of them in their
  -- order.
  have hall := pairwise_allMatches r query issue? topK
  refine ⟨⟨FileMatches.nodup_map_fileId_group _, ?_, ?_, ?_, ?_, ?_, ?_⟩, ?_⟩
  · intro f hf
    exact FileMatches.found_ne_nil_of_mem_group hf
  · intro f hf m hm
    rw [FileMatches.found_of_mem_group hf] at hm
    simpa using (List.mem_filter.mp (FileMatches.mem_firsts_of_mem hm)).2
  · intro f hf
    rw [FileMatches.found_of_mem_group hf]
    exact FileMatches.nodup_map_firsts _
  · intro f hf
    exact (hall.sublist (found_sublist_of_mem_retrieve hf)).imp Precedes.turn_le
  · intro f hf
    have hfound := (hall.sublist (found_sublist_of_mem_retrieve hf)).filter
      fun m => decide (m.method = .semantic)
    refine hfound.imp_of_mem ?_
    intro m n hm hn hprecedes
    simp only [List.mem_filter, decide_eq_true_eq] at hm hn
    exact hprecedes.similarity_le hm.2 hn.2
  · exact (hall.sublist (FileMatches.heads_group_sublist _)).imp Precedes.turn_le
  · intro m hm
    exact exists_found_of_mem_allMatches hm

end Retriever

end CodeAtlas
