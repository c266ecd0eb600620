import CodeAtlas.Proofs.Graph.Edges
import CodeAtlas.Proofs.Graph.WellFormed
import CodeAtlas.Proofs.Retrieval.Group
import CodeAtlas.Retrieval.Channels
import CodeAtlas.Single.Rounding
import Mathlib.Data.List.Find

/-!
# `CodeAtlas.Proofs.Retrieval.Channels`: what is found without the search among vectors

Three channels look for names: the issue's, the question's, and the imports of the files that the
question names. `Retriever.byName` are the matches of these three. The theorems:

* `allMatches_eq`: the matches of all channels, those of the search among vectors in their turn.
* `filter_foundIn_retrieve`: what a retrieval holds for a file, but for the search among vectors,
  is what these three found there. The search has no part in it.
* `mem_issueMatches_iff`, `mem_keywordMatches_iff`, `mem_graphMatches_iff`: what each of them
  finds.
* `mem_foundIn_retrieve_iff`: no channel hides what another one finds, nor does a file that is
  reached in several ways get more than one match for a chunk and a channel.
* `retrieve_byName_iff`: all of that for the graph of a project.
-/

set_option autoImplicit false

namespace CodeAtlas

/-- What holds of a graph in which names tell the files and indices tell the chunks. -/
structure ProjectGraph.Searchable (g : ProjectGraph) : Prop where
  nodup_ids : (g.nodes.map GraphNode.id).Nodup
  /-- A label is the end of the file's id. -/
  label_suffix : ∀ f ∈ g.fileNodes, f.label.toList <:+ String.toList f.id
  /-- Edges end at files. -/
  target_mem : ∀ e ∈ g.edges, e.target ∈ g.fileIds
  nodup_indices : ∀ f ∈ g.fileNodes, (f.chunks.map Chunk.index).Nodup

namespace Retriever

/-! ### What is looked for -/

/-- The match of a chunk of a file. -/
def matchOf (f : GraphNode) (c : Chunk) (similarity : Single) (method : RetrievalMethod) :
    RetrievalMatch :=
  ⟨f.id, c.index, c.text, similarity, f.language, method⟩

/-- Whether an issue is given and names a file. -/
def NamedInIssue (issue? : Option IssueContext) (f : GraphNode) : Prop :=
  ∃ issue, issue? = some issue ∧
    ∃ token ∈ Retrieval.issueTokens issue.body, token <:+ String.toList f.id

/-- Whether a file is the first one of a graph that a name in a question fits. -/
def NamedInQuery (g : ProjectGraph) (query : String) (f : GraphNode) : Prop :=
  ∃ token ∈ Retrieval.keywordTokens query,
    g.fileNodes.find? (fun n => decide (token <:+ String.toList n.id)) = some f

/-- Whether a file that a question names imports a file. -/
def ImportedByNamed (g : ProjectGraph) (query : String) (f : GraphNode) : Prop :=
  ∃ k, NamedInQuery g query k ∧
    ∃ e ∈ g.edges, e.kind = .importing ∧ e.source = k.id ∧ e.target = f.id

/-- Whether a match is what a chunk of a file gives, because the issue or the question names the
file, or because a file that the question names imports it and the chunk is one of its first
two. -/
def FoundByName (g : ProjectGraph) (query : String) (issue? : Option IssueContext)
    (f : GraphNode) (c : Chunk) (m : RetrievalMatch) : Prop :=
  (m = matchOf f c .one .issueContext ∧ NamedInIssue issue? f) ∨
    (m = matchOf f c .one .keyword ∧ NamedInQuery g query f) ∨
    (m = matchOf f c importScore .graph ∧ c ∈ f.chunks.take 2 ∧ ImportedByNamed g query f)

/-- The score of an import is the number nearest to 0.8. -/
example : Single.ofNumber ['0', '.', '8'] = importScore := by decide +kernel

/-! ### The search among vectors kept apart -/

variable {r : Retriever} {g : ProjectGraph} {query : String} {issue? : Option IssueContext}
  {m : RetrievalMatch}

/-- The matches of the channels that look for names. -/
def byName (r : Retriever) (query : String) (issue? : Option IssueContext) :
    List RetrievalMatch :=
  (issue?.map r.issueMatches).getD [] ++ r.keywordMatches query ++ r.graphMatches query

/-- The matches of a file are one for each of its chunks. -/
theorem mem_matchesOf_iff {f : GraphNode} {chunks : List Chunk} {similarity : Single}
    {method : RetrievalMethod} :
    m ∈ matchesOf f chunks similarity method ↔
      ∃ c ∈ chunks, m = matchOf f c similarity method := by
  rw [matchesOf, List.mem_map]
  exact exists_congr fun c => and_congr_right fun _ => eq_comm

/-- Each channel signs its matches, which is what tells them apart once they are joined. -/
theorem method_of_mem_issueMatches {issue : IssueContext} (h : m ∈ r.issueMatches issue) :
    m.method = .issueContext := by
  obtain ⟨token, -, h⟩ := List.mem_flatMap.mp h
  obtain ⟨f, -, h⟩ := List.mem_flatMap.mp h
  obtain ⟨c, -, rfl⟩ := mem_matchesOf_iff.mp h
  rfl

/-- The same for the names in the question. -/
theorem method_of_mem_keywordMatches (h : m ∈ r.keywordMatches query) : m.method = .keyword := by
  obtain ⟨f, -, h⟩ := List.mem_flatMap.mp h
  obtain ⟨c, -, rfl⟩ := mem_matchesOf_iff.mp h
  rfl

/-- The same for the neighbours in the graph. -/
theorem method_of_mem_graphMatches (h : m ∈ r.graphMatches query) : m.method = .graph := by
  obtain ⟨id, -, h⟩ := List.mem_flatMap.mp h
  obtain ⟨target, -, h⟩ := List.mem_flatMap.mp h
  split at h
  · obtain ⟨c, -, rfl⟩ := mem_matchesOf_iff.mp h
    rfl
  · exact absurd h List.not_mem_nil

/-- So none of the three channels by name yields a semantic match, and filtering by method takes the
two kinds apart again. -/
theorem method_ne_of_mem_byName (h : m ∈ r.byName query issue?) : m.method ≠ .semantic := by
  rw [byName, List.mem_append, List.mem_append] at h
  rcases h with (h | h) | h
  · cases issue? with
    | none => exact absurd h List.not_mem_nil
    | some issue => simp [method_of_mem_issueMatches h]
  · simp [method_of_mem_keywordMatches h]
  · simp [method_of_mem_graphMatches h]

/-- The vector that the records are compared with for a question, if it comes to that. -/
def questionVector? (r : Retriever) (query : String) (issue? : Option IssueContext) :
    Option (List Single) := do
  let text ← (r.semanticPrompt query issue?).toOption
  let vector ← (r.embedder.embed text).toOption
  if r.store.dimension?.all (· = vector.length) then some vector else none

/-- What the search among vectors finds; nothing if it is left out. -/
def searched (r : Retriever) (query : String) (issue? : Option IssueContext) (topK : Nat) :
    List RetrievalMatch :=
  ((r.questionVector? query issue?).map fun vector => r.nearest vector topK).getD []

/-- Without a vector for the question nothing is searched. -/
theorem searched_of_none {topK : Nat} (h : r.questionVector? query issue? = none) :
    r.searched query issue? topK = [] := by
  rw [searched, h]
  rfl

/-- With one, the search is that of the nearest vectors. -/
theorem searched_of_some {topK : Nat} {vector : List Single}
    (h : r.questionVector? query issue? = some vector) :
    r.searched query issue? topK = r.nearest vector topK := by
  rw [searched, h]
  rfl

/-- The search among vectors depends on the question by its vector alone. What went wrong is for the
diagnostics and finds nothing. -/
theorem toOption_semanticMatches (topK : Nat) :
    (r.semanticMatches query issue? topK).toOption
      = (r.questionVector? query issue?).map fun vector => r.nearest vector topK := by
  unfold semanticMatches questionVector?
  -- Both sides fail at the same three points: no prompt, no vector, another length.
  cases r.semanticPrompt query issue? with
  | error fault => rfl
  | ok text =>
    cases hembed : r.embedder.embed text with
    | error message =>
      simp [hembed, Except.toOption, bind, Except.bind, throw, throwThe, MonadExceptOf.throw]
    | ok vector =>
      cases hdimension : r.store.dimension? with
      | none => simp [hembed, Except.toOption, bind, Except.bind, pure, Except.pure]
      | some d =>
        by_cases hd : d = vector.length
        · simp [hembed, hd, Except.toOption, bind, Except.bind, pure, Except.pure]
        · simp [hembed, hd, Except.toOption, bind, Except.bind, pure, Except.pure, throw, throwThe,
            MonadExceptOf.throw]

/-- The parts of all matches: the channels in their turns. -/
theorem allMatches_eq (r : Retriever) (query : String) (issue? : Option IssueContext)
    (topK : Nat) : (r.allMatches query issue? topK).1
      = (issue?.map r.issueMatches).getD [] ++ r.searched query issue? topK ++
          r.keywordMatches query ++ r.graphMatches query := by
  rw [searched, ← toOption_semanticMatches, allMatches]
  cases r.semanticMatches query issue? topK with
  | error fault => rfl
  | ok found => rfl

/-- The search among vectors finds matches of its own kind. -/
theorem method_of_mem_searched {topK : Nat} (h : m ∈ r.searched query issue? topK) :
    m.method = .semantic := by
  cases hvector : r.questionVector? query issue? with
  | none => simp [searched_of_none hvector] at h
  | some vector =>
    rw [searched_of_some hvector] at h
    obtain ⟨found, -, rfl⟩ := List.mem_map.mp h
    rfl

/-- Without the search among vectors, all matches are those of the names. -/
theorem filter_allMatches (topK : Nat) :
    (r.allMatches query issue? topK).1.filter (fun m => decide (m.method ≠ .semantic))
      = r.byName query issue? := by
  have hnames : (r.byName query issue?).filter (fun m => decide (m.method ≠ .semantic))
      = r.byName query issue? :=
    List.filter_eq_self.mpr fun m hm => decide_eq_true (method_ne_of_mem_byName hm)
  have hnone : (r.searched query issue? topK).filter (fun m => decide (m.method ≠ .semantic))
      = [] :=
    List.filter_eq_nil_iff.mpr fun m hm => by simp [method_of_mem_searched hm]
  rw [byName, List.filter_append, List.filter_append] at hnames
  rw [allMatches_eq, List.filter_append, List.filter_append, List.filter_append, hnone,
    List.append_nil, hnames, byName]

/-- What a retrieval holds for a file that was found in some of the ways. -/
theorem filter_method_foundIn (p : RetrievalMethod → Bool) (topK : Nat) (id : FileId) :
    ((r.retrieve query issue? topK).foundIn id).filter (fun m => p m.method)
      = FileMatches.firsts (((r.allMatches query issue? topK).1.filter fun m => p m.method).filter
          fun m => m.fileId = id) := by
  have hgroup : (r.retrieve query issue? topK).foundIn id
      = FileMatches.firsts
          ((r.allMatches query issue? topK).1.filter fun m => m.fileId = id) :=
    FileMatches.foundIn_group _ id
  rw [hgroup, FileMatches.filter_firsts p, List.filter_filter, List.filter_filter]
  simp only [Bool.and_comm]

/-- What a retrieval holds for a file, but for the search among vectors. What is on the right looks
at the graph and the question alone. -/
theorem filter_foundIn_retrieve (topK : Nat) (id : FileId) :
    ((r.retrieve query issue? topK).foundIn id).filter (fun m => decide (m.method ≠ .semantic))
      = FileMatches.firsts ((r.byName query issue?).filter fun m => m.fileId = id) := by
  rw [filter_method_foundIn fun method => decide (method ≠ .semantic), filter_allMatches]

/-- Without vectors only the names are looked for, and the embedder is not asked. -/
theorem retrieve_of_isEmpty (h : r.store.isEmpty = true) (topK : Nat) :
    r.retrieve query issue? topK
      = ⟨FileMatches.group (r.byName query issue?), [SemanticFault.emptyStore.diagnostic]⟩ := by
  have hprompt : r.semanticMatches query issue? topK = .error .emptyStore := by
    rw [semanticMatches, semanticPrompt, if_pos h]
    rfl
  rw [retrieve, allMatches, hprompt, byName]
  simp only [List.append_nil]
  rfl

/-- The groups of the matches of names hold no match of the search among vectors. -/
theorem method_ne_of_mem_group_byName {f : FileMatches}
    (hf : f ∈ FileMatches.group (r.byName query issue?)) (hm : m ∈ f.found) :
    m.method ≠ .semantic := by
  rw [FileMatches.found_of_mem_group hf] at hm
  exact method_ne_of_mem_byName (List.mem_filter.mp (FileMatches.mem_firsts_of_mem hm)).1

/-! ### What each channel finds -/

/-- The issue's channel gives all chunks of the files that the issue names. -/
theorem mem_issueMatches_iff :
    m ∈ (issue?.map r.issueMatches).getD [] ↔ ∃ f ∈ r.graph.fileNodes, NamedInIssue issue? f ∧
      ∃ c ∈ f.chunks, m = matchOf f c .one .issueContext := by
  -- Without an issue the channel is not asked, and nothing is named in it.
  cases issue? with
  | none => simp [NamedInIssue]
  | some issue =>
    show m ∈ r.issueMatches issue ↔ _
    simp only [issueMatches, List.mem_flatMap, List.mem_filter, mem_matchesOf_iff, named,
      Text.endsWith, List.isSuffixOf_iff_suffix, directScore]
    constructor
    · rintro ⟨token, htoken, f, ⟨hf, hsuffix⟩, hm⟩
      exact ⟨f, hf, ⟨issue, rfl, token, htoken, hsuffix⟩, hm⟩
    · rintro ⟨f, hf, ⟨given, hgiven, token, htoken, hsuffix⟩, hm⟩
      obtain rfl := Option.some.inj hgiven
      exact ⟨token, htoken, f, ⟨hf, hsuffix⟩, hm⟩

/-- A file that a question names is a file of the graph. -/
theorem mem_fileNodes_of_namedInQuery {f : GraphNode} (h : NamedInQuery g query f) :
    f ∈ g.fileNodes := by
  obtain ⟨token, -, hfind⟩ := h
  exact List.mem_of_find?_eq_some hfind

section Searchable

variable (hg : r.graph.Searchable)

include hg

/-- A label that a token equals is the end of an id, so ids alone decide which file is named. -/
theorem mem_keywordNodes_iff {f : GraphNode} :
    f ∈ r.keywordNodes query ↔ NamedInQuery r.graph query f := by
  rw [keywordNodes, List.mem_filterMap]
  refine exists_congr fun token => and_congr_right fun _ => ?_
  have htest : ∀ n ∈ r.graph.fileNodes, (named token n || n.label = String.ofList token)
      = decide (token <:+ String.toList n.id) := by
    intro n hn
    rw [named, Text.endsWith, Bool.eq_iff_iff, Bool.or_eq_true, List.isSuffixOf_iff_suffix,
      decide_eq_true_eq, decide_eq_true_eq]
    refine or_iff_left_of_imp fun hlabel => ?_
    have hend := hg.label_suffix n hn
    rwa [hlabel, String.toList_ofList] at hend
  rw [List.find?_congr htest]

/-- The question's channel gives all chunks of the files that the question names. -/
theorem mem_keywordMatches_iff :
    m ∈ r.keywordMatches query ↔ ∃ f ∈ r.graph.fileNodes, NamedInQuery r.graph query f ∧
      ∃ c ∈ f.chunks, m = matchOf f c .one .keyword := by
  rw [keywordMatches, List.mem_flatMap]
  refine exists_congr fun f => ?_
  rw [mem_keywordNodes_iff hg, mem_matchesOf_iff, directScore]
  constructor
  · rintro ⟨hnamed, hm⟩
    exact ⟨mem_fileNodes_of_namedInQuery hnamed, hnamed, hm⟩
  · rintro ⟨-, hnamed, hm⟩
    exact ⟨hnamed, hm⟩

/-- The node that an edge ends at is the file of that id. -/
theorem node?_target_eq_some_iff {e : GraphEdge} (he : e ∈ r.graph.edges) {f : GraphNode} :
    r.graph.node? e.target = some f ↔ f ∈ r.graph.fileNodes ∧ e.target = f.id := by
  rw [ProjectGraph.node?, find?_eq_some_iff_of_nodup hg.nodup_ids]
  constructor
  · rintro ⟨hf, hid⟩
    obtain ⟨file, hfile, htarget⟩ := List.mem_map.mp (hg.target_mem e he)
    have hsame : f = file := List.inj_on_of_nodup_map hg.nodup_ids hf
      (List.mem_filter.mp hfile).1 (hid.trans htarget.symm)
    exact ⟨hsame ▸ hfile, hid.symm⟩
  · rintro ⟨hf, hid⟩
    exact ⟨(List.mem_filter.mp hf).1, hid.symm⟩

/-- The graph's channel gives the first two chunks of the files that a named file imports. The list
in the code goes by names, files and edges, which say together that some edge leads there. -/
theorem mem_graphMatches_iff :
    m ∈ r.graphMatches query ↔ ∃ f ∈ r.graph.fileNodes, ImportedByNamed r.graph query f ∧
      ∃ c ∈ f.chunks.take 2, m = matchOf f c importScore .graph := by
  have himported : ∀ id target, target ∈ r.imported id ↔
      ∃ e ∈ r.graph.edges, e.kind = .importing ∧ e.source = id ∧ e.target = target := by
    intro id target
    simp only [imported, ProjectGraph.outgoing, List.mem_eraseDups, List.mem_map, List.mem_filter,
      Bool.and_eq_true, decide_eq_true_eq]
    exact exists_congr fun e => ⟨fun ⟨⟨he, hs, hk⟩, ht⟩ => ⟨he, hk, hs, ht⟩,
      fun ⟨he, hk, hs, ht⟩ => ⟨⟨he, hs, hk⟩, ht⟩⟩
  -- The files that are named come first, then what each of them imports. Both lists are without
  -- repeats, which is no matter for membership.
  rw [graphMatches, List.mem_flatMap]
  constructor
  · rintro ⟨id, hid, h⟩
    obtain ⟨k, hk, rfl⟩ := List.mem_map.mp (List.mem_eraseDups.mp hid)
    obtain ⟨target, htarget, h⟩ := List.mem_flatMap.mp h
    obtain ⟨e, he, hkind, hsource, rfl⟩ := (himported k.id target).mp htarget
    split at h
    · rename_i f hnode
      obtain ⟨hf, hid⟩ := (node?_target_eq_some_iff hg he).mp hnode
      exact ⟨f, hf, ⟨k, (mem_keywordNodes_iff hg).mp hk, e, he, hkind, hsource, hid⟩,
        mem_matchesOf_iff.mp h⟩
    · exact absurd h List.not_mem_nil
  · rintro ⟨f, hf, ⟨k, hk, e, he, hkind, hsource, hid⟩, hm⟩
    refine ⟨k.id, List.mem_eraseDups.mpr
      (List.mem_map_of_mem ((mem_keywordNodes_iff hg).mpr hk)), List.mem_flatMap.mpr
        ⟨e.target, (himported k.id e.target).mpr ⟨e, he, hkind, hsource, rfl⟩, ?_⟩⟩
    rw [(node?_target_eq_some_iff hg he).mpr ⟨hf, hid⟩]
    exact mem_matchesOf_iff.mpr hm

/-- A match of the three channels is what a chunk of some file gives. -/
theorem mem_byName_iff :
    m ∈ r.byName query issue? ↔
      ∃ f ∈ r.graph.fileNodes, ∃ c ∈ f.chunks, FoundByName r.graph query issue? f c m := by
  rw [byName, List.mem_append, List.mem_append, mem_issueMatches_iff, mem_keywordMatches_iff hg,
    mem_graphMatches_iff hg]
  -- Each channel has its own method, so the three cases are the same on both sides.
  constructor
  · rintro ((⟨f, hf, hnamed, c, hc, rfl⟩ | ⟨f, hf, hnamed, c, hc, rfl⟩) |
      ⟨f, hf, himported, c, hc, rfl⟩)
    · exact ⟨f, hf, c, hc, .inl ⟨rfl, hnamed⟩⟩
    · exact ⟨f, hf, c, hc, .inr (.inl ⟨rfl, hnamed⟩)⟩
    · exact ⟨f, hf, c, List.mem_of_mem_take hc, .inr (.inr ⟨rfl, hc, himported⟩)⟩
  · rintro ⟨f, hf, c, hc, ⟨rfl, hnamed⟩ | ⟨rfl, hnamed⟩ | ⟨rfl, hfirst, himported⟩⟩
    · exact .inl (.inl ⟨f, hf, hnamed, c, hc, rfl⟩)
    · exact .inl (.inr ⟨f, hf, hnamed, c, hc, rfl⟩)
    · exact .inr ⟨f, hf, himported, c, hfirst, rfl⟩

/-! ### What is held for a file -/

omit hg in
/-- What a chunk of a file gives shows the file, the chunk's index, and a method by name. -/
theorem FoundByName.parts {f : GraphNode} {c : Chunk} (h : FoundByName g query issue? f c m) :
    m.fileId = f.id ∧ m.chunkIndex = c.index ∧ m.method ≠ .semantic := by
  rcases h with ⟨rfl, -⟩ | ⟨rfl, -⟩ | ⟨rfl, -⟩ <;> simp [matchOf]

omit hg in
/-- A chunk gives one match for each method. -/
theorem FoundByName.eq_of_method_eq {f : GraphNode} {c : Chunk} {n : RetrievalMatch}
    (hm : FoundByName g query issue? f c m) (hn : FoundByName g query issue? f c n)
    (hmethod : n.method = m.method) : n = m := by
  rcases hm with ⟨rfl, -⟩ | ⟨rfl, -⟩ | ⟨rfl, -⟩ <;>
    rcases hn with ⟨rfl, -⟩ | ⟨rfl, -⟩ | ⟨rfl, -⟩ <;> simp_all [matchOf]

/-- The file and the chunk of a match are told by its id and its index. -/
theorem eq_of_foundByName {f f' : GraphNode} {c c' : Chunk} {n : RetrievalMatch}
    (hf : f ∈ r.graph.fileNodes) (hc : c ∈ f.chunks) (hf' : f' ∈ r.graph.fileNodes)
    (hc' : c' ∈ f'.chunks) (hn : FoundByName r.graph query issue? f' c' n)
    (hid : n.fileId = f.id) (hindex : n.chunkIndex = c.index) : f' = f ∧ c' = c := by
  obtain ⟨hid', hindex', -⟩ := hn.parts
  have hnodes : ∀ {k}, k ∈ r.graph.fileNodes → k ∈ r.graph.nodes := fun hk =>
    (List.mem_filter.mp hk).1
  obtain rfl : f' = f := List.inj_on_of_nodup_map hg.nodup_ids (hnodes hf') (hnodes hf)
    (hid'.symm.trans hid)
  exact ⟨rfl, List.inj_on_of_nodup_map (hg.nodup_indices f' hf) hc' hc
    (hindex'.symm.trans hindex)⟩

/-- For a file exactly those matches are held, but for the search among vectors, that its own
chunks give. -/
theorem mem_foundIn_retrieve_iff (topK : Nat) {id : FileId} (hmethod : m.method ≠ .semantic) :
    m ∈ (r.retrieve query issue? topK).foundIn id ↔ m.fileId = id ∧
      ∃ f ∈ r.graph.fileNodes, ∃ c ∈ f.chunks, FoundByName r.graph query issue? f c m := by
  have hfilter : m ∈ (r.retrieve query issue? topK).foundIn id ↔
      m ∈ FileMatches.firsts ((r.byName query issue?).filter fun m => m.fileId = id) := by
    rw [← filter_foundIn_retrieve topK id, List.mem_filter]
    simp [hmethod]
  have hgiven : ∀ n, n ∈ (r.byName query issue?).filter (fun m => m.fileId = id) ↔
      n.fileId = id ∧ ∃ f ∈ r.graph.fileNodes, ∃ c ∈ f.chunks,
        FoundByName r.graph query issue? f c n := by
    intro n
    rw [List.mem_filter, mem_byName_iff hg, decide_eq_true_eq, and_comm]
  rw [hfilter, ← hgiven]
  refine ⟨FileMatches.mem_firsts_of_mem, fun h => ?_⟩
  -- What `m` repeats is a match of the same file, chunk and method, and there is only one.
  obtain ⟨n, hn, hindex, hsame⟩ := FileMatches.exists_mem_firsts h
  obtain ⟨hid, f, hf, c, hc, hfound⟩ := (hgiven m).mp h
  obtain ⟨hid', f', hf', c', hc', hfound'⟩ := (hgiven n).mp (FileMatches.mem_firsts_of_mem hn)
  obtain ⟨hfile, hchunk, -⟩ := hfound.parts
  obtain ⟨rfl, rfl⟩ := eq_of_foundByName hg hf hc hf' hc' hfound'
    (hid'.trans (hid.symm.trans hfile)) (hindex.trans hchunk)
  rwa [hfound.eq_of_method_eq hfound' hsame] at hn

/-- A chunk of a file gives a match exactly if it gives it by itself. -/
theorem matchOf_mem_foundIn_iff (topK : Nat) {f : GraphNode} {c : Chunk}
    (hf : f ∈ r.graph.fileNodes) (hc : c ∈ f.chunks) {similarity : Single}
    {method : RetrievalMethod} (hmethod : method ≠ .semantic) :
    matchOf f c similarity method ∈ (r.retrieve query issue? topK).foundIn f.id ↔
      FoundByName r.graph query issue? f c (matchOf f c similarity method) := by
  rw [mem_foundIn_retrieve_iff hg topK hmethod]
  constructor
  · rintro ⟨-, f', hf', c', hc', hfound⟩
    obtain ⟨rfl, rfl⟩ := eq_of_foundByName hg hf hc hf' hc' hfound rfl rfl
    exact hfound
  · exact fun hfound => ⟨rfl, f, hf, c, hc, hfound⟩

end Searchable

end Retriever

/-! ### Graphs of projects -/

namespace GraphBuild

variable (builders : List EdgeBuilder) (root : Path) (analyses : List FileAnalysis)
  (paths : List Path)

/-- The label of a node is the end of its id. -/
theorem label_suffix_of_mem_nodes {n : GraphNode}
    (h : n ∈ (build builders root analyses paths).graph.nodes) :
    n.label.toList <:+ String.toList n.id := by
  rw [(parent_label_of_mem_nodes builders root analyses paths h).2, FileId.name,
    String.toList_ofList]
  by_cases hslash : '/' ∈ n.id.toList
  · obtain ⟨hsplit, -⟩ := FileId.eq_append_of_mem hslash
    refine ⟨FileId.parentChars n.id.toList ++ ['/'], ?_⟩
    rw [List.append_assoc]
    exact hsplit.symm
  · have hwhole := (FileId.parentChars_of_not_mem hslash).2
    exact ⟨[], by rw [hwhole, List.nil_append]⟩

/-- The graph of a project is searchable, if no file lies below another file and no two chunks of
a file have the same index. -/
theorem searchable_build
    (hfree : ∀ a ∈ (build builders root analyses paths).graph.fileIds,
      ∀ b ∈ (build builders root analyses paths).graph.fileIds, ¬ FileId.IsAbove a b)
    (hindices : ∀ f ∈ (build builders root analyses paths).graph.fileNodes,
      (f.chunks.map Chunk.index).Nodup) :
    (build builders root analyses paths).graph.Searchable where
  nodup_ids := nodup_ids_build builders root analyses paths hfree
  label_suffix := fun _ hf =>
    label_suffix_of_mem_nodes builders root analyses paths (List.mem_filter.mp hf).1
  target_mem := fun e he => by
    rw [edges_build] at he
    exact (keeps_ofList_iff.mp (List.mem_filter.mp he).2).1.2
  nodup_indices := hindices

end GraphBuild

namespace Retriever

/-- **The channels that look for names find exactly what is named, whatever the search among
vectors finds.** Take the graph of a project in which no file lies below another one and indices
tell the chunks of a file. A chunk of a file is found by the issue's channel with score one
exactly if an issue is given that names the file; by the question's channel with score one
exactly if the file is the first one that some name in the question fits; and by the graph's
channel with score 0.8 exactly if it is one of the first two chunks of a file that such a file
imports. There are no other matches but those of the search among vectors, and for each file
they stand in the same list with any other store, embedder and number of matches. -/
theorem retrieve_byName_iff (builders : List EdgeBuilder) (root : Path)
    (analyses : List FileAnalysis) (paths : List Path) {g : ProjectGraph}
    (hbuild : g = (GraphBuild.build builders root analyses paths).graph)
    (hfree : ∀ a ∈ g.fileIds, ∀ b ∈ g.fileIds, ¬ FileId.IsAbove a b)
    (hindices : ∀ f ∈ g.fileNodes, (f.chunks.map Chunk.index).Nodup)
    (store : VectorStore) (embedder : Embedder) (query : String) (issue? : Option IssueContext)
    (topK : Nat) :
    let retrieval := (Retriever.mk g store embedder).retrieve query issue? topK
    (∀ f ∈ g.fileNodes, ∀ c ∈ f.chunks,
      (matchOf f c .one .issueContext ∈ retrieval.foundIn f.id ↔ NamedInIssue issue? f) ∧
      (matchOf f c .one .keyword ∈ retrieval.foundIn f.id ↔ NamedInQuery g query f) ∧
      (matchOf f c importScore .graph ∈ retrieval.foundIn f.id ↔
        c ∈ f.chunks.take 2 ∧ ImportedByNamed g query f)) ∧
    (∀ group ∈ retrieval.files, ∀ m ∈ group.found, m.method ≠ .semantic →
      ∃ f ∈ g.fileNodes, f.id = group.fileId ∧ ∃ c ∈ f.chunks,
        m = matchOf f c .one .issueContext ∨ m = matchOf f c .one .keyword ∨
          m = matchOf f c importScore .graph) ∧
    ∀ (store' : VectorStore) (embedder' : Embedder) (topK' : Nat) (id : FileId),
      (((Retriever.mk g store' embedder').retrieve query issue? topK').foundIn id).filter
          (fun m => decide (m.method ≠ .semantic))
        = (retrieval.foundIn id).filter fun m => decide (m.method ≠ .semantic) := by
  intro retrieval
  have hg : (Retriever.mk g store embedder).graph.Searchable := by
    subst hbuild
    exact GraphBuild.searchable_build builders root analyses paths hfree hindices
  refine ⟨?_, ?_, ?_⟩
  · intro f hf c hc
    refine ⟨?_, ?_, ?_⟩
    · refine (matchOf_mem_foundIn_iff hg topK hf hc (by simp)).trans ?_
      simp [FoundByName, matchOf]
    · refine (matchOf_mem_foundIn_iff hg topK hf hc (by simp)).trans ?_
      simp [FoundByName, matchOf]
    · refine (matchOf_mem_foundIn_iff hg topK hf hc (by simp)).trans ?_
      simp [FoundByName, matchOf]
  · intro group hgroup m hm hmethod
    -- Groups have different files, so a match of this group is one that is held for its file.
    have hheld : m ∈ retrieval.foundIn group.fileId := by
      rw [FileMatches.found_of_mem_group hgroup, ← FileMatches.foundIn_group] at hm
      exact hm
    obtain ⟨hid, f, hf, c, hc, hfound⟩ := (mem_foundIn_retrieve_iff hg topK hmethod).mp hheld
    refine ⟨f, hf, hfound.parts.1.symm.trans hid, c, hc, ?_⟩
    rcases hfound with ⟨rfl, -⟩ | ⟨rfl, -⟩ | ⟨rfl, -⟩
    · exact .inl rfl
    · exact .inr (.inl rfl)
    · exact .inr (.inr rfl)
  · intro store' embedder' topK' id
    rw [filter_foundIn_retrieve, filter_foundIn_retrieve]
    rfl

/-- A file with three chunks is named in the issue, and imported by a file that is named in the
question. The issue gives its third chunk, and the import gives the second chunk but not the
third. The embedder fails. -/
theorem retrieve_byName_iff_reached_twice :
    let chunks : List Chunk := [⟨"src/b.js", 0, "one", 0, 3⟩, ⟨"src/b.js", 1, "two", 4, 7⟩,
      ⟨"src/b.js", 2, "three", 8, 13⟩]
    let b : FileAnalysis :=
      { GraphBuild.placeholder ⟨"/p/src/b.js"⟩ "src/b.js" with chunks := chunks }
    let link : GraphEdge :=
      ⟨"link", "src/a.js", "src/b.js", .importing, .importing "./b.js"⟩
    let g := (GraphBuild.build [fun _ => ⟨[link], []⟩] ⟨"/p"⟩ [b]
      [⟨"/p/src/a.js"⟩, ⟨"/p/src/b.js"⟩]).graph
    let f := GraphBuild.fileNode [b] ⟨"src/b.js", ⟨"/p/src/b.js"⟩⟩
    let store : VectorStore := ⟨[⟨"src/b.js", 2, "three", [.one], "js"⟩]⟩
    let embedder : Embedder := ⟨"model", fun _ => .error "no connection"⟩
    let held := ((Retriever.mk g store embedder).retrieve "what is `a.js`?"
      (some ⟨"Bug", "look at src/b.js"⟩) 5).foundIn "src/b.js"
    matchOf f chunks[2] .one .issueContext ∈ held ∧
      matchOf f chunks[1] importScore .graph ∈ held ∧
      matchOf f chunks[2] importScore .graph ∉ held := by
  intro chunks b link g f store embedder held
  have hnodes : g.fileNodes = [GraphBuild.fileNode [b] ⟨"src/a.js", ⟨"/p/src/a.js"⟩⟩, f] := by
    rw [GraphBuild.fileNodes_build]
    decide
  have hids : g.fileIds = ["src/a.js", "src/b.js"] := by
    rw [ProjectGraph.fileIds, hnodes]
    rfl
  have hlength : ∀ id ∈ g.fileIds, id.length = 8 := by
    rw [hids]
    decide
  -- Ids of one length are not above each other.
  have hfree : ∀ x ∈ g.fileIds, ∀ y ∈ g.fileIds, ¬ FileId.IsAbove x y := by
    intro x hx y hy habove
    have hlt := habove.length_lt
    rw [hlength x hx, hlength y hy] at hlt
    exact Nat.lt_irrefl 8 hlt
  have hindices : ∀ n ∈ g.fileNodes, (n.chunks.map Chunk.index).Nodup := by
    rw [hnodes]
    decide
  have hf : f ∈ g.fileNodes := by
    rw [hnodes]
    simp
  obtain ⟨hchannels, -, -⟩ := retrieve_byName_iff _ _ _ _ rfl hfree hindices store embedder
    "what is `a.js`?" (some ⟨"Bug", "look at src/b.js"⟩) 5
  -- The importing file is named, and its link is among the edges that are kept.
  have himported : ImportedByNamed g "what is `a.js`?" f := by
    refine ⟨GraphBuild.fileNode [b] ⟨"src/a.js", ⟨"/p/src/a.js"⟩⟩, ⟨"a.js".toList, ?_, ?_⟩,
      link, ?_, rfl, rfl, rfl⟩
    · decide
    · rw [hnodes]
      decide
    · refine List.mem_filter.mpr ⟨by simp [EdgeBatch.collect], ?_⟩
      refine GraphBuild.keeps_ofList_iff.mpr ⟨?_, by simp [link]⟩
      rw [← GraphBuild.fileIds_build]
      show _ ∈ g.fileIds ∧ _ ∈ g.fileIds
      rw [hids]
      decide
  refine ⟨(hchannels f hf _ (by decide)).1.mpr ⟨_, rfl, "src/b.js".toList, ?_, ?_⟩,
    (hchannels f hf _ (by decide)).2.2.mpr ⟨by decide, himported⟩,
    fun hmem => absurd ((hchannels f hf _ (by decide)).2.2.mp hmem).1 (by decide)⟩
  · decide
  · decide

end Retriever

end CodeAtlas
