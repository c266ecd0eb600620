import CodeAtlas.Analysis.Analyzer
import CodeAtlas.Proofs.Chunker.Optimal

/-!
# `CodeAtlas.Proofs.Analysis.Analyzer`: the record of one file

What holds of the record of a file whatever its language and its text are, and whatever toolkits
read them: it has the id of the file (`id_analyze`), its chunks are numbered from zero
(`map_index_analyze`), and there are no more of them than the tree has parts at the top
(`length_chunks_analyze_le`). What may go wrong is that a text has no tree, or that a query was
refused (`of_mem_diagnostics_analyze`).
-/

set_option autoImplicit false

namespace CodeAtlas

/-- The chunks of a text are numbered in order. -/
theorem Chunker.map_index_chunk (limit : Nat) (fileId : FileId) (source : List Char)
    (nodes : List Span) :
    (chunk limit fileId source nodes).map Chunk.index
      = List.range (chunk limit fileId source nodes).length := by
  rw [chunk]
  refine List.ext_getElem (by simp) fun i h _ => ?_
  simp [toChunk]

/-- A whole text has at most the number zero. -/
theorem Chunker.map_index_whole? (fileId : FileId) (source : String) :
    (whole? fileId source).toList.map Chunk.index
      = List.range (whole? fileId source).toList.length := by
  rw [whole?]
  split <;> rfl

namespace Analyzer

variable (chunkSize : Nat) (root path : Path) (text : String) (kits : Language → Toolkit)

/-- The analysis of a file is the whole text as one chunk, or it is read off a tree. In the first
case at most one thing went wrong: the text has no tree. -/
theorem analyze_cases :
    (∃ language node, (kits language).parse text = .ok node ∧
      analyze chunkSize root path text kits
        = analyzeTree chunkSize (SourceFile.ofPath root path text) (kits language) node) ∨
    ∃ language, (analyze chunkSize root path text kits).analysis
        = { plainAnalysis (SourceFile.ofPath root path text) with language := language } ∧
      ∀ d ∈ (analyze chunkSize root path text kits).diagnostics,
        d.kind = .parseFailure ∧ ∃ fault : ParseFault, d.message = fault.message := by
  rw [analyze]
  cases Language.ofPath? path with
  | none => exact .inr ⟨_, rfl, fun d hd => absurd hd List.not_mem_nil⟩
  | some language =>
    -- A file of a known language has a tree or a fault, and only the tree is asked anything.
    simp only [analyzeWith]
    cases hparse : (kits language).parse (SourceFile.ofPath root path text).text with
    | ok node => exact .inl ⟨language, node, hparse, rfl⟩
    | error fault =>
      refine .inr ⟨_, rfl, fun d hd => ?_⟩
      rw [List.mem_singleton.mp hd]
      exact ⟨rfl, fault, rfl⟩

/-- The record of a file has the id of the file, whether its text has a tree or not. -/
theorem id_analyze :
    (analyze chunkSize root path text kits).analysis.id
      = (SourceFile.ofPath root path text).id := by
  obtain ⟨language, node, -, h⟩ | ⟨language, h, -⟩ :=
    analyze_cases chunkSize root path text kits <;> rw [h] <;> rfl

/-- The chunks of a file are numbered in order. -/
theorem map_index_analyze :
    (analyze chunkSize root path text kits).analysis.chunks.map Chunk.index
      = List.range (analyze chunkSize root path text kits).analysis.chunks.length := by
  obtain ⟨language, node, -, h⟩ | ⟨language, h, -⟩ :=
    analyze_cases chunkSize root path text kits <;> rw [h]
  · exact Chunker.map_index_chunk _ _ _ _
  · exact Chunker.map_index_whole? _ _

/-- A file has no more chunks than its tree has parts at the top, or at most one. The bound is all
that the table asks of a reader of texts: it can number so many chunks, and no more. -/
theorem length_chunks_analyze_le {bound : Nat} (hbound : 1 ≤ bound)
    (hkits : ∀ language node, (kits language).parse text = .ok node →
      node.children.length ≤ bound) :
    (analyze chunkSize root path text kits).analysis.chunks.length ≤ bound := by
  obtain ⟨language, node, hparse, h⟩ | ⟨language, h, -⟩ :=
    analyze_cases chunkSize root path text kits <;> rw [h]
  · refine (Chunker.length_chunk_le_max _ _ _ _).trans (Nat.max_le.mpr ⟨hbound, ?_⟩)
    rw [List.length_map]
    exact hkits language node hparse
  · refine Nat.le_trans ?_ hbound
    show (Chunker.whole? _ _).toList.length ≤ 1
    cases Chunker.whole? _ _ <;> simp

/-- What a query reports begins with what was looked for. -/
theorem of_mem_diagnostics_ask {query : Except String TreeSearch} {what name : String}
    {file : SourceFile} {cs : Array Char} {node : Syntax.Node} {d : Diagnostic}
    (h : d ∈ (ask query what name file cs node).2) :
    d.kind = .parseFailure ∧ ∃ cause, d.message = what ++ " query failed: " ++ cause := by
  cases query with
  | ok search => exact absurd h List.not_mem_nil
  | error cause =>
    rw [List.mem_singleton.mp h]
    exact ⟨rfl, cause, rfl⟩

/-- What may go wrong with a file that was read: its text has no tree, or one of the three queries
was refused. The two are told by how the messages begin. -/
theorem of_mem_diagnostics_analyze {d : Diagnostic}
    (h : d ∈ (analyze chunkSize root path text kits).diagnostics) :
    d.kind = .parseFailure ∧ ((∃ fault : ParseFault, d.message = fault.message) ∨
      ∃ what ∈ ["symbol", "call", "import"], ∃ cause,
        d.message = what ++ " query failed: " ++ cause) := by
  obtain ⟨language, node, -, htree⟩ | ⟨language, -, hplain⟩ :=
    analyze_cases chunkSize root path text kits
  · have hask : ∃ query what name file cs node, what ∈ ["symbol", "call", "import"] ∧
        d ∈ (ask query what name file cs node).2 := by
      rw [htree] at h
      -- The three queries are run one after the other, and each of them puts its own name first.
      rcases List.mem_append.mp h with h | h
      · rcases List.mem_append.mp h with h | h
        · exact ⟨_, "symbol", _, _, _, _, by simp, h⟩
        · exact ⟨_, "call", _, _, _, _, by simp, h⟩
      · exact ⟨_, "import", _, _, _, _, by simp, h⟩
    obtain ⟨_, what, _, _, _, _, hwhat, hd⟩ := hask
    obtain ⟨hkind, cause, hmessage⟩ := of_mem_diagnostics_ask hd
    exact ⟨hkind, .inr ⟨what, hwhat, cause, hmessage⟩⟩
  · obtain ⟨hkind, hfault⟩ := hplain d h
    exact ⟨hkind, .inl hfault⟩

end Analyzer

end CodeAtlas
