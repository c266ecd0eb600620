import CodeAtlas.Proofs.Analysis.Analyzer
import CodeAtlas.Proofs.Project.Table
import CodeAtlas.Proofs.Vector.Build
import CodeAtlas.Project.Index

/-!
# `CodeAtlas.Proofs.Project.Index`: what an index pass does

A pass finds things out before it writes anything; then it writes the graph and, with an embedder,
the vectors. The theorems:

* `course_run`: the five ways that a pass can go.
* `exists_of_run_eq_ok`: the steps of a pass that succeeds.
* `exists_run_eq_ok_iff`: a pass with an embedder fails only for a root that cannot be read, a graph
  or a table that cannot be written, or a store that the table cannot hold.
* `content_graphFile_of_run`, `content_tableFile_of_run`: what a pass leaves behind.
* `nodup_keys_ofFiles`: files with different ids give chunks with different keys, so
  `result_ne_duplicateKey`.
-/

set_option autoImplicit false

namespace CodeAtlas

/-- The document of a graph is not empty. -/
theorem ProjectGraph.isEmpty_write (g : ProjectGraph) : g.write.toUTF8.isEmpty = false := by
  have hne : g.write ≠ "" := by
    rw [write, toJson, Json.compactText, ne_eq, ← String.toList_inj, String.toList_ofList]
    exact List.cons_ne_nil _ _
  have hsize : g.write.toUTF8.size ≠ 0 := fun h => hne (String.utf8ByteSize_eq_zero_iff.mp h)
  rw [ByteArray.isEmpty, beq_eq_false_iff_ne]
  exact hsize

namespace ProjectAnalysis

/-! ### The records of files -/

variable {t : FileTree} {root : Path} {c : ProjectConfig} {kits : Language → Toolkit}

/-- A record is what the analysis of some text gives. -/
theorem exists_of_analysis? {path : Path} {a : FileAnalysis}
    (h : (outcomeOf t root c kits path).analysis? = some a) :
    ∃ text, a = (Analyzer.analyze c.chunkSize root path text kits).analysis := by
  rw [outcomeOf] at h
  split at h
  · cases h
  · split at h
    · rename_i text _
      exact ⟨text, (Option.some.inj h).symm⟩
    · cases h

/-- What the id of a path is in the record of its file. -/
theorem id_of_analysis? {path : Path} {a : FileAnalysis} {id : FileId}
    (hid : FileId.ofPath? root path = some id)
    (h : (outcomeOf t root c kits path).analysis? = some a) : a.id = id := by
  obtain ⟨text, rfl⟩ := exists_of_analysis? h
  rw [Analyzer.id_analyze, SourceFile.ofPath, hid]
  rfl

/-- The records are those of the files that are analyzed, in the order of the files. -/
theorem analyses_ofFiles (t : FileTree) (root : Path) (c : ProjectConfig) (paths : List Path)
    (kits : Language → Toolkit) :
    (ofFiles t root c paths kits).analyses
      = paths.filterMap fun path => (outcomeOf t root c kits path).analysis? := by
  rw [ofFiles, List.filterMap_map]
  rfl

/-- Files with different ids give chunks with different keys. -/
theorem nodup_keys_ofFiles {paths : List Path}
    (hin : ∀ path ∈ paths, (FileId.ofPath? root path).isSome)
    (hids : (paths.map (FileId.ofPath? root)).Nodup) :
    ((ofFiles t root c paths kits).analyses.flatMap fun a =>
      a.chunks.map fun c => (a.id, c.index)).Nodup := by
  rw [analyses_ofFiles, List.nodup_flatMap]
  constructor
  · intro a ha
    obtain ⟨path, -, h⟩ := List.mem_filterMap.mp ha
    -- The chunks of one file are told by their numbers.
    have hindex : (a.chunks.map Chunk.index).Nodup := by
      obtain ⟨text, rfl⟩ := exists_of_analysis? h
      rw [Analyzer.map_index_analyze]
      exact List.nodup_range
    refine List.Nodup.of_map Prod.snd ?_
    rwa [List.map_map]
  · have hpairs : paths.Pairwise fun p q =>
        p ∈ paths ∧ q ∈ paths ∧ FileId.ofPath? root p ≠ FileId.ofPath? root q :=
      (List.pairwise_map.mp hids).imp_of_mem fun hp hq hne => ⟨hp, hq, hne⟩
    refine hpairs.filterMap _ ?_
    rintro p q ⟨hp, hq, hne⟩ a ha b hb key hkey hkey'
    obtain ⟨id, hid⟩ := Option.isSome_iff_exists.mp (hin p hp)
    obtain ⟨id', hid'⟩ := Option.isSome_iff_exists.mp (hin q hq)
    obtain ⟨_, -, rfl⟩ := List.mem_map.mp hkey
    obtain ⟨_, -, hsame⟩ := List.mem_map.mp hkey'
    have hids := (Prod.mk.inj hsame).1
    rw [id_of_analysis? hid ha, id_of_analysis? hid' hb] at hids
    exact hne (by rw [hid, hid', hids])

end ProjectAnalysis

namespace IndexPass

variable {t : FileTree} {root : Path} {c : ProjectConfig} {tools : IndexTools}
  {embedder? : Option Embedder} {embedder : Embedder} {report : IndexReport} {f : Findings}

/-! ### The steps of a pass -/

/-- What is found out about given files. -/
def findingsOf (t : FileTree) (root : Path) (c : ProjectConfig) (paths : List Path)
    (tools : IndexTools) : Findings :=
  let project := ProjectAnalysis.ofFiles t root c paths tools.kits
  ⟨paths, project, buildGraph root project.analyses paths⟩

/-- What is found out depends on the scan alone. -/
theorem find_eq_ok_iff :
    find t root c tools = .ok f ↔
      ∃ paths, Scan.files t (.ofConfig c tools.globs) root = .ok paths ∧
        f = findingsOf t root c paths tools := by
  rw [find]
  cases Scan.files t (.ofConfig c tools.globs) root with
  | error fault => exact ⟨fun h => (nomatch h), fun ⟨_, h, _⟩ => nomatch h⟩
  | ok paths =>
    constructor
    · intro h
      exact ⟨paths, rfl, (Except.ok.inj h).symm⟩
    · rintro ⟨_, h, rfl⟩
      obtain rfl := Except.ok.inj h
      rfl

/-- The store that is made of what was found. -/
def Findings.store (f : Findings) (embedder : Embedder) : VectorStore :=
  (StoreBuild.build f.project.analyses embedder).store

/-- The ways that a pass can go, with what each ends with and the tree that it leaves. A pass that
fails leaves the tree of the step that failed, which may already hold the graph. -/
inductive Course (t : FileTree) (root : Path) (c : ProjectConfig) (tools : IndexTools) :
    Option Embedder → Except DataFault IndexReport → FileTree → Prop where
  | unlisted {embedder? : Option Embedder} {fault : FileFault}
      (hfind : find t root c tools = .error fault) :
      Course t root c tools embedder? (.error (.file fault)) t
  | unsaved {embedder? : Option Embedder} {f : Findings} {fault : DataFault} {after : FileTree}
      (hfind : find t root c tools = .ok f)
      (hsave : (FileTree.saveGraph root f.built.graph).apply t = (.error fault, after)) :
      Course t root c tools embedder? (.error fault) after
  | linked {f : Findings} {saved : FileTree} (hfind : find t root c tools = .ok f)
      (hsave : (FileTree.saveGraph root f.built.graph).apply t = (.ok (), saved)) :
      Course t root c tools none (.ok (f.report none [])) saved
  | unstored {embedder : Embedder} {f : Findings} {fault : DataFault} {saved after : FileTree}
      (hfind : find t root c tools = .ok f)
      (hsave : (FileTree.saveGraph root f.built.graph).apply t = (.ok (), saved))
      (hreplace : (FileTree.replaceVectors root (f.store embedder) embedder.model).apply saved
        = (.error fault, after)) :
      Course t root c tools (some embedder) (.error fault) after
  | stored {embedder : Embedder} {f : Findings} {saved after : FileTree}
      (hfind : find t root c tools = .ok f)
      (hsave : (FileTree.saveGraph root f.built.graph).apply t = (.ok (), saved))
      (hreplace : (FileTree.replaceVectors root (f.store embedder) embedder.model).apply saved
        = (.ok (f.store embedder).size, after)) :
      Course t root c tools (some embedder)
        (.ok (f.report (some (f.store embedder).size)
          (StoreBuild.build f.project.analyses embedder).diagnostics)) after

/-- Every pass goes one of these ways. What a pass did is told from how it ended through this lemma
alone, so that the branches of `run` are gone through once. -/
theorem course_run (t : FileTree) (root : Path) (c : ProjectConfig) (embedder? : Option Embedder)
    (tools : IndexTools) :
    Course t root c tools embedder? (run t root c embedder? tools).result
      (run t root c embedder? tools).tree := by
  rw [run]
  cases hfind : find t root c tools with
  | error fault => exact .unlisted hfind
  | ok f =>
    cases hsave : (FileTree.saveGraph root f.built.graph).apply t with
    | mk result saved =>
      cases result with
      | error fault =>
        simp only [hsave]
        exact .unsaved hfind hsave
      | ok _ =>
        simp only [hsave]
        -- The files were found and the graph is written; what is left depends on the embedder.
        cases embedder? with
        | none => exact .linked hfind hsave
        | some embedder =>
          cases hreplace : (FileTree.replaceVectors root (f.store embedder)
              embedder.model).apply saved with
          | mk result after =>
            have hembed := hreplace
            rw [Findings.store] at hembed
            cases result with
            | error fault =>
              simp only [embed, hembed]
              exact .unstored hfind hsave hreplace
            | ok stored =>
              obtain ⟨-, rfl, -⟩ := FileTree.replaceVectors_eq_ok_iff.mp hreplace
              simp only [embed, hembed]
              exact .stored hfind hsave hreplace

/-- A pass that succeeds has found the files and written the graph; with an embedder, it has also
replaced the vectors. -/
theorem exists_of_run_eq_ok (h : (run t root c embedder? tools).result = .ok report) :
    ∃ f saved, find t root c tools = .ok f ∧
      (FileTree.saveGraph root f.built.graph).apply t = (.ok (), saved) ∧
        match embedder? with
        | none => report = f.report none [] ∧ (run t root c none tools).tree = saved
        | some embedder =>
          report = f.report (some (f.store embedder).size)
            (StoreBuild.build f.project.analyses embedder).diagnostics ∧
          (FileTree.replaceVectors root (f.store embedder) embedder.model).apply saved
            = (.ok (f.store embedder).size, (run t root c (some embedder) tools).tree) := by
  have hcourse := course_run t root c embedder? tools
  rw [h] at hcourse
  generalize htree : (run t root c embedder? tools).tree = after at hcourse
  -- Two of the ways end with a report.
  cases hcourse with
  | linked hfind hsave => exact ⟨_, _, hfind, hsave, rfl, htree⟩
  | stored hfind hsave hreplace => exact ⟨_, _, hfind, hsave, rfl, htree ▸ hreplace⟩

/-- A pass whose steps succeed succeeds. -/
theorem exists_run_of_steps {saved after : FileTree} {n : Nat} (hfind : find t root c tools = .ok f)
    (hsave : (FileTree.saveGraph root f.built.graph).apply t = (.ok (), saved))
    (hreplace : (FileTree.replaceVectors root (f.store embedder) embedder.model).apply saved
      = (.ok n, after)) :
    ∃ report, (run t root c (some embedder) tools).result = .ok report := by
  rw [Findings.store] at hreplace
  simp only [run, hfind, hsave, embed, hreplace]
  exact ⟨_, rfl⟩

/-- A pass with an embedder fails only for a root that cannot be read, a graph or a table that
cannot be written, or a store that no table can hold. -/
theorem exists_run_eq_ok_iff :
    (∃ report, (run t root c (some embedder) tools).result = .ok report) ↔
      ∃ f saved table after, find t root c tools = .ok f ∧
        (FileTree.saveGraph root f.built.graph).apply t = (.ok (), saved) ∧
          (FileTree.openTable root).apply saved = (.ok table, after) ∧
            (f.store embedder).Storable := by
  constructor
  · rintro ⟨report, h⟩
    obtain ⟨f, saved, hfind, hsave, -, hreplace⟩ := exists_of_run_eq_ok h
    obtain ⟨hs, -, table, after, hopen, -⟩ := FileTree.replaceVectors_eq_ok_iff.mp hreplace
    exact ⟨f, saved, table, after, hfind, hsave, hopen, hs⟩
  · -- Once the table could be opened and the store is one that a table can hold, nothing else
    -- fails.
    rintro ⟨f, saved, table, after, hfind, hsave, hopen, hs⟩
    obtain ⟨_, hreplace⟩ := FileTree.exists_replaceVectors hs hopen embedder.model
    exact exists_run_of_steps hfind hsave hreplace

/-- A project that has a place for its graph can be indexed without an embedder. -/
theorem exists_run_of_hasPlace (hfind : find t root c tools = .ok f)
    (hplace : t.HasPlace root (Layout.graphFile root)) :
    ∃ report, (run t root c none tools).result = .ok report := by
  obtain ⟨saved, hsave⟩ := FileTree.exists_writeDocument (Layout.components_graphFile root) hplace
    f.built.graph.write
  rw [← FileTree.saveGraph] at hsave
  simp only [run, hfind, hsave]
  exact ⟨_, rfl⟩

/-- A project that has a graph and a table can be indexed if the table can hold the store. -/
theorem exists_run_of_content {data : ByteArray} {table : VectorTable}
    (hfind : find t root c tools = .ok f)
    (hgraph : t.content (Layout.graphFile root) = .ok (.bytes data))
    (htable : t.content (Layout.tableFile root) = .ok (.table table))
    (hs : (f.store embedder).Storable) :
    ∃ report, (run t root c (some embedder) tools).result = .ok report := by
  obtain ⟨place, hlocate⟩ := FileTree.content_eq_ok_iff.mp hgraph
  have hwrite := FileTree.write_file hlocate (fun _ h => nomatch h) (.ofText f.built.graph.write)
  -- The table is no text, so the path of the graph does not lead to it.
  have hkept := FileTree.content_write_of_ne (by simp [hgraph]) hwrite htable
  exact exists_run_eq_ok_iff.mpr ⟨f, _, table, _, hfind, FileTree.apply_writeDocument_iff.mpr
    ⟨t, FileTree.makeDirectories_of_locate (Layout.components_graphFile root) hlocate, hwrite⟩,
    FileTree.openTable_of_content hkept, hs⟩

/-! ### What a pass leaves behind -/

/-- The document of the graph is what was made of the files, whether there is an embedder or
not. -/
theorem content_graphFile_of_run (hfind : find t root c tools = .ok f)
    (h : (run t root c embedder? tools).result = .ok report) :
    (run t root c embedder? tools).tree.content (Layout.graphFile root)
      = .ok (.ofText f.built.graph.write) := by
  obtain ⟨f', saved, hfind', hsave, hrest⟩ := exists_of_run_eq_ok h
  obtain rfl := Except.ok.inj (hfind.symm.trans hfind')
  obtain ⟨between, -, hwrite⟩ := FileTree.apply_writeDocument_iff.mp hsave
  have hsaved := FileTree.content_write hwrite
  cases embedder? with
  | none => rw [hrest.2, hsaved]
  | some embedder =>
    exact FileTree.content_replaceVectors_of_ne (Layout.components_graphFile root)
      (ProjectGraph.isEmpty_write _) hrest.2 hsaved

/-- The rows of the table are those of the store that was made of the files. -/
theorem content_tableFile_of_run (hfind : find t root c tools = .ok f)
    (h : (run t root c (some embedder) tools).result = .ok report) :
    (run t root c (some embedder) tools).tree.content (Layout.tableFile root)
      = .ok (.table (.ofStore (f.store embedder) embedder.model)) := by
  obtain ⟨f', saved, hfind', -, -, hreplace⟩ := exists_of_run_eq_ok h
  obtain rfl := Except.ok.inj (hfind.symm.trans hfind')
  exact FileTree.content_replaceVectors hreplace

/-! ### The keys of the table -/

/-- A pass over files with different ids does not fail for the keys of the table. -/
theorem result_ne_duplicateKey
    (hkeys : ∀ f, find t root c tools = .ok f →
      ((f.store embedder).records.map EmbeddingRecord.key).Nodup) :
    (run t root c (some embedder) tools).result ≠ .error (.row .duplicateKey) := by
  intro h
  have hcourse := course_run t root c (some embedder) tools
  rw [h] at hcourse
  generalize (run t root c (some embedder) tools).tree = after at hcourse
  cases hcourse with
  | unsaved hfind hsave =>
    -- Writing a document fails only for a file or a directory.
    rw [FileTree.saveGraph, FileTree.writeDocument, TreeChange.apply_bind_eq_error_iff] at hsave
    obtain hsave | ⟨_, _, -, hsave⟩ := hsave <;>
      exact absurd (TreeChange.apply_update_eq_error_iff.mp hsave) (by simp)
  | unstored hfind hsave hreplace =>
    exact FileTree.ne_duplicateKey_of_replaceVectors hreplace (hkeys _ hfind) rfl

end IndexPass

end CodeAtlas
