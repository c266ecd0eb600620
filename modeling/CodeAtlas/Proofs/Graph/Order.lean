import CodeAtlas.Proofs.Graph.Edges
import CodeAtlas.Proofs.Keys
import Mathlib.Data.List.Perm.Basic

/-!
# `CodeAtlas.Proofs.Graph.Order`: the order in which files are listed

A graph may be built from the same analyses and the same paths in another order. The theorems:

* `recordOf_eq_of_perm`, `build_eq_of_perm`: the order of the analyses has no influence at all.
* `EdgeBuilder.IgnoresOrder`: whether a builder proposes the same edges for records in another
  order. The standard builders do (`ignoresOrder_imports`, `ignoresOrder_calls`).
* `build_perm_of_ignoresOrder`: the order of the paths is the order of the files and of what is
  made of them, and nothing else depends on it.
* `buildGraph_perm`: both for the standard builders.
-/

set_option autoImplicit false

namespace CodeAtlas

/-! ### Edge builders -/

/-- Whether two batches hold the same edges and problems, each in some order. -/
structure EdgeBatch.Perm (a b : EdgeBatch) : Prop where
  edges : a.edges.Perm b.edges
  diagnostics : a.diagnostics.Perm b.diagnostics

/-- Whether a builder proposes the same edges and reports the same problems for records in
another order. -/
def EdgeBuilder.IgnoresOrder (builder : EdgeBuilder) : Prop :=
  ∀ (ids : FileSet) (files files' : List FileAnalysis), files'.Perm files →
    (builder ⟨files', ids⟩).Perm (builder ⟨files, ids⟩)

/-- What is collected from a list in another order is the same. -/
theorem EdgeBatch.collect_perm {α : Type} (f : α → EdgeBatch) {xs ys : List α}
    (h : xs.Perm ys) : (collect f xs).Perm (collect f ys) :=
  ⟨h.flatMap_right _, h.flatMap_right _⟩

namespace EdgeBuilder

/-- An import is linked without regard to the other records. -/
theorem ignoresOrder_imports : IgnoresOrder imports := fun _ _ _ h =>
  EdgeBatch.collect_perm _ h

/-- A call is linked to the same declarations of the records in another order. -/
theorem linkCall_perm {files files' : List FileAnalysis} (h : files'.Perm files) (source : FileId)
    (call : CallSite) (index : Nat) :
    (linkCall (.ofFiles files') source call index).Perm
      (linkCall (.ofFiles files) source call index) := by
  rw [linkCall_ofFiles, linkCall_ofFiles]
  exact (h.filter _).flatMap_right _

/-- The edges of calls are the same in any order of the files. A call is linked to each declaration
of its name, so nothing is decided by which one comes first. -/
theorem ignoresOrder_calls : IgnoresOrder calls := by
  intro ids files files' h
  refine ⟨List.Perm.flatMap h fun file _ => ?_, List.Perm.refl _⟩
  exact List.Perm.flatMap_left _ fun call _ => linkCall_perm h file.id call.1 call.2

/-- Neither of the two builders depends on the order of the files. -/
theorem ignoresOrder_of_mem_standard {builder : EdgeBuilder} (h : builder ∈ standard) :
    builder.IgnoresOrder := by
  rw [standard, List.mem_cons, List.mem_singleton] at h
  rcases h with rfl | rfl
  · exact ignoresOrder_imports
  · exact ignoresOrder_calls

end EdgeBuilder

namespace GraphBuild

/-! ### Analyses in another order -/

/-- A file finds the same record among analyses in another order, if no two have the same id. With
two records of one id the first one would be taken, and the order would matter. -/
theorem recordOf_eq_of_perm {analyses analyses' : List FileAnalysis}
    (hids : (analyses.map FileAnalysis.id).Nodup) (h : analyses'.Perm analyses) :
    recordOf analyses' = recordOf analyses := by
  funext f
  rw [recordOf, recordOf, find?_eq_of_perm hids h]

/-- Analyses in another order give the same graph and the same problems. -/
theorem build_eq_of_perm (builders : List EdgeBuilder) (root : Path)
    {analyses analyses' : List FileAnalysis} (paths : List Path)
    (hids : (analyses.map FileAnalysis.id).Nodup) (h : analyses'.Perm analyses) :
    build builders root analyses' paths = build builders root analyses paths := by
  have hnode : fileNode analyses' = fileNode analyses := by
    funext f
    rw [fileNode, fileNode, recordOf_eq_of_perm hids h]
  rw [build, build, hnode]

/-! ### Paths in another order -/

/-- Listed files in another order are below the same directories. -/
theorem directories_eq_of_perm {files files' : List Listed} (h : files'.Perm files) :
    directories files' = directories files := by
  rw [directories, directories,
    FileSet.ofList_eq_of_mem_iff fun _ => (h.flatMap_right _).mem_iff]

/-- Paths in another order give the same nodes, edges and problems, the files in the order of
the paths, if the builders ignore the order. -/
theorem build_perm_of_ignoresOrder {builders : List EdgeBuilder}
    (hbuilders : ∀ builder ∈ builders, builder.IgnoresOrder) (root : Path)
    (analyses : List FileAnalysis) {paths paths' : List Path}
    (hfiles : (paths.filterMap (FileId.ofPath? root)).Nodup) (h : paths'.Perm paths) :
    let old := build builders root analyses paths
    let new := build builders root analyses paths'
    new.graph.nodes = old.graph.directoryNodes ++ new.graph.fileNodes ∧
      new.graph.directoryNodes = old.graph.directoryNodes ∧
      new.graph.fileIds = paths'.filterMap (FileId.ofPath? root) ∧
      new.graph.fileNodes.Perm old.graph.fileNodes ∧
      new.graph.edges.Perm old.graph.edges ∧
      new.diagnostics.Perm old.diagnostics := by
  intro old new
  have hfiles' : (paths'.filterMap (FileId.ofPath? root)).Nodup :=
    (h.filterMap _).nodup_iff.mpr hfiles
  have hinside : (inside root paths').Perm (inside root paths) := h.filterMap _
  have hdirs : new.graph.directoryNodes = old.graph.directoryNodes := by
    rw [directoryNodes_build, directoryNodes_build, distinct_inside hfiles,
      distinct_inside hfiles', directories_eq_of_perm hinside]
  have hnodes : new.graph.fileNodes.Perm old.graph.fileNodes := by
    rw [fileNodes_build, fileNodes_build, distinct_inside hfiles, distinct_inside hfiles']
    exact hinside.map _
  have hids : FileSet.ofList new.graph.fileIds = FileSet.ofList old.graph.fileIds :=
    FileSet.ofList_eq_of_mem_iff fun _ => (hnodes.map _).mem_iff
  -- The builders saw the same set of ids and the same records in another order.
  have hbatch : ∀ builder ∈ builders,
      (builder new.graph.context).Perm (builder old.graph.context) := by
    intro builder hbuilder
    rw [ProjectGraph.context, ProjectGraph.context, hids]
    exact hbuilders builder hbuilder _ _ _ (hnodes.filterMap _)
  refine ⟨?_, hdirs, ?_, hnodes, ?_, ?_⟩
  · rw [nodes_build, hdirs]
  · rw [fileIds_build, distinct_inside hfiles', map_id_inside]
  · have hkeeps : new.graph.context.fileIds = old.graph.context.fileIds := hids
    rw [edges_build, edges_build, hkeeps]
    exact (List.Perm.flatMap_left _ fun builder hb => (hbatch builder hb).edges).filter _
  · rw [diagnostics_build, diagnostics_build]
    exact (h.filterMap _).append
      (List.Perm.flatMap_left _ fun builder hb => (hbatch builder hb).diagnostics)

end GraphBuild

/-- **The graph of a project does not depend on the order of its inputs.** Let no two analyses
have the same id, and no two paths. Analyses in another order give the same graph and the same
problems. Paths in another order give the same directories, the same file nodes in the order of
the paths, the same edges in some order, and the same problems in some order. -/
theorem buildGraph_perm (root : Path) {analyses analyses' : List FileAnalysis}
    {paths paths' : List Path} (hids : (analyses.map FileAnalysis.id).Nodup)
    (hfiles : (paths.filterMap (FileId.ofPath? root)).Nodup)
    (hanalyses : analyses'.Perm analyses) (hpaths : paths'.Perm paths) :
    buildGraph root analyses' paths = buildGraph root analyses paths ∧
      let old := buildGraph root analyses paths
      let new := buildGraph root analyses paths'
      new.graph.nodes = old.graph.directoryNodes ++ new.graph.fileNodes ∧
        new.graph.directoryNodes = old.graph.directoryNodes ∧
        new.graph.fileIds = paths'.filterMap (FileId.ofPath? root) ∧
        new.graph.fileNodes.Perm old.graph.fileNodes ∧
        new.graph.edges.Perm old.graph.edges ∧
        new.diagnostics.Perm old.diagnostics :=
  ⟨GraphBuild.build_eq_of_perm _ root paths hids hanalyses,
    GraphBuild.build_perm_of_ignoresOrder
      (fun _ => EdgeBuilder.ignoresOrder_of_mem_standard) root analyses hfiles hpaths⟩

/-- Two analyses, linked by an import and a call, in either order; and four paths from the last to
the first, one of them outside the project and one without an analysis. -/
theorem buildGraph_perm_linked :
    let a : FileAnalysis :=
      { GraphBuild.placeholder ⟨"/p/src/a.js"⟩ "src/a.js" with
        imports := [⟨"./b.js", "./b.js", "src/a.js", ⟨"/p/src/b.js"⟩⟩]
        calls := [⟨"run", 2, "src/a.js"⟩] }
    let b : FileAnalysis :=
      { GraphBuild.placeholder ⟨"/p/src/b.js"⟩ "src/b.js" with
        symbols := [⟨"run", "src/b.js", 1⟩]
        imports := [⟨"lodash", "lodash", "src/b.js", ⟨"/p/src/lodash"⟩⟩] }
    let paths : List Path := [⟨"/p/src/a.js"⟩, ⟨"/q/x.js"⟩, ⟨"/p/src/b.js"⟩, ⟨"/p/c.js"⟩]
    let old := buildGraph ⟨"/p"⟩ [a, b] paths
    let new := buildGraph ⟨"/p"⟩ [a, b] paths.reverse
    buildGraph ⟨"/p"⟩ [b, a] paths = old ∧
      new.graph.fileIds = ["c.js", "src/b.js", "src/a.js"] ∧
      new.graph.edges.Perm old.graph.edges ∧ new.diagnostics.Perm old.diagnostics := by
  intro a b paths old new
  obtain ⟨hsame, -, -, hids, -, hedges, hdiagnostics⟩ := buildGraph_perm ⟨"/p"⟩
    (show ([a, b].map FileAnalysis.id).Nodup by decide)
    (show (paths.filterMap (FileId.ofPath? ⟨"/p"⟩)).Nodup by decide)
    (List.Perm.swap a b []) (List.reverse_perm paths)
  -- What is left is to say which ids the theorem speaks of.
  refine ⟨hsame, hids.trans ?_, hedges, hdiagnostics⟩
  decide

end CodeAtlas
