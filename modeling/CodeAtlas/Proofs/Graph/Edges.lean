import CodeAtlas.Proofs.Graph.Nodes
import CodeAtlas.Proofs.Graph.Retarget

/-!
# `CodeAtlas.Proofs.Graph.Edges`: the edges of a built graph

What the edge builders of a graph saw can be read off the graph (`ProjectGraph.context`). The
theorems:

* `edges_build`, `diagnostics_build`: the edges are what the builders make of the context, as far
  as it may stay, and the problems are what they report of it.
* `nodup_id_files_context`: no two records in the context have the same id.
* `edges_buildGraph`: of what the standard builders propose, everything stays. An import leads
  to a file of the graph (`contains_of_resolve`), and a call never to its own file.
-/

set_option autoImplicit false

namespace CodeAtlas

/-! ### The edges that stay -/

/-- What an import means is a file. -/
theorem Resolve.contains_of_resolve {modulePath : String} {importer target : FileId}
    {files : FileSet} (h : resolve modulePath importer files = some target) :
    files.contains target = true :=
  (steady_resolve modulePath importer).mem h

/-- What the builders of a graph saw. -/
def ProjectGraph.context (g : ProjectGraph) : EdgeContext :=
  ⟨g.fileNodes.filterMap GraphNode.file, FileSet.ofList g.fileIds⟩

namespace EdgeBuilder

variable {ctx : EdgeContext}

/-- The edges of all imports link files, if the importing files are among the files. -/
theorem keeps_of_mem_imports (hfiles : ∀ file ∈ ctx.files, ctx.fileIds.contains file.id = true)
    {e : GraphEdge} (he : e ∈ (imports ctx).edges) :
    GraphBuild.keeps ctx.fileIds e = true := by
  obtain ⟨file, hfile, he⟩ := List.mem_flatMap.mp he
  obtain ⟨⟨i, index⟩, -, he⟩ := List.mem_flatMap.mp he
  simp only [linkImport] at he
  split at he
  · rename_i target htarget
    obtain rfl := List.mem_singleton.mp he
    simp [GraphBuild.keeps, importEdge, hfiles file hfile, Resolve.contains_of_resolve htarget]
  · exact absurd he List.not_mem_nil

/-- A call is linked to the declarations of its name in the other files, file by file. -/
theorem linkCall_ofFiles (files : List FileAnalysis) (source : FileId) (call : CallSite)
    (index : Nat) :
    linkCall (.ofFiles files) source call index
      = (files.filter fun other => other.id ≠ source).flatMap fun other =>
          (other.symbols.filter fun s => s.name = call.name).map fun s =>
            callEdge source call index other.id s.line := by
  rw [linkCall, DeclarationIndex.find_ofFiles]
  induction files with
  | nil => rfl
  | cons other rest ih =>
    -- Of one file, either all declarations lead elsewhere or none.
    rw [List.flatMap_cons, List.filter_append, List.map_append, ih, List.filter_map]
    by_cases h : other.id = source
    · simp [Function.comp_def, h]
    · simp [Function.comp_def, h]

/-- The edges of all calls link two files, if the records are those of the files. -/
theorem keeps_of_mem_calls (hfiles : ∀ file ∈ ctx.files, ctx.fileIds.contains file.id = true)
    {e : GraphEdge} (he : e ∈ (calls ctx).edges) :
    GraphBuild.keeps ctx.fileIds e = true := by
  obtain ⟨file, hfile, he⟩ := List.mem_flatMap.mp he
  obtain ⟨⟨call, index⟩, -, he⟩ := List.mem_flatMap.mp he
  simp only [linkCall_ofFiles] at he
  obtain ⟨other, hother, he⟩ := List.mem_flatMap.mp he
  obtain ⟨s, -, rfl⟩ := List.mem_map.mp he
  obtain ⟨hother, hne⟩ := List.mem_filter.mp hother
  simp [GraphBuild.keeps, callEdge, hfiles file hfile, hfiles other hother,
    Ne.symm (of_decide_eq_true hne)]

end EdgeBuilder

namespace GraphBuild

section Build

variable (builders : List EdgeBuilder) (root : Path) (analyses : List FileAnalysis)
  (paths : List Path)

/-- The builders saw the records of the distinct files and their ids. -/
theorem context_build :
    (build builders root analyses paths).graph.context
      = ⟨((distinct [] (inside root paths)).map (fileNode analyses)).filterMap GraphNode.file,
          FileSet.ofList ((distinct [] (inside root paths)).map Listed.id)⟩ := by
  rw [ProjectGraph.context, fileNodes_build, fileIds_build]

/-- The edges are what the builders make of what they saw, as far as it may stay. -/
theorem edges_build :
    (build builders root analyses paths).graph.edges
      = (builders.flatMap fun builder =>
          (builder (build builders root analyses paths).graph.context).edges).filter
            (keeps (build builders root analyses paths).graph.context.fileIds) := by
  rw [context_build]
  rfl

/-- The problems are the paths outside the project and what the builders report. -/
theorem diagnostics_build :
    (build builders root analyses paths).diagnostics
      = outside root paths ++ builders.flatMap fun builder =>
          (builder (build builders root analyses paths).graph.context).diagnostics := by
  rw [context_build]
  rfl

/-- The records that the builders saw are those of the files. -/
theorem files_context :
    (build builders root analyses paths).graph.context.files
      = (distinct [] (inside root paths)).map (recordOf analyses) := by
  rw [context_build]
  show ((distinct [] (inside root paths)).map (fileNode analyses)).filterMap GraphNode.file = _
  rw [List.filterMap_map]
  exact congrFun List.filterMap_eq_map _

/-- They have the ids of the files. -/
theorem map_id_files_context :
    (build builders root analyses paths).graph.context.files.map FileAnalysis.id
      = (build builders root analyses paths).graph.fileIds := by
  rw [files_context, fileIds_build, List.map_map]
  exact List.map_congr_left fun f _ => recordOf_id analyses f

/-- The builders of edges see each file once, even if a path was given twice. -/
theorem nodup_id_files_context :
    ((build builders root analyses paths).graph.context.files.map FileAnalysis.id).Nodup := by
  rw [map_id_files_context, fileIds_build]
  exact nodup_map_id_distinct _ _

/-- The builders saw no records but those of the files, so an edge cannot end outside of the
graph. -/
theorem contains_of_mem_files_context {file : FileAnalysis}
    (h : file ∈ (build builders root analyses paths).graph.context.files) :
    (build builders root analyses paths).graph.context.fileIds.contains file.id = true := by
  rw [ProjectGraph.context, FileSet.contains_ofList, ← map_id_files_context]
  exact List.mem_map_of_mem h

end Build

section Standard

variable (root : Path) (analyses : List FileAnalysis) (paths : List Path)

/-- The edges that the standard builders propose may stay, which is why the filter on the edges
takes none away. -/
theorem keeps_context {e : GraphEdge}
    (he : e ∈ (EdgeBuilder.imports (buildGraph root analyses paths).graph.context).edges ∨
      e ∈ (EdgeBuilder.calls (buildGraph root analyses paths).graph.context).edges) :
    keeps (buildGraph root analyses paths).graph.context.fileIds e = true := by
  have hfiles : ∀ file ∈ (buildGraph root analyses paths).graph.context.files,
      (buildGraph root analyses paths).graph.context.fileIds.contains file.id = true :=
    fun _ => contains_of_mem_files_context EdgeBuilder.standard root analyses paths
  rcases he with he | he
  · exact EdgeBuilder.keeps_of_mem_imports hfiles he
  · exact EdgeBuilder.keeps_of_mem_calls hfiles he

/-- With the standard builders, all that is proposed stays: the imports' edges and then the
calls'. -/
theorem edges_buildGraph :
    (buildGraph root analyses paths).graph.edges
      = (EdgeBuilder.imports (buildGraph root analyses paths).graph.context).edges
        ++ (EdgeBuilder.calls (buildGraph root analyses paths).graph.context).edges := by
  have hkeeps := fun e => @keeps_context root analyses paths e
  -- Filtering drops nothing, as the edges of both builders pass its test.
  rw [buildGraph, edges_build]
  rw [buildGraph] at hkeeps
  generalize (build EdgeBuilder.standard root analyses paths).graph.context = ctx at hkeeps ⊢
  rw [EdgeBuilder.standard, List.flatMap_cons, List.flatMap_cons, List.flatMap_nil,
    List.append_nil, List.filter_eq_self]
  intro e he
  exact hkeeps e (List.mem_append.mp he)

end Standard

/-- An import that means no file is a failure to resolve it. -/
theorem kind_of_mem_imports {ctx : EdgeContext} {d : Diagnostic}
    (h : d ∈ (EdgeBuilder.imports ctx).diagnostics) : d.kind = .resolutionFailure := by
  obtain ⟨file, -, h⟩ := List.mem_flatMap.mp h
  obtain ⟨⟨i, index⟩, -, h⟩ := List.mem_flatMap.mp h
  simp only [EdgeBuilder.linkImport] at h
  split at h
  · exact absurd h List.not_mem_nil
  · rw [List.mem_singleton.mp h]
    rfl

/-- The problems met in building a graph are failures to resolve a path or an import. -/
theorem kind_of_mem_buildGraph {root : Path} {analyses : List FileAnalysis} {paths : List Path}
    {d : Diagnostic} (h : d ∈ (buildGraph root analyses paths).diagnostics) :
    d.kind = .resolutionFailure := by
  rw [buildGraph, diagnostics_build, List.mem_append] at h
  rcases h with h | h
  · -- A path that has an id is no problem.
    obtain ⟨path, -, h⟩ := List.mem_filterMap.mp h
    split at h
    · exact absurd h (by simp)
    · rw [← Option.some.inj h]
  · rw [EdgeBuilder.standard, List.flatMap_cons, List.flatMap_cons, List.flatMap_nil,
      List.append_nil, List.mem_append] at h
    rcases h with h | h
    · exact kind_of_mem_imports h
    · exact absurd h List.not_mem_nil

end GraphBuild

end CodeAtlas
