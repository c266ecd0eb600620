import CodeAtlas.Proofs.FileId.OfPath
import CodeAtlas.Proofs.Graph.Edges
import CodeAtlas.Proofs.Outcomes

/-!
# `CodeAtlas.Proofs.Graph.Linked`: what is linked in a graph, and what is not

The edges and problems of a graph are given here by loops over its own files, without an index of
names and without a filter behind. The theorems:

* `calling_edges_eq`: the calls' edges are one for each call and each declaration of its name in
  another file, in the order of the files, their calls, the files again, and their symbols.
* `imports_accounted`: each import gives an edge or a problem, each path outside of the project
  gives a problem, and there are no other problems.

The builders saw records, not nodes. A record has the id of its node (`imports_context_eq`), and
another file node of a graph is one with another id (`filter_ne_fileNode`).
-/

set_option autoImplicit false

namespace CodeAtlas

namespace GraphNode

/-- The symbols that a node's file declares. -/
def symbols (n : GraphNode) : List Symbol :=
  (n.file.map FileAnalysis.symbols).getD []

/-- The calls that a node's file makes. -/
def calls (n : GraphNode) : List CallSite :=
  (n.file.map FileAnalysis.calls).getD []

/-- The imports that a node's file asks for. -/
def imports (n : GraphNode) : List RawImport :=
  (n.file.map FileAnalysis.imports).getD []

end GraphNode

/-! ### Pairs of calls and declarations -/

/-- A call in a file, and a declaration of its name in another file. -/
structure CallPair where
  caller : GraphNode
  call : CallSite
  /-- The place of the call among the calls of its file. -/
  index : Nat
  callee : GraphNode
  symbol : Symbol

/-- The edge of a call and a declaration. -/
def CallPair.edge (p : CallPair) : GraphEdge where
  id := "call-" ++ p.caller.id ++ "-" ++ toString p.index ++ "-" ++ p.callee.id ++ "-" ++
    toString p.symbol.line
  source := p.caller.id
  target := p.callee.id
  kind := .calling
  metadata := .calling p.call.name p.call.line p.symbol.line
    ("call-" ++ p.call.name ++ "-line-" ++ toString p.call.line) (p.call.name ++ "-in")

/-- All pairs of a call and a declaration of its name in another file: for each file and each of
its calls, each other file and each of its symbols with the name that is called. -/
def ProjectGraph.callPairs (g : ProjectGraph) : List CallPair :=
  g.fileNodes.flatMap fun f => f.calls.zipIdx.flatMap fun call =>
    (g.fileNodes.filter fun h => h ≠ f).flatMap fun h =>
      (h.symbols.filter fun s => s.name = call.1.name).map fun s => ⟨f, call.1, call.2, h, s⟩

/-! ### Imports and what becomes of them -/

/-- An import of a file. -/
structure FileImport where
  importer : GraphNode
  asked : RawImport
  /-- The place of the import among the imports of its file. -/
  index : Nat

/-- All imports: for each file, each of its imports. -/
def ProjectGraph.fileImports (g : ProjectGraph) : List FileImport :=
  g.fileNodes.flatMap fun f => f.imports.zipIdx.map fun i => ⟨f, i.1, i.2⟩

/-- What becomes of an import: an edge to the file that it means, with the specifier as it was
written, or a problem with the specifier if it means no file. -/
def FileImport.outcome (ids : FileSet) (i : FileImport) : GraphEdge ⊕ Diagnostic :=
  match Resolve.resolve i.asked.modulePath i.importer.id ids with
  | some target => .inl {
      id := "import-" ++ i.importer.id ++ "-" ++ target ++ "-" ++ toString i.index
      source := i.importer.id
      target := target
      kind := .importing
      metadata := .importing i.asked.specifier }
  | none => .inr {
      kind := .resolutionFailure
      subject := i.asked.specifier
      message := "no file matches import in " ++ i.importer.id }

/-- The problem of a path outside of the project. -/
def outsideProblem (path : Path) : Diagnostic where
  kind := .resolutionFailure
  subject := path.text
  message := "file is outside the project root"

/-- The listed paths outside of the project: those without an id. -/
def outsidePaths (root : Path) (paths : List Path) : List Path :=
  paths.filter fun path => FileId.ofPath? root path = none

/-! ### From the nodes to what the builders saw -/

namespace GraphBuild

/-- The edges of imports are of their kind. -/
theorem kind_of_mem_edges_imports {ctx : EdgeContext} {e : GraphEdge}
    (he : e ∈ (EdgeBuilder.imports ctx).edges) : e.kind = .importing := by
  obtain ⟨file, -, he⟩ := List.mem_flatMap.mp he
  obtain ⟨⟨i, index⟩, -, he⟩ := List.mem_flatMap.mp he
  simp only [EdgeBuilder.linkImport] at he
  split at he
  · rw [List.mem_singleton.mp he]
    rfl
  · exact absurd he List.not_mem_nil

/-- The edges of calls are of their kind. -/
theorem kind_of_mem_edges_calls {ctx : EdgeContext} {e : GraphEdge}
    (he : e ∈ (EdgeBuilder.calls ctx).edges) : e.kind = .calling := by
  obtain ⟨file, -, he⟩ := List.mem_flatMap.mp he
  obtain ⟨⟨call, index⟩, -, he⟩ := List.mem_flatMap.mp he
  obtain ⟨d, -, rfl⟩ := List.mem_map.mp he
  rfl

/-- Of edges that are all of one kind, those of a kind are all or none. -/
theorem filter_kind_of_forall {es : List GraphEdge} {own : EdgeKind} (h : ∀ e ∈ es, e.kind = own)
    (kind : EdgeKind) : es.filter (fun e => e.kind = kind) = if own = kind then es else [] := by
  split
  · rename_i heq
    exact List.filter_eq_self.mpr fun e he => by simp [h e he, heq]
  · rename_i hne
    exact List.filter_eq_nil_iff.mpr fun e he => by simp [h e he, hne]

section Build

variable (root : Path) (analyses : List FileAnalysis) (paths : List Path)

/-- All that was proposed for calls stays, and nothing else of that kind is there. -/
theorem filter_calling_edges :
    (buildGraph root analyses paths).graph.edges.filter (fun e => e.kind = .calling)
      = (EdgeBuilder.calls (buildGraph root analyses paths).graph.context).edges := by
  rw [edges_buildGraph, List.filter_append,
    filter_kind_of_forall fun _ => kind_of_mem_edges_imports,
    filter_kind_of_forall fun _ => kind_of_mem_edges_calls]
  rfl

/-- All that was proposed for imports stays, and nothing else of that kind is there. -/
theorem filter_importing_edges :
    (buildGraph root analyses paths).graph.edges.filter (fun e => e.kind = .importing)
      = (EdgeBuilder.imports (buildGraph root analyses paths).graph.context).edges := by
  rw [edges_buildGraph, List.filter_append,
    filter_kind_of_forall fun _ => kind_of_mem_edges_imports,
    filter_kind_of_forall fun _ => kind_of_mem_edges_calls]
  exact List.append_nil _

/-- Another file node of the graph is one with another id. -/
theorem filter_ne_fileNode {f : Listed} (hf : f ∈ distinct [] (inside root paths)) :
    ((distinct [] (inside root paths)).map (fileNode analyses)).filter
        (fun n => n ≠ fileNode analyses f)
      = ((distinct [] (inside root paths)).filter fun g => g.id ≠ f.id).map
          (fileNode analyses) := by
  rw [List.filter_map]
  congr 1
  refine List.filter_congr fun g hg => ?_
  -- Of the files that were kept, no two have the same id.
  have hiff : fileNode analyses g = fileNode analyses f ↔ g.id = f.id := by
    constructor
    · intro h
      exact congrArg GraphNode.id h
    · intro h
      rw [List.inj_on_of_nodup_map (nodup_map_id_distinct [] _) hg hf h]
  simp [hiff]

/-- The calls' edges are those of the pairs of calls and declarations. -/
theorem edges_calls_eq :
    (EdgeBuilder.calls (buildGraph root analyses paths).graph.context).edges
      = (buildGraph root analyses paths).graph.callPairs.map CallPair.edge := by
  rw [ProjectGraph.callPairs, buildGraph, fileNodes_build]
  show (EdgeContext.files _).flatMap _ = _
  rw [files_context, List.flatMap_map, List.map_flatMap, List.flatMap_map]
  refine List.flatMap_congr fun f hf => ?_
  -- Both sides are at the same file; what is left is one loop inside the other.
  rw [List.map_flatMap, filter_ne_fileNode root analyses paths hf]
  refine List.flatMap_congr ?_
  rintro ⟨call, index⟩ -
  simp only [EdgeBuilder.linkCall_ofFiles, List.filter_map, List.flatMap_map, List.map_flatMap,
    Function.comp_def, recordOf_id, List.map_map]
  rfl

/-- What the builder of imports makes of an import is what becomes of it. -/
theorem linkImport_eq (ids : FileSet) (f : GraphNode) (i : RawImport) (index : Nat) :
    EdgeBuilder.linkImport ids f.id i index
      = ⟨(FileImport.outcome ids ⟨f, i, index⟩).getLeft?.toList,
          (FileImport.outcome ids ⟨f, i, index⟩).getRight?.toList⟩ := by
  rw [EdgeBuilder.linkImport, FileImport.outcome]
  cases Resolve.resolve i.modulePath f.id ids with
  | none => rfl
  | some target => rfl

/-- What the builder of imports makes of all imports. -/
theorem imports_context_eq :
    let g := (buildGraph root analyses paths).graph
    let outcomes := g.fileImports.map (FileImport.outcome (.ofList g.fileIds))
    EdgeBuilder.imports g.context = ⟨Outcomes.made outcomes, Outcomes.reported outcomes⟩ := by
  intro g outcomes
  have hfiles : g.context.files = (distinct [] (inside root paths)).map (recordOf analyses) :=
    files_context _ _ _ _
  have hnodes : g.fileNodes = (distinct [] (inside root paths)).map (fileNode analyses) :=
    fileNodes_build _ _ _ _
  -- A record has the id of its node, so an import may be looked at from the node.
  have hlink : ∀ (f : Listed) (i : RawImport) (index : Nat),
      EdgeBuilder.linkImport g.context.fileIds (recordOf analyses f).id i index
        = EdgeBuilder.linkImport (.ofList g.fileIds) (fileNode analyses f).id i index := by
    intro f i index
    rw [recordOf_id]
    rfl
  simp only [outcomes, Outcomes.made_map, Outcomes.reported_map, ProjectGraph.fileImports, hnodes,
    List.flatMap_map, List.flatMap_assoc]
  simp only [EdgeBuilder.imports, EdgeBatch.collect, hfiles, List.flatMap_map, hlink, linkImport_eq]
  rfl

/-- Each path outside of the project is reported, as often as it is listed. -/
theorem outside_eq : outside root paths = (outsidePaths root paths).map outsideProblem := by
  rw [outside, outsidePaths]
  induction paths with
  | nil => rfl
  | cons path rest ih =>
    cases hid : FileId.ofPath? root path with
    | none => simp [hid, ih, outsideProblem]
    | some id => simp [hid, ih]

/-- The problems are those of the paths outside and those of the imports. -/
theorem diagnostics_buildGraph :
    let b := buildGraph root analyses paths
    b.diagnostics = (outsidePaths root paths).map outsideProblem ++
      Outcomes.reported
        (b.graph.fileImports.map (FileImport.outcome (.ofList b.graph.fileIds))) := by
  intro b
  -- The builder of calls reports nothing.
  have hbuilders : b.diagnostics
      = outside root paths ++ (EdgeBuilder.imports b.graph.context).diagnostics := by
    show (build _ _ _ _).diagnostics = _
    rw [diagnostics_build]
    simp [EdgeBuilder.standard, EdgeBuilder.calls, b, buildGraph]
  rw [hbuilders, outside_eq, imports_context_eq]

/-- Each import of each file is there once. -/
theorem length_fileImports (g : ProjectGraph) :
    g.fileImports.length = (g.fileNodes.flatMap GraphNode.imports).length := by
  simp [ProjectGraph.fileImports, List.length_flatMap]

end Build

end GraphBuild

/-! ### All links of a graph -/

/-- **Calls are linked exactly.** Take any root, analyses and paths. The calls' edges of the graph
are, in order, one for each file, each of its calls, each other file, and each of its symbols with
the name that is called. These are the edges that were proposed for calls, and none of them was
dropped. -/
theorem calling_edges_eq (root : Path) (analyses : List FileAnalysis) (paths : List Path) :
    let g := (buildGraph root analyses paths).graph
    g.edges.filter (fun e => e.kind = .calling) = g.callPairs.map CallPair.edge ∧
      (EdgeBuilder.calls g.context).edges = g.callPairs.map CallPair.edge ∧
      ∀ e ∈ (EdgeBuilder.calls g.context).edges,
        GraphBuild.keeps g.context.fileIds e = true := by
  intro g
  have hproposed := GraphBuild.edges_calls_eq root analyses paths
  refine ⟨?_, hproposed, ?_⟩
  · rw [GraphBuild.filter_calling_edges, hproposed]
  · intro e he
    exact GraphBuild.keeps_context root analyses paths (.inr he)

/-- **Every import and every file is accounted for.** Take any root, analyses and paths. For each
of the imports of all files there is one edge to the file that it means or one problem, both in the
order of the imports; for each listed path outside of the project, that is, one that does not begin
with the root or has no name behind it, there is one problem. There are no other edges of that kind
and no other problems, so that edges and problems are as many as imports and paths outside. None of
the edges that were proposed for imports was dropped. -/
theorem imports_accounted (root : Path) (analyses : List FileAnalysis) (paths : List Path) :
    let b := buildGraph root analyses paths
    let g := b.graph
    let outcomes := g.fileImports.map (FileImport.outcome (.ofList g.fileIds))
    g.edges.filter (fun e => e.kind = .importing) = Outcomes.made outcomes ∧
      b.diagnostics
        = (outsidePaths root paths).map outsideProblem ++ Outcomes.reported outcomes ∧
      (g.edges.filter fun e => e.kind = .importing).length + b.diagnostics.length
        = (g.fileNodes.flatMap GraphNode.imports).length + (outsidePaths root paths).length ∧
      (∀ path, path ∈ outsidePaths root paths ↔ path ∈ paths ∧
        ∀ rest, path.components = root.components ++ rest → Path.namesOf rest = []) ∧
      (EdgeBuilder.imports g.context).edges = Outcomes.made outcomes ∧
      ∀ e ∈ (EdgeBuilder.imports g.context).edges,
        GraphBuild.keeps g.context.fileIds e = true := by
  intro b g outcomes
  have hproposed : (EdgeBuilder.imports g.context).edges = Outcomes.made outcomes :=
    congrArg EdgeBatch.edges (GraphBuild.imports_context_eq root analyses paths)
  have hedges : g.edges.filter (fun e => e.kind = .importing) = Outcomes.made outcomes := by
    rw [← hproposed]
    exact GraphBuild.filter_importing_edges root analyses paths
  have hproblems : b.diagnostics
      = (outsidePaths root paths).map outsideProblem ++ Outcomes.reported outcomes :=
    GraphBuild.diagnostics_buildGraph root analyses paths
  refine ⟨hedges, hproblems, ?_, ?_, hproposed, ?_⟩
  · have hboth := Outcomes.length_made_add_length_reported outcomes
    -- Every import has one outcome, and no outcome is both an edge and a problem.
    have himports : outcomes.length = (g.fileNodes.flatMap GraphNode.imports).length := by
      rw [List.length_map, GraphBuild.length_fileImports]
    rw [hedges, hproblems, List.length_append, List.length_map]
    omega
  · intro path
    rw [outsidePaths, List.mem_filter, decide_eq_true_iff, FileId.ofPath?_eq_none_iff]
  · intro e he
    exact GraphBuild.keeps_context root analyses paths (.inl he)

end CodeAtlas
