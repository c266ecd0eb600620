import CodeAtlas.Proofs.Graph.Nodes

/-!
# `CodeAtlas.Proofs.Graph.WellFormed`: well-formed project graphs

`ProjectGraph.WellFormed` says how the nodes and edges of a graph relate to the paths and
analyses that it was built from. The theorem:

* `build_wellFormed`: whatever the edge builders propose, the graph that is built is
  well-formed. Its nodes do not depend on the builders, and of the edges only those stay that
  link its files.
-/

set_option autoImplicit false

namespace CodeAtlas

/-- Whether a record says nothing of a file but its path, its id and the language that the id
shows. -/
structure FileAnalysis.IsBlank (r : FileAnalysis) : Prop where
  language : r.language = SourceFile.tagOf (FileId.extensionChars r.id.toList)
  chunks : r.chunks = []
  symbols : r.symbols = []
  calls : r.calls = []
  imports : r.imports = []
  lineCount : r.lineCount = 0
  contentHash : r.contentHash = ""
  text : r.text = ""

namespace ProjectGraph

/-- What holds of the graph of a project with given analyses and listed paths. -/
structure WellFormed (root : Path) (analyses : List FileAnalysis) (paths : List Path)
    (g : ProjectGraph) : Prop where
  /-- All directories come first. -/
  directories_first : g.nodes = g.directoryNodes ++ g.fileNodes
  /-- The directories stand in strict order of their ids. -/
  directories_sorted : g.directoryIds.Pairwise (· < ·)
  /-- The directories are exactly those above a file. -/
  mem_directoryIds : ∀ dir, dir ∈ g.directoryIds ↔ ∃ f ∈ g.fileIds, FileId.IsAbove dir f
  /-- Directories carry no records. -/
  directory_file : ∀ n ∈ g.directoryNodes, n.file = none
  /-- The files are the distinct ids of the paths inside the project, each where it occurs
  first. -/
  fileIds_eq : g.fileIds = (paths.filterMap (FileId.ofPath? root)).eraseDups
  /-- A file carries the first analysis with its id. Without one, it carries a blank record
  with its id and the first path that has the id. -/
  file_record : ∀ n ∈ g.fileNodes, ∃ r, n.file = some r ∧ r.id = n.id ∧
    (analyses.find? (fun a => a.id = n.id) = some r ∨
      analyses.find? (fun a => a.id = n.id) = none ∧ r.IsBlank ∧
        paths.find? (fun path => FileId.ofPath? root path = some n.id) = some r.path)
  /-- Exactly the nodes at the root have no parent. -/
  parent_eq_none : ∀ n ∈ g.nodes, n.parent = none ↔ '/' ∉ n.id.toList
  /-- A parent is a directory of the graph, and the id is the parent's, a slash and a name. -/
  parent_eq_some : ∀ n ∈ g.nodes, ∀ p, n.parent = some p →
    p ∈ g.directoryIds ∧ n.id = p ++ "/" ++ n.label ∧ '/' ∉ n.label.toList
  /-- Edges start and end at files. -/
  edge_ends : ∀ e ∈ g.edges, e.source ∈ g.fileIds ∧ e.target ∈ g.fileIds
  /-- No call stays in its file. -/
  no_self_call : ∀ e ∈ g.edges, e.kind = .calling → e.source ≠ e.target
  /-- If no file lies below another file, no two nodes have the same id. -/
  nodup_ids : (∀ a ∈ g.fileIds, ∀ b ∈ g.fileIds, ¬ FileId.IsAbove a b) →
    (g.nodes.map GraphNode.id).Nodup

end ProjectGraph

namespace GraphBuild

/-- The record of a file is the first analysis with its id, or blank. -/
theorem recordOf_cases (analyses : List FileAnalysis) (f : Listed) :
    analyses.find? (fun a => a.id = f.id) = some (recordOf analyses f) ∨
      analyses.find? (fun a => a.id = f.id) = none ∧ (recordOf analyses f).IsBlank ∧
        (recordOf analyses f).path = f.path := by
  rw [recordOf]
  cases hfind : analyses.find? fun a => a.id = f.id with
  | some a => exact .inl rfl
  | none => exact .inr ⟨rfl, ⟨rfl, rfl, rfl, rfl, rfl, rfl, rfl, rfl⟩, rfl⟩

/-- An edge that is kept has files of the graph at both ends, and is no call within a file. -/
theorem keeps_ofList_iff {ids : List FileId} {e : GraphEdge} :
    keeps (FileSet.ofList ids) e = true ↔
      (e.source ∈ ids ∧ e.target ∈ ids) ∧ (e.kind = .calling → e.source ≠ e.target) := by
  rw [keeps, Bool.and_eq_true, Bool.and_eq_true, FileSet.contains_ofList,
    FileSet.contains_ofList]
  refine and_congr_right fun _ => ?_
  by_cases hkind : e.kind = .calling
  · simp [hkind]
  · simp [hkind]

section Build

variable (builders : List EdgeBuilder) (root : Path) (analyses : List FileAnalysis)
  (paths : List Path)

/-- A node of the graph has the parent and the label that its id shows. -/
theorem parent_label_of_mem_nodes {n : GraphNode}
    (h : n ∈ (build builders root analyses paths).graph.nodes) :
    n.parent = n.id.parent? ∧ n.label = n.id.name := by
  rw [nodes_build, directoryNodes_build, fileNodes_build, List.mem_append] at h
  rcases h with h | h
  · obtain ⟨dir, -, rfl⟩ := List.mem_map.mp h
    exact ⟨rfl, rfl⟩
  · obtain ⟨f, -, rfl⟩ := List.mem_map.mp h
    exact ⟨rfl, rfl⟩

/-- A node of the graph has the id of a directory or of a file. -/
theorem id_of_mem_nodes {n : GraphNode}
    (h : n ∈ (build builders root analyses paths).graph.nodes) :
    n.id ∈ directories (distinct [] (inside root paths)) ∨
      ∃ f ∈ distinct [] (inside root paths), n.id = f.id := by
  rw [nodes_build, directoryNodes_build, fileNodes_build, List.mem_append] at h
  rcases h with h | h
  · obtain ⟨dir, hdir, rfl⟩ := List.mem_map.mp h
    exact .inl hdir
  · obtain ⟨f, hf, rfl⟩ := List.mem_map.mp h
    exact .inr ⟨f, hf, rfl⟩

/-- The ids of all nodes are free of leading slashes. -/
theorem relative_of_mem_nodes {n : GraphNode}
    (h : n ∈ (build builders root analyses paths).graph.nodes) : FileId.Relative n.id := by
  rcases id_of_mem_nodes builders root analyses paths h with hdir | ⟨f, hf, hid⟩
  · -- A directory begins like the file that it is above.
    obtain ⟨f, hf, habove⟩ := mem_directories_iff.mp hdir
    exact habove.relative (relative_of_mem_distinct hf)
  · rw [hid]
    exact relative_of_mem_distinct hf

/-- Parents are closed: the parent of a node is a directory of the graph. -/
theorem parent_mem_directories {n : GraphNode} {p : FileId}
    (h : n ∈ (build builders root analyses paths).graph.nodes) (hp : n.id.parent? = some p) :
    p ∈ directories (distinct [] (inside root paths)) := by
  rcases id_of_mem_nodes builders root analyses paths h with hdir | ⟨f, hf, hid⟩
  · exact mem_directories_of_mem hdir hp
  · rw [hid] at hp
    exact mem_directories_of_parent? hf hp

/-- No two nodes of the graph have the same id if no file lies below another file. -/
theorem nodup_ids_build
    (hfree : ∀ a ∈ (build builders root analyses paths).graph.fileIds,
      ∀ b ∈ (build builders root analyses paths).graph.fileIds, ¬ FileId.IsAbove a b) :
    ((build builders root analyses paths).graph.nodes.map GraphNode.id).Nodup := by
  rw [nodes_build, List.map_append]
  show (ProjectGraph.directoryIds _ ++ ProjectGraph.fileIds _).Nodup
  rw [fileIds_build] at hfree
  rw [directoryIds_build, fileIds_build]
  refine List.nodup_append.mpr ⟨FileSet.nodup_ids_ofList _, nodup_map_id_distinct _ _, ?_⟩
  -- A directory is above some file, so a file with its id would be as well.
  rintro dir hdir _ hmem rfl
  obtain ⟨f, hf, habove⟩ := mem_directories_iff.mp hdir
  exact hfree dir hmem f.id (List.mem_map_of_mem hf) habove

/-- **Every graph that is built is well-formed**, for every root, all analyses and paths, and
whatever edges and diagnostics the builders return. -/
theorem build_wellFormed :
    (build builders root analyses paths).graph.WellFormed root analyses paths where
  directories_first := nodes_build builders root analyses paths
  directories_sorted := by
    rw [directoryIds_build]
    exact FileSet.pairwise_ids_ofList _
  mem_directoryIds := by
    intro dir
    rw [directoryIds_build, fileIds_build, mem_directories_iff]
    simp only [List.mem_map, exists_exists_and_eq_and]
  directory_file := by
    intro n hn
    rw [directoryNodes_build] at hn
    obtain ⟨dir, -, rfl⟩ := List.mem_map.mp hn
    rfl
  fileIds_eq := by
    rw [fileIds_build, map_id_distinct, map_id_inside]
    simp
  file_record := by
    intro n hn
    rw [fileNodes_build] at hn
    obtain ⟨f, hf, rfl⟩ := List.mem_map.mp hn
    refine ⟨recordOf analyses f, rfl, recordOf_id analyses f, ?_⟩
    rcases recordOf_cases analyses f with hfirst | ⟨hnone, hblank, hpath⟩
    · exact .inl hfirst
    · refine .inr ⟨hnone, hblank, ?_⟩
      rw [hpath]
      exact find?_path_of_mem_distinct hf
  parent_eq_none := by
    intro n hn
    obtain ⟨hparent, -⟩ := parent_label_of_mem_nodes builders root analyses paths hn
    have hrel := relative_of_mem_nodes builders root analyses paths hn
    rw [hparent]
    -- A parent that is empty could also come from a slash at the front, but there is none.
    constructor
    · intro hnone
      exact (FileId.not_mem_of_parent?_eq_none hrel hnone).1
    · intro hno
      rw [FileId.parent?, FileId.parent, (FileId.parentChars_of_not_mem hno).1]
      rfl
  parent_eq_some := by
    intro n hn p hp
    obtain ⟨hparent, hlabel⟩ := parent_label_of_mem_nodes builders root analyses paths hn
    rw [hparent] at hp
    obtain ⟨-, hsplit, hname⟩ := FileId.eq_append_of_parent?_eq_some hp
    rw [directoryIds_build, hlabel]
    exact ⟨parent_mem_directories builders root analyses paths hn hp, hsplit, hname⟩
  edge_ends := by
    intro e he
    rw [fileIds_build]
    exact (keeps_ofList_iff.mp (List.mem_filter.mp he).2).1
  no_self_call := by
    intro e he
    exact (keeps_ofList_iff.mp (List.mem_filter.mp he).2).2
  nodup_ids := nodup_ids_build builders root analyses paths

end Build

/-- One path is listed twice and one lies outside the project, so two files stay. No one is
above the other, and the ids of all nodes differ. The builder proposes a call within a file,
which does not stay. -/
theorem build_wellFormed_hostile :
    let loop : GraphEdge := ⟨"loop", "src/a.js", "src/a.js", .calling, .calling "f" 1 1 "" ""⟩
    let g := (build [fun _ => ⟨[loop], []⟩] ⟨"/p"⟩ []
      [⟨"/p/src/a.js"⟩, ⟨"/q/b.js"⟩, ⟨"/p/src/a.js"⟩, ⟨"/p/src/b.js"⟩]).graph
    g.fileIds = ["src/a.js", "src/b.js"] ∧ (g.nodes.map GraphNode.id).Nodup ∧
      loop ∉ g.edges := by
  intro loop g
  have hwf : g.WellFormed _ _ _ := build_wellFormed _ _ _ _
  have hids : g.fileIds = ["src/a.js", "src/b.js"] := by
    rw [hwf.fileIds_eq]
    decide
  have hlength : ∀ f ∈ g.fileIds, f.length = 8 := by
    rw [hids]
    decide
  refine ⟨hids, hwf.nodup_ids ?_, fun hloop => hwf.no_self_call loop hloop rfl rfl⟩
  -- An id above another would be shorter.
  rintro a ha b hb ⟨-, rest, hsplit⟩
  have hsum : b.length = a.length + 1 + rest.length := by
    rw [hsplit, String.length_append, String.length_append]
    rfl
  rw [hlength a ha, hlength b hb] at hsum
  omega

end GraphBuild

end CodeAtlas
