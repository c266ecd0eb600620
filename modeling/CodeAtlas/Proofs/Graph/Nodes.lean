import CodeAtlas.Graph.Build
import CodeAtlas.Proofs.FileId.OfPath
import CodeAtlas.Proofs.Graph.FileSet

/-!
# `CodeAtlas.Proofs.Graph.Nodes`: the nodes of a built graph

The files of a graph are the listed files without repeats (`distinct`), its directories what
their ids climb to (`directories`). The theorems:

* `map_id_distinct`, `nodup_map_id_distinct`: the ids of the files are the ids of the listed
  paths with repeats erased.
* `find?_of_mem_distinct`: a file of the graph is the first listed one with its id.
* `mem_directories_iff`: a directory is one that is above a file.
* `fileNodes_build`, `directoryNodes_build`, `nodes_build`: the nodes of the graph, by kind.
-/

set_option autoImplicit false

namespace CodeAtlas

namespace ProjectGraph

/-- The nodes that stand for directories. -/
def directoryNodes (g : ProjectGraph) : List GraphNode :=
  g.nodes.filter fun n => n.kind = .directory

/-- The ids of the files. -/
def fileIds (g : ProjectGraph) : List FileId :=
  g.fileNodes.map GraphNode.id

/-- The ids of the directories. -/
def directoryIds (g : ProjectGraph) : List FileId :=
  g.directoryNodes.map GraphNode.id

end ProjectGraph

namespace GraphBuild

/-! ### The distinct files -/

variable {seen : List FileId} {files : List Listed}

/-- The ids that are kept are those not seen before, each where it occurs first. -/
theorem map_id_distinct (seen : List FileId) (files : List Listed) :
    (distinct seen files).map Listed.id
      = ((files.map Listed.id).filter fun f => !seen.contains f).eraseDups := by
  fun_induction distinct seen files with
  | case1 seen => rfl
  | case2 seen f rest hseen ih =>
    rw [ih, List.map_cons, List.filter_cons_of_neg (by simpa using hseen)]
  | case3 seen f rest hseen ih =>
    -- In what is left, an id is new if it is new behind `seen` and not the id of `f`.
    have hfilter : ∀ g, (!(f.id :: seen).contains g) = (!g == f.id && !seen.contains g) := by
      intro g
      rw [List.contains_cons, Bool.not_or]
    rw [List.map_cons, ih, List.map_cons, List.filter_cons_of_pos (by simpa using hseen),
      List.eraseDups_cons, List.filter_filter]
    simp only [hfilter]

/-- What was seen before is not kept. -/
theorem id_not_mem_of_mem_distinct {f : Listed} (h : f ∈ distinct seen files) :
    f.id ∉ seen := by
  fun_induction distinct seen files with
  | case1 seen => exact absurd h List.not_mem_nil
  | case2 seen g rest hseen ih => exact ih h
  | case3 seen g rest hseen ih =>
    rcases List.mem_cons.mp h with rfl | h
    · simpa using hseen
    · exact fun hmem => ih h (List.mem_cons_of_mem _ hmem)

/-- No two files that are kept have the same id. -/
theorem nodup_map_id_distinct (seen : List FileId) (files : List Listed) :
    ((distinct seen files).map Listed.id).Nodup := by
  fun_induction distinct seen files with
  | case1 seen => exact List.nodup_nil
  | case2 seen f rest hseen ih => exact ih
  | case3 seen f rest hseen ih =>
    refine List.nodup_cons.mpr ⟨?_, ih⟩
    intro hmem
    obtain ⟨g, hg, hid⟩ := List.mem_map.mp hmem
    exact id_not_mem_of_mem_distinct hg (hid ▸ List.mem_cons_self)

/-- No listed file is dropped if all ids are different. -/
theorem distinct_of_nodup (hnodup : (files.map Listed.id).Nodup) (hnew : ∀ f ∈ files, f.id ∉ seen) :
    distinct seen files = files := by
  fun_induction distinct seen files with
  | case1 seen => rfl
  | case2 seen f rest hseen ih =>
    exact absurd (by simpa using hseen) (hnew f List.mem_cons_self)
  | case3 seen f rest hseen ih =>
    rw [List.map_cons, List.nodup_cons] at hnodup
    rw [ih hnodup.2]
    intro g hg hmem
    rcases List.mem_cons.mp hmem with heq | hmem
    · exact hnodup.1 (heq ▸ List.mem_map_of_mem hg)
    · exact hnew g (List.mem_cons_of_mem _ hg) hmem

/-- A file that is kept is the first one with its id. -/
theorem find?_of_mem_distinct {f : Listed} (h : f ∈ distinct seen files) :
    files.find? (fun g => g.id = f.id) = some f := by
  fun_induction distinct seen files with
  | case1 seen => exact absurd h List.not_mem_nil
  | case2 seen g rest hseen ih =>
    -- `g` was seen before, so it is not the file that is looked for.
    have hne : g.id ≠ f.id := by
      intro heq
      exact id_not_mem_of_mem_distinct h (heq ▸ by simpa using hseen)
    rw [List.find?_cons_of_neg (by simpa using hne)]
    exact ih h
  | case3 seen g rest hseen ih =>
    rcases List.mem_cons.mp h with rfl | h
    · exact List.find?_cons_of_pos (by simp)
    · have hne : g.id ≠ f.id := by
        intro heq
        exact id_not_mem_of_mem_distinct h (heq ▸ List.mem_cons_self)
      rw [List.find?_cons_of_neg (by simpa using hne)]
      exact ih h

/-- The ids of the files inside a project are those that their paths have. -/
theorem map_id_inside (root : Path) (paths : List Path) :
    (inside root paths).map Listed.id = paths.filterMap (FileId.ofPath? root) := by
  rw [inside, List.map_filterMap]
  refine List.filterMap_congr fun path _ => ?_
  cases FileId.ofPath? root path with
  | none => rfl
  | some f => rfl

/-- The files of a graph are all files inside the project, if their ids are different. -/
theorem distinct_inside {root : Path} {paths : List Path}
    (h : (paths.filterMap (FileId.ofPath? root)).Nodup) :
    distinct [] (inside root paths) = inside root paths :=
  distinct_of_nodup (by rwa [map_id_inside]) fun _ _ => List.not_mem_nil

/-- A file of the graph was listed with the first path that has its id. -/
theorem find?_path_of_mem_distinct {root : Path} {paths : List Path} {f : Listed}
    (h : f ∈ distinct [] (inside root paths)) :
    paths.find? (fun path => FileId.ofPath? root path = some f.id) = some f.path := by
  have hfind := find?_of_mem_distinct h
  rw [inside, List.find?_filterMap, Option.bind_eq_some_iff] at hfind
  obtain ⟨path, hpath, hf⟩ := hfind
  obtain ⟨g, hg, rfl⟩ := Option.map_eq_some_iff.mp hf
  rw [← hpath]
  congr 1
  funext p
  cases FileId.ofPath? root p with
  | none => rfl
  | some g' => simp

/-- The id of a file of the graph does not begin with a slash. -/
theorem relative_of_mem_distinct {root : Path} {paths : List Path} {f : Listed}
    (h : f ∈ distinct [] (inside root paths)) : FileId.Relative f.id := by
  have hpath := List.find?_some (find?_path_of_mem_distinct h)
  exact FileId.relative_of_ofPath? (of_decide_eq_true hpath)

/-- A record belongs to the file that it is looked up for, also where the record is made up. -/
theorem recordOf_id (analyses : List FileAnalysis) (f : Listed) :
    (recordOf analyses f).id = f.id := by
  rw [recordOf]
  cases hfind : analyses.find? fun a => a.id = f.id with
  | none => rfl
  | some a =>
    have hid := List.find?_some hfind
    simpa using hid

/-! ### The directories -/

/-- The directories are those above a file. -/
theorem mem_directories_iff {dir : FileId} :
    dir ∈ directories files ↔ ∃ f ∈ files, FileId.IsAbove dir f.id := by
  rw [directories, FileSet.mem_ids_ofList, List.mem_flatMap]
  simp only [FileId.mem_ancestors_map_iff]

/-- The parent of a file is among the directories. -/
theorem mem_directories_of_parent? {f : Listed} {p : FileId} (hf : f ∈ files)
    (h : f.id.parent? = some p) : p ∈ directories files :=
  mem_directories_iff.mpr ⟨f, hf, FileId.isAbove_of_parent?_eq_some h⟩

/-- The parent of a directory is among the directories. -/
theorem mem_directories_of_mem {dir p : FileId} (hdir : dir ∈ directories files)
    (h : dir.parent? = some p) : p ∈ directories files := by
  obtain ⟨f, hf, habove⟩ := mem_directories_iff.mp hdir
  exact mem_directories_iff.mpr ⟨f, hf, (FileId.isAbove_of_parent?_eq_some h).trans habove⟩

/-! ### The graph -/

section Graph

variable (builders : List EdgeBuilder) (root : Path) (analyses : List FileAnalysis)
  (paths : List Path)

/-- The file nodes of the graph stand for the distinct files inside the project. -/
theorem fileNodes_build :
    (build builders root analyses paths).graph.fileNodes
      = (distinct [] (inside root paths)).map (fileNode analyses) := by
  rw [ProjectGraph.fileNodes, build, List.filter_append]
  have hdirs : (((directories (distinct [] (inside root paths))).map directoryNode).filter
      GraphNode.isFile) = [] := by
    simp [List.filter_eq_nil_iff, directoryNode, GraphNode.isFile]
  have hfiles : (((distinct [] (inside root paths)).map (fileNode analyses)).filter
      GraphNode.isFile) = (distinct [] (inside root paths)).map (fileNode analyses) := by
    simp [List.filter_eq_self, fileNode, GraphNode.isFile]
  rw [hdirs, hfiles, List.nil_append]

/-- The directory nodes of the graph stand for the directories of these files. -/
theorem directoryNodes_build :
    (build builders root analyses paths).graph.directoryNodes
      = (directories (distinct [] (inside root paths))).map directoryNode := by
  rw [ProjectGraph.directoryNodes, build, List.filter_append]
  have hdirs : (((directories (distinct [] (inside root paths))).map directoryNode).filter
      fun n => n.kind = .directory)
        = (directories (distinct [] (inside root paths))).map directoryNode := by
    simp [List.filter_eq_self, directoryNode]
  have hfiles : (((distinct [] (inside root paths)).map (fileNode analyses)).filter
      fun n => n.kind = .directory) = [] := by
    simp [List.filter_eq_nil_iff, fileNode]
  rw [hdirs, hfiles, List.append_nil]

/-- The directories stand before the files. -/
theorem nodes_build :
    (build builders root analyses paths).graph.nodes
      = (build builders root analyses paths).graph.directoryNodes
        ++ (build builders root analyses paths).graph.fileNodes := by
  rw [directoryNodes_build, fileNodes_build]
  rfl

/-- The ids of the file nodes are those of the paths inside the root, each once, in the order of the
paths. -/
theorem fileIds_build :
    (build builders root analyses paths).graph.fileIds
      = (distinct [] (inside root paths)).map Listed.id := by
  rw [ProjectGraph.fileIds, fileNodes_build, List.map_map]
  rfl

/-- The ids of the directory nodes are those above the files, sorted. -/
theorem directoryIds_build :
    (build builders root analyses paths).graph.directoryIds
      = directories (distinct [] (inside root paths)) := by
  rw [ProjectGraph.directoryIds, directoryNodes_build, List.map_map]
  exact List.map_id _

end Graph

end GraphBuild

end CodeAtlas
