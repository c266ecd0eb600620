import CodeAtlas.Command.Report
import CodeAtlas.Proofs.Keys
import CodeAtlas.Proofs.Retrieval.Semantic

/-!
# `CodeAtlas.Proofs.Command.Stale`: files that have vectors but are gone

Two parts of the program look for stored files that the graph no longer has. The status counts the
ids that no node has, be it a file or a directory. The search among vectors passes over the records
of all ids that no file has. Where a file has made way for a directory of its name, they disagree.
The theorems:

* `exists_node_iff`, `node?_eq_none_iff`, `hasFile_iff`: the two tests, in terms of the ids of files
  and directories.
* `exists_mem_nearest_iff`, `mem_passedOver_iff`: whose records a search passes over.
* `nodup_fileIds`, `perm_fileIds_store`: the files of a table, each once, are those of its store.
* `length_passedOver_eq`: by how many the search passes over more files than the status counts.
-/

set_option autoImplicit false

namespace CodeAtlas

namespace ProjectGraph

variable {g : ProjectGraph} {id : FileId}

/-- The ids of the nodes are those of directories and of files. -/
theorem exists_node_iff :
    (∃ n ∈ g.nodes, n.id = id) ↔ id ∈ g.directoryIds ∨ id ∈ g.fileIds := by
  -- There are two kinds of nodes, so having an id is having it as one of them.
  have hkind : ∀ n : GraphNode, n.kind = .directory ∨ n.isFile = true := by
    intro n
    rw [GraphNode.isFile]
    cases n.kind <;> simp
  rw [directoryIds, fileIds, directoryNodes, fileNodes, List.mem_map, List.mem_map]
  constructor
  · rintro ⟨n, hn, hid⟩
    rcases hkind n with hdirectory | hfile
    · exact .inl ⟨n, List.mem_filter.mpr ⟨hn, decide_eq_true hdirectory⟩, hid⟩
    · exact .inr ⟨n, List.mem_filter.mpr ⟨hn, hfile⟩, hid⟩
  · rintro (⟨n, hn, hid⟩ | ⟨n, hn, hid⟩)
    · exact ⟨n, List.mem_of_mem_filter hn, hid⟩
    · exact ⟨n, List.mem_of_mem_filter hn, hid⟩

/-- An id has no node exactly if it is no directory's and no file's. -/
theorem node?_eq_none_iff : g.node? id = none ↔ id ∉ g.directoryIds ∧ id ∉ g.fileIds := by
  rw [← not_or, ← exists_node_iff]
  simp [node?]

end ProjectGraph

/-- A table names each of its files once. -/
theorem VectorTable.nodup_fileIds (table : VectorTable) : table.fileIds.Nodup :=
  (List.mergeSort_perm _ _).nodup_iff.mpr (nodup_eraseDups _)

/-- A table and its store have the same files, in the order of their ids or of the rows. -/
theorem VectorTable.perm_fileIds_store (table : VectorTable) :
    table.store.fileIds.Perm table.fileIds := by
  have hrecords : table.store.records.map EmbeddingRecord.fileId
      = table.rows.map VectorRow.fileId := by
    rw [store, List.map_map]
    rfl
  rw [VectorStore.fileIds, hrecords]
  exact (List.mergeSort_perm _ _).symm

namespace Retriever

variable {r : Retriever} {id : FileId}

/-- The files of the store whose records the search among vectors passes over: no match is theirs,
even if as many are asked for as there are records. -/
def passedOver (r : Retriever) (vector : List Single) : List FileId :=
  r.store.fileIds.filter fun id => (r.nearest vector r.store.size).all fun m => m.fileId ≠ id

/-- The test of the search among vectors is for the ids of files alone. -/
theorem hasFile_iff : r.hasFile id = true ↔ id ∈ r.graph.fileIds := by
  simp [hasFile, ProjectGraph.fileIds]

/-- If all matches are asked for, there are some of a file exactly if the store has a record of it
and the graph has the file. -/
theorem exists_mem_nearest_iff (r : Retriever) (vector : List Single) (id : FileId) :
    (∃ m ∈ r.nearest vector r.store.size, m.fileId = id) ↔
      id ∈ r.store.fileIds ∧ id ∈ r.graph.fileIds := by
  have hperm := r.current.store.perm_ranked vector
  -- The limit is the size of the whole store, so it cuts nothing off from what is left of it.
  have hall : (r.current.store.ranked vector).take r.store.size
      = r.current.store.ranked vector := by
    refine List.take_of_length_le ?_
    rw [hperm.length_eq, VectorStore.scored, List.length_map]
    exact List.length_filter_le _ _
  rw [nearest_eq, hall, ← hasFile_iff, VectorStore.fileIds, List.mem_eraseDups, List.mem_map]
  constructor
  · rintro ⟨m, hm, rfl⟩
    obtain ⟨found, hfound, rfl⟩ := List.mem_map.mp hm
    obtain ⟨x, hx, rfl⟩ := List.mem_map.mp (hperm.mem_iff.mp hfound)
    obtain ⟨hstored, hfile⟩ := List.mem_filter.mp hx
    exact ⟨⟨x, hstored, rfl⟩, hfile⟩
  · rintro ⟨⟨x, hstored, rfl⟩, hfile⟩
    have hx : x ∈ r.current.store.records := List.mem_filter.mpr ⟨hstored, hfile⟩
    have hfound := hperm.mem_iff.mpr (List.mem_map_of_mem hx)
    exact ⟨_, List.mem_map_of_mem hfound, rfl⟩

/-- What is passed over are the files of the store that the graph does not have. -/
theorem passedOver_eq (r : Retriever) (vector : List Single) :
    r.passedOver vector = r.store.fileIds.filter fun id => id ∉ r.graph.fileIds := by
  refine List.filter_congr fun id hid => ?_
  rw [Bool.eq_iff_iff, List.all_eq_true, decide_eq_true_eq]
  have hnone := not_congr (r.exists_mem_nearest_iff vector id)
  simpa [hid] using hnone

end Retriever

/-- **The search among vectors passes over the files that the status counts, and over those that are
directories now.** Take any graph, any table, any embedder and any vector that the records are
compared with. Both count each file once, and all files that the status counts are passed over. By
how many more are passed over is the number of stored ids that are a directory's in the graph and no
file's. So the two numbers agree exactly if each stored id that is a directory's is a file's as
well. -/
theorem length_passedOver_eq (g : ProjectGraph) (table : VectorTable) (embedder : Embedder)
    (vector : List Single) :
    let passed := Retriever.passedOver ⟨g, table.store, embedder⟩ vector
    let stale := Report.staleFiles table g
    let replaced := table.fileIds.filter fun id => id ∈ g.directoryIds ∧ id ∉ g.fileIds
    passed.Nodup ∧ stale.Nodup ∧ stale ⊆ passed ∧ passed.length = stale.length + replaced.length ∧
      (stale.length = passed.length ↔
        ∀ id ∈ table.fileIds, id ∈ g.directoryIds → id ∈ g.fileIds) := by
  intro passed stale replaced
  let gone := table.fileIds.filter fun id => id ∉ g.fileIds
  have hpassed : passed.Perm gone := by
    have hsame := table.perm_fileIds_store.filter fun id => decide (id ∉ g.fileIds)
    rwa [← Retriever.passedOver_eq ⟨g, table.store, embedder⟩ vector] at hsame
  -- Of the ids that no file has, the status leaves out those of directories.
  have hstale : stale = gone.filter fun id => id ∉ g.directoryIds := by
    rw [List.filter_filter]
    refine List.filter_congr fun id _ => ?_
    rw [Bool.eq_iff_iff, Option.isNone_iff_eq_none, ProjectGraph.node?_eq_none_iff]
    simp
  have hreplaced : replaced = gone.filter fun id => !decide (id ∉ g.directoryIds) := by
    rw [List.filter_filter]
    refine List.filter_congr fun id _ => ?_
    simp
  have hlength : passed.length = stale.length + replaced.length := by
    rw [hpassed.length_eq, hstale, hreplaced]
    exact List.length_eq_length_filter_add _
  have hgone : gone.Nodup := table.nodup_fileIds.filter _
  refine ⟨hpassed.nodup_iff.mpr hgone, hstale ▸ hgone.filter _, ?_, hlength, ?_⟩
  · intro id hid
    rw [hstale] at hid
    exact hpassed.mem_iff.mpr (List.mem_of_mem_filter hid)
  · have hnone : stale.length = passed.length ↔ replaced = [] := by
      rw [← List.length_eq_zero_iff]
      omega
    rw [hnone, List.filter_eq_nil_iff]
    simp

/-- A file with vectors has made way for a directory of its name. The search among vectors passes
over its record, but the status does not tell of it. -/
theorem length_passedOver_fails :
    let g : ProjectGraph := ⟨[⟨"lib", .directory, "lib", none, none⟩,
      ⟨"lib/x.js", .file, "x.js", some "lib", none⟩], []⟩
    let table : VectorTable := ⟨[⟨"lib", 0, "old", "unknown", Single.one.bytes, "m"⟩]⟩
    let r : Retriever := ⟨g, table.store, ⟨"m", fun _ => .ok [.one]⟩⟩
    Report.staleFiles table g = [] ∧ Report.staleLines table g = [] ∧
      r.passedOver [.one] = ["lib"] ∧
        (Report.staleFiles table g).length ≠ (r.passedOver [.one]).length := by
  intro g table r
  have hstale : Report.staleFiles table g = [] := by
    simp [Report.staleFiles, VectorTable.fileIds, table, g, ProjectGraph.node?]
  have hpassed : r.passedOver [.one] = ["lib"] := by
    rw [Retriever.passedOver_eq]
    decide
  -- The status asks for any node of the id, the search for a file.
  refine ⟨hstale, ?_, hpassed, ?_⟩
  · rw [Report.staleLines, hstale]
    rfl
  · rw [hstale, hpassed]
    decide

end CodeAtlas
