import CodeAtlas.Proofs.Graph.Edges
import CodeAtlas.Proofs.Project.Index
import CodeAtlas.Proofs.Project.Scan

/-!
# `CodeAtlas.Proofs.Project.Account`: an index pass accounts for every file and chunk

The places that a scan finds are the measure (`Scan.found`). Each number of a report is the number
of files, directories, chunks or rows that it stands for. The theorems:

* `length_analyses_files`: a file is analyzed, too large or unreadable.
* `perm_unreadable`: an unreadable file has one note, and no other file has one.
* `areAbove_directoryIds`, `length_nodes`: the nodes are the files and the directories above them.
* `countP_embeddingFailure`: with `StoreBuild.length_build`, a chunk has a row or a note.
* `run_accounts`: all of this for a whole pass, and what it leaves behind.
-/

set_option autoImplicit false

namespace CodeAtlas

/-- Whether a file has more bytes than are admitted. -/
def Content.IsOversized (limit : Nat) (x : Content) : Prop :=
  limit < x.byteSize

/-- Whether a file is admitted, but has no text. -/
def Content.IsUnreadable (limit : Nat) (x : Content) : Prop :=
  x.byteSize ≤ limit ∧ x.text.toBool = false

/-- Whether a diagnostic tells that a file has no text. -/
def Diagnostic.TellsUnreadable (d : Diagnostic) : Prop :=
  d.kind = .parseFailure ∧ "unreadable: ".toList <+: d.message.toList

instance (limit : Nat) : DecidablePred (Content.IsOversized limit) :=
  fun x => inferInstanceAs (Decidable (limit < x.byteSize))

instance (limit : Nat) : DecidablePred (Content.IsUnreadable limit) :=
  fun x => inferInstanceAs (Decidable (x.byteSize ≤ limit ∧ x.text.toBool = false))

instance : DecidablePred Diagnostic.TellsUnreadable :=
  fun d => inferInstanceAs
    (Decidable (d.kind = .parseFailure ∧ "unreadable: ".toList <+: d.message.toList))

/-- A file that is too large is not counted as unreadable, for it is never read. -/
theorem Content.IsOversized.not_isUnreadable {limit : Nat} {x : Content} (h : x.IsOversized limit) :
    ¬x.IsUnreadable limit :=
  fun hunread => Nat.not_lt.mpr hunread.1 h

/-- A message that begins with another letter does not tell that a file has no text. -/
theorem Diagnostic.not_tellsUnreadable_of_head {d : Diagnostic} {c : Char}
    (h : d.message.toList.head? = some c) (hc : c ≠ 'u') : ¬d.TellsUnreadable := by
  rintro ⟨-, rest, hrest⟩
  rw [← hrest] at h
  exact hc (Option.some.inj h).symm

/-- Neither wording of a fault begins as what is noted of an unreadable file. -/
theorem ParseFault.head_message (fault : ParseFault) :
    ∃ c, fault.message.toList.head? = some c ∧ c ≠ 'u' := by
  cases fault with
  | rejected cause => exact ⟨'g', congrArg List.head? String.toList_append, by decide⟩
  | noTree => exact ⟨'p', rfl, by decide⟩

/-! ### Files -/

namespace ProjectAnalysis

variable {t : FileTree} {root path : Path} {c : ProjectConfig} {kits : Language → Toolkit}
  {x : Content}

/-- A file is too large, or it is unreadable, or it is analyzed. -/
theorem outcomeOf_cases (root : Path) (c : ProjectConfig) (kits : Language → Toolkit)
    (h : t.content path = .ok x) :
    (x.IsOversized c.maxFileSize ∧ outcomeOf t root c kits path = .oversized) ∨
      (x.IsUnreadable c.maxFileSize ∧ ∃ fault, outcomeOf t root c kits path = .unreadable fault) ∨
        ¬x.IsOversized c.maxFileSize ∧ ¬x.IsUnreadable c.maxFileSize ∧
          ∃ text, outcomeOf t root c kits path
            = .analyzed (Analyzer.analyze c.chunkSize root path text kits) := by
  have hsize : t.byteSize path = x.byteSize := by rw [FileTree.byteSize, h]
  have htext : t.text path = x.text := by
    rw [FileTree.text, h]
    rfl
  rw [outcomeOf, hsize, htext]
  -- The size is looked at before the file is read, so a file that is too large is not found
  -- unreadable.
  by_cases hlarge : c.maxFileSize < x.byteSize
  · exact .inl ⟨hlarge, if_pos hlarge⟩
  rw [if_neg hlarge]
  cases hread : x.text with
  | error fault => exact .inr (.inl ⟨⟨Nat.le_of_not_lt hlarge, by rw [hread]; rfl⟩, fault, rfl⟩)
  | ok text =>
    refine .inr (.inr ⟨hlarge, fun hunread => ?_, text, rfl⟩)
    rw [Content.IsUnreadable, hread] at hunread
    exact absurd hunread.2 Bool.noConfusion

/-- What the analysis of a text reports does not tell that the file has no text. -/
theorem not_tellsUnreadable_of_mem_analyze {chunkSize : Nat} {text : String} {d : Diagnostic}
    (h : d ∈ (Analyzer.analyze chunkSize root path text kits).diagnostics) :
    ¬d.TellsUnreadable := by
  -- Of a fault or of a query, each of the messages begins with another letter.
  have hhead : ∃ c, d.message.toList.head? = some c ∧ c ≠ 'u' := by
    obtain ⟨-, ⟨fault, hmessage⟩ | ⟨what, hwhat, cause, hmessage⟩⟩ :=
      Analyzer.of_mem_diagnostics_analyze _ _ _ _ _ h
    · rw [hmessage]
      exact fault.head_message
    · rw [hmessage, String.toList_append, String.toList_append]
      simp only [List.mem_cons, List.not_mem_nil, or_false] at hwhat
      obtain rfl | rfl | rfl := hwhat <;> exact ⟨_, rfl, by decide⟩
  obtain ⟨c, hc, hne⟩ := hhead
  exact Diagnostic.not_tellsUnreadable_of_head hc hne

/-- What is noted of a file without a text tells so, whatever the fault. -/
theorem tellsUnreadable (subject : String) (fault : FileFault) :
    (⟨.parseFailure, subject, "unreadable: " ++ fault.message⟩ : Diagnostic).TellsUnreadable :=
  ⟨rfl, by rw [String.toList_append]; exact List.prefix_append _ _⟩

/-- The problems are those of the files, in the order of the files. -/
theorem diagnostics_ofFiles (t : FileTree) (root : Path) (c : ProjectConfig) (paths : List Path)
    (kits : Language → Toolkit) :
    (ofFiles t root c paths kits).diagnostics
      = paths.flatMap fun path =>
          (outcomeOf t root c kits path).diagnostics (subject root path) := by
  rw [ofFiles, List.flatMap_map]

/-- What goes wrong with a file is a failure to parse it. -/
theorem kind_of_mem_diagnostics {paths : List Path} {d : Diagnostic}
    (h : d ∈ (ofFiles t root c paths kits).diagnostics) : d.kind = .parseFailure := by
  rw [diagnostics_ofFiles] at h
  obtain ⟨path, -, hd⟩ := List.mem_flatMap.mp h
  rw [outcomeOf] at hd
  split at hd
  · exact absurd hd List.not_mem_nil
  · split at hd
    · exact (Analyzer.of_mem_diagnostics_analyze _ _ _ _ _ hd).1
    · rw [List.mem_singleton.mp hd]

section Found

variable {files : List (Place × Content)}
  (hfiles : ∀ s ∈ files, t.content (Scan.pathTo root s.1) = .ok s.2)

include hfiles

/-- A file is analyzed, too large or unreadable. -/
theorem length_analyses :
    (ofFiles t root c (files.map fun s => Scan.pathTo root s.1) kits).analyses.length
        + files.countP (fun s => s.2.IsOversized c.maxFileSize)
        + files.countP (fun s => s.2.IsUnreadable c.maxFileSize) = files.length := by
  rw [analyses_ofFiles]
  -- Each file adds one to exactly one of the three counts.
  induction files with
  | nil => rfl
  | cons s files ih =>
    rw [List.forall_mem_cons] at hfiles
    have hrest := ih hfiles.2
    rw [List.map_cons, List.length_cons]
    obtain ⟨hlarge, houtcome⟩ | ⟨hunread, fault, houtcome⟩ | ⟨hlarge, hunread, text, houtcome⟩ :=
      outcomeOf_cases root c kits hfiles.1
    · have hread := hlarge.not_isUnreadable
      rw [List.filterMap_cons_none (by rw [houtcome]; rfl), List.countP_cons_of_pos (by simpa),
        List.countP_cons_of_neg (by simpa)]
      omega
    · have hsmall : ¬s.2.IsOversized c.maxFileSize := fun h => h.not_isUnreadable hunread
      rw [List.filterMap_cons_none (by rw [houtcome]; rfl), List.countP_cons_of_neg (by simpa),
        List.countP_cons_of_pos (by simpa)]
      omega
    · rw [List.filterMap_cons_some (by rw [houtcome]; rfl), List.length_cons,
        List.countP_cons_of_neg (by simpa), List.countP_cons_of_neg (by simpa)]
      omega

/-- An unreadable file has one note, and no other file has one. -/
theorem map_subject_unreadable :
    ((ofFiles t root c (files.map fun s => Scan.pathTo root s.1) kits).diagnostics.filter
        fun d => d.TellsUnreadable).map Diagnostic.subject
      = (files.filter fun s => s.2.IsUnreadable c.maxFileSize).map
          fun s => subject root (Scan.pathTo root s.1) := by
  rw [diagnostics_ofFiles]
  induction files with
  | nil => rfl
  | cons s files ih =>
    rw [List.forall_mem_cons] at hfiles
    have hrest := ih hfiles.2
    rw [List.map_cons, List.flatMap_cons, List.filter_append, List.map_append, hrest,
      List.filter_cons]
    -- Each file goes one of three ways, and only one of them leaves the note.
    obtain ⟨hlarge, houtcome⟩ | ⟨hunread, fault, houtcome⟩ | ⟨hlarge, hunread, text, houtcome⟩ :=
      outcomeOf_cases root c kits hfiles.1
    · simp [houtcome, FileOutcome.diagnostics, hlarge.not_isUnreadable]
    · simp [houtcome, FileOutcome.diagnostics, hunread, tellsUnreadable]
    · -- What a query reports is not taken for an unreadable file.
      have hnone : (Analyzer.analyze c.chunkSize root (Scan.pathTo root s.1) text
          kits).diagnostics.filter (fun d => d.TellsUnreadable) = [] :=
        List.filter_eq_nil_iff.mpr fun d hd =>
          mt of_decide_eq_true (not_tellsUnreadable_of_mem_analyze hd)
      simp [houtcome, FileOutcome.diagnostics, hunread, hnone]

end Found

end ProjectAnalysis

/-! ### Directories -/

/-- Whether places are those of the directories above given files, each once. -/
structure Scan.AreAbove (files : List (Place × Content)) (dirs : List Place) : Prop where
  once : dirs.Nodup
  mem_iff : ∀ dir, dir ∈ dirs ↔ dir ≠ [] ∧ ∃ s ∈ files, dir <+: s.1 ∧ dir ≠ s.1

/-- A directory is above a file if its names are the first ones of the names of the file. -/
theorem isAbove_nameAt_iff {place : Place} {dir : FileId}
    (hplace : ∀ name ∈ place, EntryName.Proper name) (hne : place ≠ []) :
    FileId.IsAbove dir (ScanFilter.nameAt place) ↔
      Text.pieces '/' dir.toList <+: place ∧ Text.pieces '/' dir.toList ≠ place := by
  rw [FileId.isAbove_iff]
  constructor
  · rintro ⟨-, rest, hsplit⟩
    -- The names are read off the id by cutting it at its slashes.
    have hpieces := Scan.pieces_nameAt hplace hne
    rw [hsplit, Text.pieces_append_sep] at hpieces
    refine ⟨⟨_, hpieces⟩, fun hsame => Text.pieces_ne_nil '/' rest ?_⟩
    exact List.append_right_eq_self.mp (hpieces.trans hsame.symm)
  · rintro ⟨⟨behind, rfl⟩, hother⟩
    have hbehind : behind ≠ [] := fun h => hother (by rw [h, List.append_nil])
    rw [List.forall_mem_append] at hplace
    have hpieces : Text.pieces '/' (dir.toList ++ '/' :: (ScanFilter.nameAt behind).toList)
        = Text.pieces '/' dir.toList ++ behind := by
      rw [Text.pieces_append_sep, Scan.pieces_nameAt hplace.2 hbehind]
    refine ⟨fun hempty => ?_, (ScanFilter.nameAt behind).toList, ?_⟩
    · -- The directory with the empty id would have an empty name.
      rw [hempty] at hplace
      exact (hplace.1 [] (List.mem_singleton_self _)).1 rfl
    · rw [ScanFilter.nameAt, String.toList_ofList, ← hpieces, Text.glue_pieces]

namespace GraphBuild

variable {root : Path} {paths : List Path} {files : List (Place × Content)}
  (hids : (paths.filterMap (FileId.ofPath? root)).Perm (files.map fun s => ScanFilter.nameAt s.1))
  (hnodup : (files.map fun s => ScanFilter.nameAt s.1).Nodup) (analyses : List FileAnalysis)

include hids hnodup

/-- The directories of the graph are those above the files. -/
theorem areAbove_directoryIds
    (hproper : ∀ s ∈ files, (∀ name ∈ s.1, EntryName.Proper name) ∧ s.1 ≠ []) :
    Scan.AreAbove files ((buildGraph root analyses paths).graph.directoryIds.map
      fun dir => Text.pieces '/' dir.toList) := by
  rw [buildGraph, directoryIds_build, distinct_inside (hids.nodup_iff.mpr hnodup)]
  -- The paths are sorted and the files are not: only their ids, as a set, are used.
  have hmem : ∀ dir, dir ∈ directories (inside root paths) ↔
      ∃ s ∈ files, FileId.IsAbove dir (ScanFilter.nameAt s.1) := by
    intro dir
    have hmap : ∀ id, (∃ file ∈ inside root paths, file.id = id) ↔
        ∃ s ∈ files, ScanFilter.nameAt s.1 = id := fun id => by
      rw [← List.mem_map, ← List.mem_map, map_id_inside, hids.mem_iff]
    rw [mem_directories_iff]
    constructor
    · rintro ⟨file, hfile, habove⟩
      obtain ⟨s, hs, hid⟩ := (hmap file.id).mp ⟨file, hfile, rfl⟩
      exact ⟨s, hs, hid ▸ habove⟩
    · rintro ⟨s, hs, habove⟩
      obtain ⟨file, hfile, hid⟩ := (hmap (ScanFilter.nameAt s.1)).mpr ⟨s, hs, rfl⟩
      exact ⟨file, hfile, hid ▸ habove⟩
  constructor
  · refine List.Nodup.map (fun a b h => ?_) (FileSet.nodup_ids_ofList _)
    exact String.toList_inj.mp ((Text.pieces_inj '/').mp h)
  · intro dir
    rw [List.mem_map]
    constructor
    · rintro ⟨id, hid, rfl⟩
      obtain ⟨s, hs, habove⟩ := (hmem id).mp hid
      exact ⟨Text.pieces_ne_nil _ _, s, hs,
        (isAbove_nameAt_iff (hproper s hs).1 (hproper s hs).2).mp habove⟩
    · rintro ⟨hne, s, hs, hfront, hother⟩
      have hpieces := Scan.pieces_nameAt
        (fun name hname => (hproper s hs).1 name (hfront.subset hname)) hne
      refine ⟨ScanFilter.nameAt dir, (hmem _).mpr ⟨s, hs, ?_⟩, hpieces⟩
      rw [isAbove_nameAt_iff (hproper s hs).1 (hproper s hs).2, hpieces]
      exact ⟨hfront, hother⟩

/-- The nodes of the graph are the files and the directories above them. -/
theorem length_nodes :
    (buildGraph root analyses paths).graph.nodes.length
      = files.length + (buildGraph root analyses paths).graph.directoryIds.length := by
  have hfiles : (buildGraph root analyses paths).graph.fileNodes.length = files.length := by
    rw [buildGraph, fileNodes_build, distinct_inside (hids.nodup_iff.mpr hnodup), List.length_map,
      ← List.length_map (f := Listed.id), map_id_inside, hids.length_eq, List.length_map]
  rw [ProjectGraph.directoryIds, List.length_map, ← hfiles, buildGraph, nodes_build,
    List.length_append, Nat.add_comm]

end GraphBuild

/-! ### The report -/

/-- Whether the numbers of a report account for the files that were found and the directories above
them, if no more than a given number of bytes is admitted. -/
structure IndexReport.Accounts (report : IndexReport) (limit : Nat)
    (files : List (Place × Content)) (dirs : List Place) : Prop where
  scanned : report.filesScanned = files.length
  /-- A file is analyzed, too large or unreadable. -/
  analyzed : report.filesAnalyzed + files.countP (fun s => s.2.IsOversized limit)
    + files.countP (fun s => s.2.IsUnreadable limit) = report.filesScanned
  /-- An unreadable file has one note, and no other file has one. -/
  unreadable : ((report.diagnostics.filter fun d => d.TellsUnreadable).map Diagnostic.subject).Perm
    ((files.filter fun s => s.2.IsUnreadable limit).map fun s => ScanFilter.nameAt s.1)
  nodes : report.nodesCreated = report.filesScanned + dirs.length
  /-- A chunk has a row or a note. -/
  chunks : ∃ stored, report.embeddingsStored = some stored ∧
    stored + report.diagnostics.countP (fun d => d.kind = .embeddingFailure) = report.chunksCreated

/-- Whether what is kept of a project is what a report says. -/
structure IndexReport.Describes (report : IndexReport) (t : FileTree) (root : Path) : Prop where
  graph : ∃ g, t.content (Layout.graphFile root) = .ok (.ofText g.write) ∧
    (g.Fits → t.loadGraph root = .ok (some g)) ∧
      g.nodes.length = report.nodesCreated ∧ g.edges.length = report.edgesCreated
  table : ∃ table, t.content (Layout.tableFile root) = .ok (.table table) ∧
    some table.rows.length = report.embeddingsStored ∧ (table.rows.map VectorRow.key).Nodup

namespace IndexPass

variable {t : FileTree} {root : Path} {c : ProjectConfig} {tools : IndexTools}
  {embedder : Embedder} {entries : List (EntryName × Entry)} {f : Findings} {report : IndexReport}

/-- Of what a pass reports, the failures to embed are those of making the store. -/
theorem countP_embeddingFailure (h : find t root c tools = .ok f) (stored : Option Nat) :
    (f.report stored (StoreBuild.build f.project.analyses embedder).diagnostics).diagnostics.countP
        (fun d => d.kind = .embeddingFailure)
      = (StoreBuild.build f.project.analyses embedder).diagnostics.length := by
  obtain ⟨paths, -, rfl⟩ := find_eq_ok_iff.mp h
  -- The two other sources report problems of other kinds.
  have hproject : ∀ d ∈ (findingsOf t root c paths tools).project.diagnostics,
      ¬decide (d.kind = .embeddingFailure) = true := fun d hd => by
    simp [ProjectAnalysis.kind_of_mem_diagnostics hd]
  have hbuilt : ∀ d ∈ (findingsOf t root c paths tools).built.diagnostics,
      ¬decide (d.kind = .embeddingFailure) = true := fun d hd => by
    simp [GraphBuild.kind_of_mem_buildGraph hd]
  rw [Findings.report, List.countP_append, List.countP_append, List.countP_eq_zero.mpr hproject,
    List.countP_eq_zero.mpr hbuilt, Nat.add_zero, Nat.zero_add, List.countP_eq_length]
  exact fun d hd => decide_eq_true (StoreBuild.kind_of_mem_build _ _ hd)

section Found

variable (hroot : t.entry root = .ok (.directory entries))
  (hproper : (Entry.directory entries).Proper)

include hroot hproper

/-- The records of a store have keys of their own. -/
theorem nodup_keys_of_find (h : find t root c tools = .ok f) :
    ((f.store embedder).records.map EmbeddingRecord.key).Nodup := by
  obtain ⟨paths, hpaths, rfl⟩ := find_eq_ok_iff.mp h
  obtain ⟨hin, hids⟩ := Scan.ofPath?_files hroot hproper hpaths
  exact (StoreBuild.keys_build _ _).nodup (ProjectAnalysis.nodup_keys_ofFiles hin hids)

variable {paths : List Path} (hpaths : Scan.files t (.ofConfig c tools.globs) root = .ok paths)

include hpaths

/-- Of the files that were found, those are analyzed that are neither too large nor unreadable. -/
theorem length_analyses_files :
    (ProjectAnalysis.ofFiles t root c paths tools.kits).analyses.length
        + (Scan.found (.ofConfig c tools.globs) entries).countP
            (fun s => s.2.IsOversized c.maxFileSize)
        + (Scan.found (.ofConfig c tools.globs) entries).countP
            (fun s => s.2.IsUnreadable c.maxFileSize)
      = paths.length := by
  -- The count is proved for the files in the order of the tree, and carried to the sorted paths.
  have hfound := Scan.perm_found hroot hproper hpaths
  have hperm := hfound.filterMap fun path =>
    (ProjectAnalysis.outcomeOf t root c tools.kits path).analysis?
  rw [← ProjectAnalysis.analyses_ofFiles, ← ProjectAnalysis.analyses_ofFiles] at hperm
  rw [hfound.length_eq, List.length_map, hperm.length_eq]
  exact ProjectAnalysis.length_analyses fun s hs => Scan.content_of_mem_found hroot hproper hs

/-- The files that were found and are unreadable are noted, each once. -/
theorem perm_unreadable {more : List Diagnostic} (hmore : ∀ d ∈ more, d.kind ≠ .parseFailure) :
    ((((ProjectAnalysis.ofFiles t root c paths tools.kits).diagnostics ++ more).filter
        fun d => d.TellsUnreadable).map Diagnostic.subject).Perm
      (((Scan.found (.ofConfig c tools.globs) entries).filter fun s =>
        s.2.IsUnreadable c.maxFileSize).map fun s => ScanFilter.nameAt s.1) := by
  have hnone : more.filter (fun d => d.TellsUnreadable) = [] :=
    List.filter_eq_nil_iff.mpr fun d hd => mt of_decide_eq_true fun h => hmore d hd h.1
  -- The scan lists the files by their paths and `found` by the directories. The notes are taken
  -- from one order to the other with the files they are of.
  have hperm := (Scan.perm_found hroot hproper hpaths).flatMap_right fun path =>
    (ProjectAnalysis.outcomeOf t root c tools.kits path).diagnostics
      (ProjectAnalysis.subject root path)
  rw [← ProjectAnalysis.diagnostics_ofFiles, ← ProjectAnalysis.diagnostics_ofFiles] at hperm
  rw [List.filter_append, hnone, List.append_nil]
  refine ((hperm.filter _).map _).trans (List.Perm.of_eq ?_)
  rw [ProjectAnalysis.map_subject_unreadable fun s hs => Scan.content_of_mem_found hroot hproper hs]
  refine List.map_congr_left fun s hs => ?_
  rw [ProjectAnalysis.subject, Scan.ofPath?_of_mem_found hroot hproper (List.mem_filter.mp hs).1]
  rfl

omit hpaths in
/-- The findings account for the files that were found. -/
theorem accounts_report (h : find t root c tools = .ok f) (embedder : Embedder) :
    ∃ dirs, Scan.AreAbove (Scan.found (.ofConfig c tools.globs) entries) dirs ∧
      (f.report (some (f.store embedder).size)
        (StoreBuild.build f.project.analyses embedder).diagnostics).Accounts c.maxFileSize
          (Scan.found (.ofConfig c tools.globs) entries) dirs := by
  obtain ⟨paths, hpaths, rfl⟩ := find_eq_ok_iff.mp h
  have hscanned : paths.length = (Scan.found (.ofConfig c tools.globs) entries).length := by
    rw [(Scan.perm_found hroot hproper hpaths).length_eq, List.length_map]
  have hids : (paths.filterMap (FileId.ofPath? root)).Perm
      ((Scan.found (.ofConfig c tools.globs) entries).map fun s => ScanFilter.nameAt s.1) := by
    have hperm := (Scan.perm_ofPath?_files hroot hproper hpaths).filterMap id
    rwa [List.filterMap_map, List.filterMap_map, Function.id_comp, Function.id_comp,
      List.filterMap_eq_map'] at hperm
  -- The directories are read off the ids of the graph.
  have hnodup := Scan.nodup_nameAt_found (f := .ofConfig c tools.globs) hproper
  refine ⟨_, GraphBuild.areAbove_directoryIds hids hnodup
    (ProjectAnalysis.ofFiles t root c paths tools.kits).analyses
    (fun s hs => Scan.proper_of_mem_found hproper hs), ?_⟩
  constructor
  case scanned => exact hscanned
  case analyzed => exact length_analyses_files hroot hproper hpaths
  case unreadable =>
    rw [Findings.report, List.append_assoc]
    refine perm_unreadable hroot hproper hpaths fun d hd => ?_
    rcases List.mem_append.mp hd with hd | hd
    · rw [GraphBuild.kind_of_mem_buildGraph hd]
      decide
    · rw [StoreBuild.kind_of_mem_build _ _ hd]
      decide
  case nodes =>
    show _ = paths.length + _
    rw [List.length_map, hscanned]
    exact GraphBuild.length_nodes hids hnodup _
  case chunks =>
    refine ⟨_, rfl, ?_⟩
    rw [countP_embeddingFailure h]
    exact StoreBuild.length_build _ _

end Found

/-- A store can be written if no tree has more parts at the top than the table can number. That the
keys differ needs no such bound. -/
theorem storable_of_find (hroot : t.entry root = .ok (.directory entries))
    (hproper : (Entry.directory entries).Proper) (h : find t root c tools = .ok f)
    (hkits : ∀ language text node, (tools.kits language).parse text = .ok node →
      node.children.length ≤ maxChunkIndex + 1) (embedder : Embedder) :
    (f.store embedder).Storable := by
  refine ⟨nodup_keys_of_find hroot hproper h, fun r hr => ?_⟩
  obtain ⟨paths, -, rfl⟩ := find_eq_ok_iff.mp h
  have hkey := (StoreBuild.keys_build _ _).subset (List.mem_map_of_mem hr)
  obtain ⟨a, ha, hkey⟩ := List.mem_flatMap.mp hkey
  obtain ⟨chunk, hchunk, hkey⟩ := List.mem_map.mp hkey
  have hindex : chunk.index = r.chunkIndex := (Prod.mk.inj hkey).2
  have hrecord := ProjectAnalysis.analyses_ofFiles t root c paths tools.kits ▸ ha
  obtain ⟨path, hpath, hrecord⟩ := List.mem_filterMap.mp hrecord
  obtain ⟨text, rfl⟩ := ProjectAnalysis.exists_of_analysis? hrecord
  -- The chunks of a file are numbered from zero, so a number is bounded by how many there are.
  have hnumber := List.mem_map_of_mem (f := Chunk.index) hchunk
  rw [Analyzer.map_index_analyze, List.mem_range, hindex] at hnumber
  have hcount := Analyzer.length_chunks_analyze_le c.chunkSize root path text tools.kits
    (Nat.le_add_left 1 maxChunkIndex) fun language node => hkits language text node
  omega

/-- What a pass leaves behind is what it reports. -/
theorem describes_of_run (h : (run t root c (some embedder) tools).result = .ok report)
    (hkeys : ∀ f, find t root c tools = .ok f →
      ((f.store embedder).records.map EmbeddingRecord.key).Nodup) :
    report.Describes (run t root c (some embedder) tools).tree root := by
  obtain ⟨f, saved, hfind, -, rfl, -⟩ := exists_of_run_eq_ok h
  -- Both files are known by what was written into them; the graph is also read again, which needs
  -- its numbers to fit.
  have hgraph := content_graphFile_of_run hfind h
  have htable := content_tableFile_of_run hfind h
  constructor
  case graph =>
    exact ⟨f.built.graph, hgraph, fun hfits =>
      FileTree.document?_of_content hgraph (ProjectGraph.read_write hfits), rfl, rfl⟩
  case table =>
    refine ⟨_, htable, ?_, ?_⟩
    · rw [VectorTable.ofStore, List.length_map]
      rfl
    · rw [VectorTable.ofStore, List.map_map]
      exact (VectorRow.nodup_map_key_written _ _).mpr (hkeys f hfind)

/-- **A pass accounts for every file and chunk.** Take any proper tree, any root and any
configuration, any embedder, any toolkits and any library of patterns. A pass never fails for the
keys of the table; it fails only if the root cannot be read, the graph or the table cannot be
written, or the number of a chunk has more than 63 bits. If it succeeds, its report accounts for the
files that are wanted and not kept from the scan, and for the directories above them, and what is
kept of the project is what the report says. -/
theorem run_accounts (ht : t.top.Proper) (root : Path) (c : ProjectConfig) (embedder : Embedder)
    (tools : IndexTools) :
    (run t root c (some embedder) tools).result ≠ .error (.row .duplicateKey) ∧
    ((∃ report, (run t root c (some embedder) tools).result = .ok report) ↔
      ∃ f saved table after, find t root c tools = .ok f ∧
        (FileTree.saveGraph root f.built.graph).apply t = (.ok (), saved) ∧
          (FileTree.openTable root).apply saved = (.ok table, after) ∧
            ∀ r ∈ (f.store embedder).records, r.chunkIndex ≤ maxChunkIndex) ∧
    ∀ report, (run t root c (some embedder) tools).result = .ok report →
      ∃ entries files dirs, t.entry root = .ok (.directory entries) ∧
        (files.map Prod.fst).Nodup ∧
          (∀ place content, (place, content) ∈ files ↔
            (Entry.directory entries).at? place = some (.file content) ∧
              (ScanFilter.ofConfig c tools.globs).Reaches place) ∧
          Scan.AreAbove files dirs ∧ report.Accounts c.maxFileSize files dirs ∧
            report.Describes (run t root c (some embedder) tools).tree root := by
  -- A scan succeeds only on a directory, and a directory of a proper tree is proper.
  have hentries : ∀ f, find t root c tools = .ok f → ∃ entries,
      t.entry root = .ok (.directory entries) ∧ (Entry.directory entries).Proper := by
    intro f hf
    obtain ⟨paths, hpaths, -⟩ := find_eq_ok_iff.mp hf
    obtain ⟨entries, hroot, -⟩ := Scan.files_eq_ok_iff.mp hpaths
    obtain ⟨place, hlocate⟩ := FileTree.entry_eq_ok_iff.mp hroot
    have hwalk := (FileTree.locate_eq_ok_iff.mp hlocate).2
    exact ⟨entries, hroot, ht.at? (FileTree.at?_of_walk_found hwalk)⟩
  have hkeys : ∀ f, find t root c tools = .ok f →
      ((f.store embedder).records.map EmbeddingRecord.key).Nodup := by
    intro f hf
    obtain ⟨entries, hroot, hproper⟩ := hentries f hf
    exact nodup_keys_of_find hroot hproper hf
  refine ⟨result_ne_duplicateKey hkeys, exists_run_eq_ok_iff.trans ?_, ?_⟩
  · constructor
    · rintro ⟨f, saved, table, after, hfind, hsave, hopen, hs⟩
      exact ⟨f, saved, table, after, hfind, hsave, hopen, hs.bounded⟩
    · rintro ⟨f, saved, table, after, hfind, hsave, hopen, hbounded⟩
      exact ⟨f, saved, table, after, hfind, hsave, hopen, hkeys f hfind, hbounded⟩
  · intro report hrun
    obtain ⟨f, saved, hfind, -, rfl, -⟩ := exists_of_run_eq_ok hrun
    obtain ⟨entries, hroot, hproper⟩ := hentries f hfind
    obtain ⟨dirs, hdirs, haccounts⟩ := accounts_report hroot hproper hfind embedder
    refine ⟨entries, _, dirs, hroot, ?_, fun _ _ => Scan.mem_found_iff hproper, hdirs, haccounts,
      describes_of_run hrun hkeys⟩
    rw [Scan.map_fst_found hproper]
    exact Scan.nodup_filesIn hproper

/-- The tools that read one text of one language: `fn f() {}`, a function with the name `f`. -/
def oneFunction : IndexTools :=
  let name : Syntax.Node := ⟨"identifier", some "name", 3, 4, []⟩
  let item : Syntax.Node := ⟨"function_item", none, 0, 9, [⟨"fn", none, 0, 2, []⟩, name,
    ⟨"parameters", some "parameters", 4, 6, []⟩, ⟨"block", some "body", 7, 9, []⟩]⟩
  let parse (text : String) : Except ParseFault Syntax.Node :=
    if text = "fn f() {}" then .ok ⟨"source_file", none, 0, 9, [item]⟩ else .error .noTree
  ⟨fun language => ⟨language, parse, .ok fun _ _ => [[("name", name)]], .ok fun _ _ => [],
    .ok fun _ _ => []⟩, .standard⟩

/-- The only tree that is read has one part at the top. -/
theorem length_children_oneFunction {language : Language} {text : String} {node : Syntax.Node}
    (h : (oneFunction.kits language).parse text = .ok node) : node.children.length = 1 := by
  simp only [oneFunction] at h
  split at h
  · rw [← Except.ok.inj h]
    rfl
  · cases h

/-- Two files without a grammar, one of them below two directories, and one that is read with a
grammar. Two may not be read, and of these the larger one is not noted, for it is too large, as is
another file that might be read. The project had an empty graph, and a row of a file that is
gone. -/
theorem run_accounts_mixed :
    let data : Entry := .directory [("graph.json".toList, .file (.ofText "")),
      ("index.db".toList, .file (.table ⟨[⟨"gone.rs", 0, "", "rs", [], "m"⟩]⟩))]
    let entries : List (EntryName × Entry) := [(".repolens".toList, data),
      (['a'], .file (.ofText "x")), (['b'], .file (.locked 9)), (['c'], .file (.locked 10)),
      (['d'], .directory [(['e'], .directory [(['f'], .file (.ofText "y"))])]),
      ("m.rs".toList, .file (.ofText "fn f() {}")), ("n.rs".toList, .file (.ofText "fn f() { }"))]
    let t : FileTree := ⟨.directory [(['p'], .directory entries)], []⟩
    let c : ProjectConfig := { ProjectConfig.standard ⟨"/p"⟩ with
      excludePatterns := [".repolens/"], maxFileSize := 9 }
    let embedder : Embedder :=
      ⟨"m", fun text => if text = chunkPrompt "a" "x" then .ok [.one] else .error "busy"⟩
    t.top.Proper ∧ ∃ report, (run t ⟨"/p"⟩ c (some embedder) oneFunction).result = .ok report ∧
      report.filesScanned = 6 ∧ report.filesAnalyzed = 3 ∧
        (report.diagnostics.filter fun d => d.TellsUnreadable).map Diagnostic.subject = ["b"] := by
  intro data entries t c embedder
  have hproper : t.top.Proper := by
    simp [t, entries, data, Entry.Proper.directory_iff, EntryName.Proper, Path.Component.Inner,
      Entry.Proper.of_not_directory, or_imp, forall_and]
  have hroot : t.entry ⟨"/p"⟩ = .ok (.directory entries) :=
    FileTree.entry_eq_ok_iff.mpr ⟨[['p']], FileTree.locate_names rfl rfl fun _ => Entry.noConfusion⟩
  have hentries : (Entry.directory entries).Proper := hproper.at? (rfl : t.top.at? [['p']] = _)
  have hplaces : Scan.filesIn (.ofConfig c oneFunction.globs) [] entries
      = [[['a']], [['b']], [['c']], [['d'], ['e'], ['f']], ["m.rs".toList], ["n.rs".toList]] := by
    decide +kernel
  have hfound : Scan.found (.ofConfig c oneFunction.globs) entries
      = [([['a']], .ofText "x"), ([['b']], .locked 9), ([['c']], .locked 10),
        ([['d'], ['e'], ['f']], .ofText "y"), (["m.rs".toList], .ofText "fn f() {}"),
        (["n.rs".toList], .ofText "fn f() { }")] := by
    rw [Scan.found, hplaces]
    rfl
  obtain ⟨paths, hpaths⟩ :
      ∃ paths, Scan.files t (.ofConfig c oneFunction.globs) ⟨"/p"⟩ = .ok paths :=
    ⟨_, Scan.files_eq hroot hentries⟩
  have hfind := find_eq_ok_iff.mpr ⟨paths, hpaths, rfl⟩
  have hgraph : t.content (Layout.graphFile ⟨"/p"⟩) = .ok (.ofText "") :=
    FileTree.content_names [['p'], ".repolens".toList, "graph.json".toList] rfl rfl
  obtain ⟨report, hrun⟩ := exists_run_of_content hfind hgraph
    (FileTree.content_names [['p'], ".repolens".toList, "index.db".toList] rfl rfl)
    (storable_of_find hroot hentries hfind
      (fun _ _ _ h => (length_children_oneFunction h).trans_le (Nat.le_add_left 1 _)) embedder)
  obtain ⟨entries', files, dirs, hroot', honce, hmem, -, haccounts, -⟩ :=
    (run_accounts hproper ⟨"/p"⟩ c embedder oneFunction).2.2 report hrun
  obtain rfl := Entry.directory.inj (Except.ok.inj (hroot'.symm.trans hroot))
  -- The files are told by membership, so they are those of the scan in some order.
  have hperm : files.Perm (Scan.found (.ofConfig c oneFunction.globs) entries) := by
    refine (List.perm_ext_iff_of_nodup honce.of_map ?_).mpr fun s =>
      (hmem s.1 s.2).trans (Scan.mem_found_iff hentries).symm
    exact (Scan.nodup_nameAt_found hentries).of_map
  rw [hfound] at hperm
  have hscanned : report.filesScanned = 6 := haccounts.scanned.trans hperm.length_eq
  have hlarge : files.countP (fun s => s.2.IsOversized c.maxFileSize) = 2 := by
    rw [hperm.countP_eq]
    decide +kernel
  have hunread : files.countP (fun s => s.2.IsUnreadable c.maxFileSize) = 1 := by
    rw [hperm.countP_eq]
    decide +kernel
  have hnames : ((files.filter fun s => s.2.IsUnreadable c.maxFileSize).map fun s =>
      ScanFilter.nameAt s.1).Perm ["b"] :=
    ((hperm.filter _).map _).trans (List.Perm.of_eq (by decide +kernel))
  have hanalyzed := haccounts.analyzed
  refine ⟨hproper, report, hrun, hscanned, by omega,
    List.perm_singleton.mp (haccounts.unreadable.trans hnames)⟩

end IndexPass

end CodeAtlas
