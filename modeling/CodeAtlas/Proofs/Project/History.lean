import CodeAtlas.Proofs.Project.Account
import CodeAtlas.Proofs.Project.Sources

/-!
# `CodeAtlas.Proofs.Project.History`: an index does not depend on what was indexed before

A pass finds out all it writes from the files of the project. The theorems:

* `find_eq_of_sameFiles`: two roots with the same files beside the data give the same findings, if
  the directory of the data is left out.
* `beside_run`, `beside_history`: a pass, and so any number of passes, leaves the files alone.
* `run_again`: a pass that succeeds can be repeated.
* `run_ignores_history`: whatever was indexed before, a pass that succeeds leaves the same graph and
  the same rows.
-/

set_option autoImplicit false

namespace CodeAtlas

open Layout (dataName indexNames)

/-! ### The same files -/

/-- Whether two directories have the same files, those of the data apart. -/
def Entry.SameFiles (entries entries' : List (EntryName × Entry)) : Prop :=
  ∀ place content, place.head? ≠ some dataName →
    ((directory entries).at? place = some (.file content) ↔
      (directory entries').at? place = some (.file content))

/-- Whether a root has the same files in two trees, those of its data apart. -/
def FileTree.SameSources (root : Path) (t t' : FileTree) : Prop :=
  ∃ entries entries', t.entry root = .ok (.directory entries) ∧
    t'.entry root = .ok (.directory entries') ∧ (Entry.directory entries).Proper ∧
      (Entry.directory entries').Proper ∧ Entry.SameFiles entries entries'

/-- Beside the kept names nothing was written, so a walk that never looks below them meets the same
files in both directories. -/
theorem FileTree.SameBeside.sameFiles {kept : List EntryName}
    {entries entries' : List (EntryName × Entry)} (h : SameBeside kept entries entries') :
    Entry.SameFiles entries entries' := by
  intro place content hplace
  cases place with
  | nil => exact ⟨fun h => (nomatch h), fun h => (nomatch h)⟩
  | cons name rest =>
    rw [h.files name rest fun heq => hplace (congrArg some heq)]

/-- What becomes of a file depends on what it holds. -/
theorem ProjectAnalysis.outcomeOf_congr {t t' : FileTree} {root path : Path} {c : ProjectConfig}
    {kits : Language → Toolkit} (h : t.content path = t'.content path) :
    outcomeOf t root c kits path = outcomeOf t' root c kits path := by
  rw [outcomeOf, outcomeOf, FileTree.byteSize, FileTree.byteSize, FileTree.text, FileTree.text, h]

namespace IndexPass

variable {t t' : FileTree} {root : Path} {c : ProjectConfig} {tools : IndexTools}
  {embedder? : Option Embedder} {embedder : Embedder} {f : Findings}
  {entries entries' : List (EntryName × Entry)} {report report' : IndexReport}

section Same

variable (hdata : (ScanFilter.ofConfig c tools.globs).excluded ".repolens/" = true)

include hdata

/-- A scan that leaves out the directory of the data reaches nothing in it. -/
theorem head_ne_of_reaches {place : Place} {content : Content}
    (hplace : (Entry.directory entries).at? place = some (.file content))
    (hno : ∀ content, (Entry.directory entries).at? [dataName] ≠ some (.file content))
    (h : (ScanFilter.ofConfig c tools.globs).Reaches place) : place.head? ≠ some dataName := by
  intro hhead
  obtain ⟨rest, rfl⟩ := List.head?_eq_some_iff.mp hhead
  cases rest with
  | nil => exact hno content hplace
  | cons next rest =>
    have henters := h.2 [dataName] (next :: rest) rfl (List.cons_ne_nil _ _) (List.cons_ne_nil _ _)
    have hname : ScanFilter.nameAt [dataName] ++ "/" = ".repolens/" := by decide
    rw [ScanFilter.enters, hname, hdata] at henters
    exact absurd henters Bool.noConfusion

/-- Roots with the same files give the same findings. -/
theorem find_eq_of_sameFiles (hroot : t.entry root = .ok (.directory entries))
    (hroot' : t'.entry root = .ok (.directory entries')) (h : (Entry.directory entries).Proper)
    (h' : (Entry.directory entries').Proper) (hsame : Entry.SameFiles entries entries')
    (hno : ∀ content, (Entry.directory entries).at? [dataName] ≠ some (.file content))
    (hno' : ∀ content, (Entry.directory entries').at? [dataName] ≠ some (.file content)) :
    find t root c tools = find t' root c tools := by
  -- A scan reaches nothing in the data, so it finds the same places in both trees.
  have hmem : ∀ place, place ∈ Scan.filesIn (.ofConfig c tools.globs) [] entries ↔
      place ∈ Scan.filesIn (.ofConfig c tools.globs) [] entries' := by
    intro place
    rw [Scan.mem_filesIn_iff h, Scan.mem_filesIn_iff h']
    constructor
    · rintro ⟨⟨content, hfile⟩, hreaches⟩
      have hhead := head_ne_of_reaches hdata hfile hno hreaches
      exact ⟨⟨content, (hsame place content hhead).mp hfile⟩, hreaches⟩
    · rintro ⟨⟨content, hfile⟩, hreaches⟩
      have hhead := head_ne_of_reaches hdata hfile hno' hreaches
      exact ⟨⟨content, (hsame place content hhead).mpr hfile⟩, hreaches⟩
  obtain ⟨paths, hpaths⟩ : ∃ paths, Scan.files t (.ofConfig c tools.globs) root = .ok paths :=
    ⟨_, Scan.files_eq hroot h⟩
  have hpaths' := (Scan.files_eq_of_mem_iff hroot hroot' h h' hmem).symm.trans hpaths
  -- A file that was found has the same content in both trees, though links may lead elsewhere.
  have houtcomes : ∀ path ∈ paths, ProjectAnalysis.outcomeOf t root c tools.kits path
      = ProjectAnalysis.outcomeOf t' root c tools.kits path := by
    intro path hpath
    obtain ⟨s, hs, rfl⟩ := List.mem_map.mp ((Scan.perm_found hroot h hpaths).mem_iff.mp hpath)
    obtain ⟨hfile, hreaches⟩ := (Scan.mem_found_iff h).mp hs
    have hfile' := (hsame s.1 s.2 (head_ne_of_reaches hdata hfile hno hreaches)).mp hfile
    refine ProjectAnalysis.outcomeOf_congr ?_
    rw [Scan.content_pathTo hroot (h.name_of_at? hfile) hfile,
      Scan.content_pathTo hroot' (h.name_of_at? hfile) hfile']
  have hproject : ProjectAnalysis.ofFiles t root c paths tools.kits
      = ProjectAnalysis.ofFiles t' root c paths tools.kits := by
    rw [ProjectAnalysis.ofFiles, ProjectAnalysis.ofFiles,
      List.map_congr_left fun path hpath => congrArg (Prod.mk path) (houtcomes path hpath)]
  rw [find_eq_ok_iff.mpr ⟨paths, hpaths, rfl⟩, find_eq_ok_iff.mpr ⟨paths, hpaths', rfl⟩,
    findingsOf, findingsOf, hproject]

end Same

/-! ### The same index -/

/-- A pass does not succeed where a file has the name of the data. -/
theorem ne_file_of_run (hroot : t.entry root = .ok (.directory entries))
    (h : (run t root c embedder? tools).result = .ok report) (content : Content) :
    (Entry.directory entries).at? [dataName] ≠ some (.file content) := by
  intro hfile
  -- The pass has made the directory of the data, or found it.
  obtain ⟨f, saved, -, hsave, -⟩ := exists_of_run_eq_ok h
  obtain ⟨between, hmake, -⟩ := FileTree.apply_writeDocument_iff.mp hsave
  obtain ⟨base, hlocate⟩ := FileTree.entry_eq_ok_iff.mp hroot
  have hthere : ∀ followLast, t.locate followLast (Layout.dataDirectory root)
      = .ok (.found (base ++ [dataName]) (.file content)) := fun followLast =>
    FileTree.locate_below hlocate followLast (Layout.components_dataDirectory root)
      (List.cons_ne_nil _ _) hfile fun _ => Entry.noConfusion
  have hno : t.isDirectory (Layout.dataDirectory root) = false := by
    rw [FileTree.isDirectory, FileTree.entry, hthere true]
    rfl
  have hcomponents := Layout.components_dataDirectory_ne_nil root
  rw [FileTree.makeDirectories_found hcomponents (hthere false), hno] at hmake
  cases hmake

end IndexPass

/-- Whether two trees have the same graph of a project and, if it was embedded, the same table. -/
structure FileTree.SameIndex (root : Path) (embedder? : Option Embedder) (t t' : FileTree) :
    Prop where
  graph : ∃ g : ProjectGraph, t.content (Layout.graphFile root) = .ok (.ofText g.write) ∧
    t'.content (Layout.graphFile root) = .ok (.ofText g.write)
  loaded : t.loadGraph root = t'.loadGraph root
  table : embedder?.isSome → ∃ table, t.content (Layout.tableFile root) = .ok (.table table) ∧
    t'.content (Layout.tableFile root) = .ok (.table table)

namespace IndexPass

variable {t t' : FileTree} {root : Path} {c : ProjectConfig} {tools : IndexTools}
  {embedder? : Option Embedder} {embedder : Embedder} {f : Findings}
  {entries entries' : List (EntryName × Entry)} {report report' : IndexReport}

/-- Passes with the same findings have the same report and leave the same index. -/
theorem same_of_find_eq (hfind : find t root c tools = find t' root c tools)
    (h : (run t root c embedder? tools).result = .ok report)
    (h' : (run t' root c embedder? tools).result = .ok report') :
    report = report' ∧ (run t root c embedder? tools).tree.SameIndex root embedder?
      (run t' root c embedder? tools).tree := by
  -- A report and an index are made from the findings alone, and these are the same ones.
  obtain ⟨f, saved, hf, -, hreport⟩ := exists_of_run_eq_ok h
  obtain ⟨f', saved', hf', -, hreport'⟩ := exists_of_run_eq_ok h'
  obtain rfl := Except.ok.inj (hf.symm.trans (hfind.trans hf'))
  have hgraph := content_graphFile_of_run hf h
  have hgraph' := content_graphFile_of_run hf' h'
  have hloaded : (run t root c embedder? tools).tree.loadGraph root
      = (run t' root c embedder? tools).tree.loadGraph root := by
    rw [FileTree.loadGraph, FileTree.loadGraph, FileTree.document?_eq_of_content hgraph,
      FileTree.document?_eq_of_content hgraph']
  cases embedder? with
  | none =>
    exact ⟨hreport.1.trans hreport'.1.symm, ⟨_, hgraph, hgraph'⟩, hloaded,
      fun hsome => absurd hsome (by decide)⟩
  | some embedder =>
    exact ⟨hreport.1.trans hreport'.1.symm, ⟨_, hgraph, hgraph'⟩, hloaded,
      fun _ => ⟨_, content_tableFile_of_run hf h, content_tableFile_of_run hf' h'⟩⟩

/-! ### Passes one after the other -/

open FileTree (Beside)

variable {base : Place} {kept : List EntryName}

/-- A pass leaves the files of the project alone; without an embedder, also the table. -/
theorem beside_run (c : ProjectConfig) (embedder? : Option Embedder) (tools : IndexTools)
    (hgraph : "graph.json".toList ∉ kept)
    (htable : embedder?.isSome → "index.db".toList ∉ kept) (h : Beside root kept entries t) :
    Beside root kept entries (run t root c embedder? tools).tree := by
  have hcourse := course_run t root c embedder? tools
  generalize (run t root c embedder? tools).result = result at hcourse
  generalize (run t root c embedder? tools).tree = after at hcourse ⊢
  -- A change leaves the files alone even if it fails, so it does not matter where a pass ends.
  have hgraphs : ∀ g, TreeChange.Preserves (Beside root kept entries) (FileTree.saveGraph root g) :=
    FileTree.preserves_saveGraph hgraph
  cases hcourse with
  | unlisted _ => exact h
  | unsaved _ hsave | linked _ hsave => exact (hgraphs _).of_apply h hsave
  | unstored _ hsave hreplace | stored _ hsave hreplace =>
    have hsaved := (hgraphs _).of_apply h hsave
    exact (FileTree.preserves_replaceVectors (htable rfl) _ _).of_apply hsaved hreplace

/-- The tree behind passes, each with its own configuration, with or without an embedder. Some of
them may fail. -/
def history (t : FileTree) (root : Path) (passes : List (ProjectConfig × Option Embedder))
    (tools : IndexTools) : FileTree :=
  passes.foldl (fun t pass => (run t root pass.1 pass.2 tools).tree) t

/-- Any number of passes leaves the files of the project alone. -/
theorem beside_history (h : Beside root [] entries t)
    (passes : List (ProjectConfig × Option Embedder)) (tools : IndexTools) :
    Beside root [] entries (history t root passes tools) := by
  induction passes generalizing t with
  | nil => exact h
  | cons pass passes ih =>
    exact ih (beside_run _ _ tools List.not_mem_nil (fun _ => List.not_mem_nil) h)

/-- Trees that differ in the data of a project alone give the same findings. -/
theorem find_eq_of_beside (hdata : (ScanFilter.ofConfig c tools.globs).excluded ".repolens/" = true)
    (h : Beside root kept entries t) (h' : Beside root kept entries t') :
    find t root c tools = find t' root c tools := by
  obtain ⟨base, entries₁, hroot, hsame⟩ := h
  obtain ⟨base', entries₂, hroot', hsame'⟩ := h'
  have hentry := FileTree.entry_eq_ok_iff.mpr ⟨base, hroot.locate⟩
  have hentry' := FileTree.entry_eq_ok_iff.mpr ⟨base', hroot'.locate⟩
  exact find_eq_of_sameFiles hdata hentry hentry' hroot.proper hroot'.proper
    (fun place content hplace => (hsame.sameFiles place content hplace).symm.trans
      (hsame'.sameFiles place content hplace)) hroot.ne_file hroot'.ne_file

/-- A pass that succeeds can be repeated. -/
theorem run_again (hdata : (ScanFilter.ofConfig c tools.globs).excluded ".repolens/" = true)
    (h : t.HasRoot root base entries) (hrun : (run t root c embedder? tools).result = .ok report) :
    ∃ report',
      (run (run t root c embedder? tools).tree root c embedder? tools).result = .ok report' := by
  have hfind := find_eq_of_beside hdata (h.beside [])
    (beside_history (h.beside []) [(c, embedder?)] tools)
  obtain ⟨f, saved, hf, -, hrest⟩ := exists_of_run_eq_ok hrun
  have hgraph := content_graphFile_of_run hf hrun
  cases embedder? with
  | none =>
    -- The graph of the first pass is a file that may be read, so it may be replaced.
    obtain ⟨place, hlocate⟩ := FileTree.content_eq_ok_iff.mp hgraph
    exact exists_run_of_hasPlace (hfind.symm.trans hf)
      (.document place _ hlocate fun _ h => nomatch h)
  | some embedder =>
    obtain ⟨hs, -⟩ := FileTree.replaceVectors_eq_ok_iff.mp hrest.2
    exact exists_run_of_content (hfind.symm.trans hf) hgraph (content_tableFile_of_run hf hrun) hs

/-- **An index does not depend on what was indexed before.** Take any root, any configuration that
leaves out the directory of the data, any embedder or none, any toolkits and any library of
patterns. If passes over two trees with the same files succeed, they report the same and leave the
same graph and the same rows. So it is behind any two runs of passes over one project, with whatever
configurations and embedders, even if some of them failed; a pass that succeeds once succeeds again,
with the same report and the same index; and a pass without an embedder leaves the table as it
is. -/
theorem run_ignores_history (tools : IndexTools) (root : Path) (c : ProjectConfig)
    (hdata : (ScanFilter.ofConfig c tools.globs).excluded ".repolens/" = true)
    (embedder? : Option Embedder) :
    (∀ t t' report report', FileTree.SameSources root t t' →
      (run t root c embedder? tools).result = .ok report →
        (run t' root c embedder? tools).result = .ok report' →
          report = report' ∧ (run t root c embedder? tools).tree.SameIndex root embedder?
            (run t' root c embedder? tools).tree) ∧
    ∀ t base entries, t.HasRoot root base entries →
      (∀ passes passes' report report',
        (run (history t root passes tools) root c embedder? tools).result = .ok report →
          (run (history t root passes' tools) root c embedder? tools).result = .ok report' →
            report = report' ∧
              (run (history t root passes tools) root c embedder? tools).tree.SameIndex root
                embedder? (run (history t root passes' tools) root c embedder? tools).tree) ∧
      (∀ report, (run t root c embedder? tools).result = .ok report →
        (run (run t root c embedder? tools).tree root c embedder? tools).result = .ok report ∧
          (run t root c embedder? tools).tree.SameIndex root embedder?
            (run (run t root c embedder? tools).tree root c embedder? tools).tree) ∧
      (run t root c none tools).tree.content (Layout.tableFile root)
        = t.content (Layout.tableFile root) := by
  refine ⟨?_, fun t base entries h => ⟨?_, ?_, ?_⟩⟩
  · intro t t' report report' hsources hrun hrun'
    obtain ⟨entries, entries', hroot, hroot', hproper, hproper', hsame⟩ := hsources
    exact same_of_find_eq (find_eq_of_sameFiles hdata hroot hroot' hproper hproper' hsame
      (ne_file_of_run hroot hrun) (ne_file_of_run hroot' hrun')) hrun hrun'
  · -- Whatever the passes did, they stayed beside the same files.
    intro passes passes' report report' hrun hrun'
    exact same_of_find_eq (find_eq_of_beside hdata (beside_history (h.beside []) passes tools)
      (beside_history (h.beside []) passes' tools)) hrun hrun'
  · intro report hrun
    obtain ⟨report', hrun'⟩ := run_again hdata h hrun
    have hbeside := beside_history (h.beside []) [(c, embedder?)] tools
    have hfind := find_eq_of_beside hdata (h.beside []) hbeside
    obtain ⟨rfl, hsame⟩ := same_of_find_eq hfind hrun hrun'
    exact ⟨hrun', hsame⟩
  · -- Only the graph is written, so the table may be among the documents that are kept.
    obtain ⟨base', entries', hroot', hsame⟩ := beside_run c none tools (by decide)
      (fun hsome => absurd hsome (by decide)) (h.beside ["index.db".toList])
    have hname : "index.db".toList ∈ indexNames :=
      List.mem_cons_of_mem _ (List.mem_singleton_self _)
    rw [FileTree.content, FileTree.content, h.entry_eq hname (Layout.components_tableFile root),
      hroot'.entry_eq hname (Layout.components_tableFile root),
      hsame.documents _ (List.mem_singleton_self _)]

/-- A project with a row of a file that is gone, and the same project with an empty table. Of its
three files one is read with a grammar. -/
theorem run_ignores_history_stale :
    let entries : List VectorRow → List (EntryName × Entry) := fun rows =>
      [(".repolens".toList, .directory [("graph.json".toList, .file (.ofText "")),
        ("index.db".toList, .file (.table ⟨rows⟩))]), (['a'], .file (.ofText "x")),
        (['d'], .directory [(['f'], .file (.ofText "y"))]),
        ("m.rs".toList, .file (.ofText "fn f() {}"))]
    let tree : List VectorRow → FileTree := fun rows =>
      ⟨.directory [(['p'], .directory (entries rows))], []⟩
    let c : ProjectConfig :=
      { ProjectConfig.standard ⟨"/p"⟩ with excludePatterns := [".repolens/"] }
    let embedder : Embedder := ⟨"m", fun _ => .ok [.one]⟩
    let old : List VectorRow := [⟨"gone.rs", 0, "", "rs", [], "m"⟩]
    let once := run (tree old) ⟨"/p"⟩ c (some embedder) oneFunction
    (ScanFilter.ofConfig c oneFunction.globs).excluded ".repolens/" = true ∧
      FileTree.SameSources ⟨"/p"⟩ (tree old) (tree []) ∧ ∃ report, once.result = .ok report ∧
        (run (tree []) ⟨"/p"⟩ c (some embedder) oneFunction).result = .ok report ∧
        (run once.tree ⟨"/p"⟩ c (some embedder) oneFunction).result = .ok report ∧
        (run (tree old) ⟨"/p"⟩ c none oneFunction).tree.content (Layout.tableFile ⟨"/p"⟩)
          = .ok (.table ⟨old⟩) := by
  intro entries tree c embedder old once
  have hdata : (ScanFilter.ofConfig c oneFunction.globs).excluded ".repolens/" = true := by
    decide +kernel
  have hroot : ∀ rows, (tree rows).HasRoot ⟨"/p"⟩ [['p']] (entries rows) := by
    intro rows
    refine ⟨FileTree.locate_names rfl rfl fun _ => Entry.noConfusion, ?_, ?_⟩
    · simp [entries, Entry.Proper.directory_iff, EntryName.Proper, Path.Component.Inner,
        Entry.Proper.of_not_directory, or_imp, forall_and]
    · intro x hx
      obtain rfl := Option.some.inj hx
      refine ⟨_, rfl, ?_⟩
      simp [indexNames, List.lookup_cons]
  have hgraph : ∀ rows, (tree rows).content (Layout.graphFile ⟨"/p"⟩) = .ok (.ofText "") :=
    fun rows => FileTree.content_names [['p'], ".repolens".toList, "graph.json".toList] rfl rfl
  have htable : ∀ rows, (tree rows).content (Layout.tableFile ⟨"/p"⟩) = .ok (.table ⟨rows⟩) :=
    fun rows => FileTree.content_names [['p'], ".repolens".toList, "index.db".toList] rfl rfl
  -- The only tree that is read has one part, so the table can hold what is made of the files.
  have hruns : ∀ rows, ∃ report,
      (run (tree rows) ⟨"/p"⟩ c (some embedder) oneFunction).result = .ok report := by
    intro rows
    have hentry := FileTree.entry_eq_ok_iff.mpr ⟨_, (hroot rows).locate⟩
    have hpaths := Scan.files_eq (f := .ofConfig c oneFunction.globs) hentry (hroot rows).proper
    have hfind := find_eq_ok_iff.mpr ⟨_, hpaths, rfl⟩
    exact exists_run_of_content hfind (hgraph rows) (htable rows)
      (storable_of_find hentry (hroot rows).proper hfind
        (fun _ _ _ h => (length_children_oneFunction h).trans_le (Nat.le_add_left 1 _)) embedder)
  have hsame : FileTree.SameSources ⟨"/p"⟩ (tree old) (tree []) := by
    refine ⟨entries old, entries [], FileTree.entry_eq_ok_iff.mpr ⟨_, (hroot old).locate⟩,
      FileTree.entry_eq_ok_iff.mpr ⟨_, (hroot []).locate⟩, (hroot old).proper, (hroot []).proper,
      ?_⟩
    intro place content hplace
    cases place with
    | nil => constructor <;> (intro h; cases h)
    | cons name rest =>
      have hne : name ≠ ".repolens".toList := fun h => hplace (congrArg some h)
      have hlookup : ∀ rows, (entries rows).lookup name = (entries rows).tail.lookup name := by
        intro rows
        rw [List.lookup_cons, beq_false_of_ne hne]
        rfl
      rw [Entry.at?_directory_cons, Entry.at?_directory_cons, hlookup, hlookup]
      rfl
  obtain ⟨hsources, hhistory⟩ := run_ignores_history oneFunction ⟨"/p"⟩ c hdata (some embedder)
  obtain ⟨report, hrun⟩ := hruns old
  obtain ⟨report', hrun'⟩ := hruns []
  obtain ⟨rfl, -⟩ := hsources _ _ _ _ hsame hrun hrun'
  obtain ⟨-, hagain, hkept⟩ := hhistory _ _ _ (hroot old)
  exact ⟨hdata, hsame, report, hrun, hrun', (hagain report hrun).1, hkept.trans (htable old)⟩

end IndexPass

end CodeAtlas
