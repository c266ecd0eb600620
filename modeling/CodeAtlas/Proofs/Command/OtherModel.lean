import CodeAtlas.Command.Run
import CodeAtlas.Proofs.Project.Table
import CodeAtlas.Proofs.Retrieval.Channels

/-!
# `CodeAtlas.Proofs.Command.OtherModel`: vectors of another model are not searched

A table tells its model by its first row alone. Its rows are those of one store
(`VectorTable.run_eq_lastStorable`), so the first one speaks for all of them. The theorems:

* `storeFor_ofStore`: a table gives its store to the model that made the vectors, and the empty
  store with a note to any other.
* `prepare_of_content`: what a question is asked of, where the project has a table.
* `unsearched_of_storeFor`: a command that asks a question of vectors of another model embeds
  nothing and finds by name alone.
* `searched_only_of_model`: all of this for a table behind any run of replacements.
-/

set_option autoImplicit false

namespace CodeAtlas

namespace VectorTable

/-- The model of a table that was written is that of the store, if there is a row to tell it. -/
theorem model?_ofStore (store : VectorStore) (model : String) :
    (ofStore store model).model? = if store.records = [] then none else some model := by
  obtain ⟨records⟩ := store
  cases records <;> rfl

/-- The rows of a table that was written carry one model. -/
theorem model_of_mem_ofStore {store : VectorStore} {model : String} {row : VectorRow}
    (h : row ∈ (ofStore store model).rows) : row.model = model := by
  obtain ⟨r, -, rfl⟩ := List.mem_map.mp h
  rfl

/-- A table that was written gives its store to its own model; where it has rows, another model
is given the empty store and a note. -/
theorem storeFor_ofStore (store : VectorStore) (model wanted : String) :
    (ofStore store model).storeFor wanted =
      if store.records ≠ [] ∧ model ≠ wanted then (.empty, some (otherModel model wanted))
      else (store, none) := by
  rw [storeFor, model?_ofStore, store_ofStore]
  by_cases hrecords : store.records = []
  · simp [hrecords]
  · by_cases hmodel : model = wanted <;> simp [hrecords, hmodel]

end VectorTable

namespace Command

/-! ### Opening the log -/

/-- The log takes the place of no file that was there. -/
theorem content_openLog {t : FileTree} {root p : Path} {c : Content} (h : t.content p = .ok c) :
    (openLog t root).content p = .ok c := by
  rw [openLog]
  split
  · rename_i hlog
    have hmissing : t.content (Layout.logFile root) ≠ .ok c := by
      intro hthere
      obtain ⟨_, hlocate⟩ := FileTree.content_eq_ok_iff.mp hthere
      rw [FileTree.contains_of_found hlocate] at hlog
      exact absurd (Bool.and_eq_true_iff.mp hlog).2 (by decide)
    -- `p` may lead through links, so it is told from the log by what is there, not by its name.
    cases hwrite : t.write (Layout.logFile root) (.ofText "") with
    | error fault => exact h
    | ok t' => exact FileTree.content_write_of_ne hmissing hwrite h
  · exact h

/-! ### Commands that ask -/

/-- Whether a command asks a question; what is found for it is told in a given way. -/
inductive Asks : Command → Question → (Retrieval → FileTree → Outcome) → Prop
  | query (q : Question) (json : Bool) : Asks (.query q json) q (tellQuery q.text json)
  | context (q : Question) (format : ContextFormat) :
      Asks (.context q format) q (tellContext q format)

section Run

variable {s : Surroundings} {command : Command} {q : Question}
  {tell : Retrieval → FileTree → Outcome}

/-- A command that asks is run as its question; what the two commands tell of the answer is all that
sets them apart. -/
theorem run_of_asks (h : Asks command q tell) :
    run s command = runQuestion { s with tree := openLog s.tree (command.root s.tree) }
      (command.root s.tree) q tell := by
  cases h <;> rfl

/-- What a command that asks would embed is the prompt of its question, if the project can be asked
at all. -/
theorem prompts_of_asks (h : Asks command q tell) :
    prompts s command =
      match (prepare { s with tree := openLog s.tree (command.root s.tree) }
          (command.root s.tree)).1,
        (openLog s.tree (command.root s.tree)).loadConfig (command.root s.tree) with
      | .ok p, .ok config =>
        some (config.embedding, (p.retriever.semanticPrompt q.text q.issue).toOption.toList)
      | _, _ => none := by
  cases h <;> rfl

/-! ### What is asked -/

/-- Whether the configuration and the graph of a project can be read, so that a question of it
has an answer. -/
def Answers (t : FileTree) (root : Path) : Prop :=
  ∃ config graph, t.loadConfig root = .ok config ∧ t.loadGraph root = .ok (some graph)

/-- Where a project has a table, its questions are asked of what the table gives the configured
model. Preparing them changes nothing and does not ask the embedder. -/
theorem prepare_of_content {root : Path} {table : VectorTable}
    (h : s.tree.content (Layout.tableFile root) = .ok (.table table)) :
    (∃ message, ¬Answers s.tree root ∧ ∀ embedder,
      prepare { s with embedder := embedder } root = (.error message, s.tree)) ∨
    ∃ config graph, s.tree.loadConfig root = .ok config ∧
      s.tree.loadGraph root = .ok (some graph) ∧ ∀ embedder,
        prepare { s with embedder := embedder } root
          = (.ok ⟨⟨graph, (table.storeFor config.embedding.model).1, embedder config.embedding⟩,
              config.topK, (table.storeFor config.embedding.model).2.toList⟩, s.tree) := by
  obtain ⟨place, hlocate⟩ := FileTree.content_eq_ok_iff.mp h
  have hsetUp : isSetUp s.tree root = true :=
    FileTree.isDirectory_of_locate (Layout.components_tableFile root) hlocate
  -- From here on the cases are those of the command: each of the two documents may be unreadable,
  -- and the graph may be missing. The embedder is asked in none of them.
  simp only [prepare, hsetUp, FileTree.openTable_of_content h]
  cases hconfig : s.tree.loadConfig root with
  | error fault => exact .inl ⟨_, by simp [Answers, hconfig], fun _ => rfl⟩
  | ok config =>
    cases hgraph : s.tree.loadGraph root with
    | error fault => exact .inl ⟨_, by simp [Answers, hgraph], fun _ => rfl⟩
    | ok graph? =>
      cases graph? with
      | none => exact .inl ⟨_, by simp [Answers, hgraph], fun _ => rfl⟩
      | some graph => exact .inr ⟨config, graph, rfl, rfl, fun _ => rfl⟩

/-- A question that is prepared without vectors finds by name alone and embeds nothing. -/
theorem answer_of_empty (graph : ProjectGraph) (embedder : Embedder) (topK : Nat)
    (notes : List Diagnostic) (q : Question) :
    Prepared.answer ⟨⟨graph, .empty, embedder⟩, topK, notes⟩ q
      = ⟨FileMatches.group (Retriever.byName ⟨graph, .empty, embedder⟩ q.text q.issue),
          notes ++ [SemanticFault.emptyStore.diagnostic]⟩ := by
  rw [Prepared.answer, Retriever.retrieve_of_isEmpty rfl]

/-- What a run is that asks a question, but not of the vectors of the project. -/
structure Unsearched (s : Surroundings) (command : Command)
    (tell : Retrieval → FileTree → Outcome) (note : Diagnostic) : Prop where
  /-- No text is embedded. -/
  no_prompt : ∀ p ∈ prompts s command, p.2 = []
  /-- Whatever the embedder does, the run is the same. -/
  embedder_unused : ∀ embedder, run { s with embedder := embedder } command = run s command
  /-- The table is left as it was. -/
  table_kept : (run s command).tree.content (Layout.tableFile (command.root s.tree))
    = s.tree.content (Layout.tableFile (command.root s.tree))
  /-- The answer holds the names that were found and no match of the search among vectors, and
  the note comes first. -/
  answer : Answers (openLog s.tree (command.root s.tree)) (command.root s.tree) →
    ∃ r, run s command = tell r (openLog s.tree (command.root s.tree)) ∧
      (∀ f ∈ r.files, ∀ m ∈ f.found, m.method ≠ .semantic) ∧
      r.diagnostics = [note, SemanticFault.emptyStore.diagnostic]
  /-- The run fails only where there is nothing to be asked. -/
  failed : ¬Answers (openLog s.tree (command.root s.tree)) (command.root s.tree) →
    ∃ message, run s command = failure (openLog s.tree (command.root s.tree)) message

/-- What is told leaves the tree as it is. -/
theorem tree_tell (h : Asks command q tell) (r : Retrieval) (t : FileTree) :
    (tell r t).tree = t := by
  cases h with
  | query q json => cases json <;> rfl
  | context q format => rfl

/-- A command that asks a question of a table whose vectors are of another model leaves them
alone. -/
theorem unsearched_of_storeFor (h : Asks command q tell) {table : VectorTable} {wanted : String}
    {note : Diagnostic} (hstore : table.storeFor wanted = (.empty, some note))
    (htable : s.tree.content (Layout.tableFile (command.root s.tree)) = .ok (.table table))
    (hwanted : ∀ config, (openLog s.tree (command.root s.tree)).loadConfig (command.root s.tree)
      = .ok config → config.embedding.model = wanted) :
    Unsearched s command tell note := by
  have hrun := fun embedder => run_of_asks (s := { s with embedder := embedder }) h
  have hprompts := prompts_of_asks (s := s) h
  have hlog : (openLog s.tree (command.root s.tree)).content _ = _ := content_openLog htable
  have hkept := hlog.trans htable.symm
  -- The embedder is a variable up to here: `prepare` stores it and does not call it.
  obtain ⟨message, hno, hprepare⟩ | ⟨config, graph, hconfig, hgraph, hprepare⟩ :=
    prepare_of_content (s := { s with tree := openLog s.tree (command.root s.tree) }) hlog
  · -- There is nothing to be asked.
    have hfails : ∀ embedder, run { s with embedder := embedder } command
        = failure (openLog s.tree (command.root s.tree)) message := by
      intro embedder
      rw [hrun, runQuestion, hprepare]
    have hself : run s command = _ := hfails s.embedder
    have hnone : prompts s command = none := by
      rw [hprompts, hprepare s.embedder]
    exact {
      no_prompt := by simp [hnone]
      embedder_unused := fun embedder => (hfails embedder).trans hself.symm
      table_kept := by rw [hself]; exact hkept
      answer := fun hanswers => absurd hanswers hno
      failed := fun _ => ⟨message, hself⟩ }
  · simp only [hwanted config hconfig, hstore] at hprepare
    have hasked : ∀ embedder, run { s with embedder := embedder } command
        = tell ⟨FileMatches.group (Retriever.byName ⟨graph, .empty, s.embedder config.embedding⟩
            q.text q.issue), [note, SemanticFault.emptyStore.diagnostic]⟩
          (openLog s.tree (command.root s.tree)) := by
      intro embedder
      rw [hrun, runQuestion, hprepare]
      exact congrArg (fun r => tell r _) (answer_of_empty graph _ config.topK [note] q)
    have hself : run s command = _ := hasked s.embedder
    have hnone : prompts s command = some (config.embedding, []) := by
      rw [hprompts, hconfig, hprepare s.embedder]
      rfl
    exact {
      no_prompt := by simp [hnone]
      embedder_unused := fun embedder => (hasked embedder).trans hself.symm
      table_kept := by rw [hself, tree_tell h]; exact hkept
      answer := fun _ =>
        ⟨_, hself, fun f hf m hm => Retriever.method_ne_of_mem_group_byName hf hm, rfl⟩
      failed := fun hno => absurd ⟨config, graph, hconfig, hgraph⟩ hno }

end Run

/-! ### The table behind a run of replacements -/

/-- **Vectors are searched only for the model that made them.** Take the table behind any run of
replacements of an empty one, some of which may fail, and any wanted model. A call of the run
succeeds exactly if its store can be written; all rows carry the model of one store, and the wanted
model is given the last store that was written, without a note. Only if that store has vectors of
another model it is given the empty store, and one note that tells both models. Where a project
has that table and the wanted model is configured, every command that asks a question then leaves
the vectors alone: nothing is embedded, and nothing is found but by name. -/
theorem searched_only_of_model (calls : List Replacement) (wanted : String) :
    (∀ before c after, calls = before ++ c :: after →
      ((∃ size, ((VectorTable.empty.run before).replace c.store c.model).1 = .ok size) ↔
        c.store.Storable)) ∧
    (∃ model, ∀ row ∈ (VectorTable.empty.run calls).rows, row.model = model) ∧
    match VectorTable.lastStorable? calls with
    | none => (VectorTable.empty.run calls).storeFor wanted = (.empty, none)
    | some c =>
      if c.store.records = [] ∨ c.model = wanted then
        (VectorTable.empty.run calls).storeFor wanted = (c.store, none)
      else
        ∃ note, note.kind = .retrievalInputError ∧
          (VectorTable.empty.run calls).storeFor wanted = (.empty, some note) ∧
          ∀ (s : Surroundings) (command : Command) (q : Question)
            (tell : Retrieval → FileTree → Outcome), Asks command q tell →
            s.tree.content (Layout.tableFile (command.root s.tree))
              = .ok (.table (VectorTable.empty.run calls)) →
            (∀ config, (openLog s.tree (command.root s.tree)).loadConfig (command.root s.tree)
              = .ok config → config.embedding.model = wanted) →
            Unsearched s command tell note := by
  refine ⟨fun before c after _ => ?_, ?_, ?_⟩
  · by_cases hc : c.store.Storable
    · simp [VectorTable.replace_of_storable hc, hc]
    · obtain ⟨fault, hfault, -⟩ :=
        VectorTable.replace_of_not_storable hc (VectorTable.empty.run before) c.model
      simp [hfault, hc]
  · -- A failed call keeps the table, so only the last store that was written is in it.
    rw [VectorTable.run_eq_lastStorable]
    cases VectorTable.lastStorable? calls with
    | none => exact ⟨"", fun row hrow => absurd hrow List.not_mem_nil⟩
    | some c => exact ⟨c.model, fun row hrow => VectorTable.model_of_mem_ofStore hrow⟩
  · rw [VectorTable.run_eq_lastStorable]
    cases VectorTable.lastStorable? calls with
    | none => rfl
    | some c =>
      -- What the wanted model is given depends on the rows alone, which are those of one store.
      have hstore := VectorTable.storeFor_ofStore c.store c.model wanted
      by_cases hown : c.store.records = [] ∨ c.model = wanted
      · simp only [if_pos hown]
        rw [hstore, if_neg (by tauto)]
      · simp only [if_neg hown]
        rw [if_pos (not_or.mp hown)] at hstore
        exact ⟨VectorTable.otherModel c.model wanted, rfl, hstore,
          fun s command q tell h htable hwanted => unsearched_of_storeFor h hstore htable hwanted⟩

/-- A vector of another model than the configured one, and behind it a replacement that failed: a
question that names the file finds it by name and tells of the other model. -/
theorem searched_only_of_model_stale :
    let vectors : Replacement := ⟨⟨[⟨"a.rs", 0, "fn a() {}", [.one], "rs"⟩]⟩, "old"⟩
    let twice : Replacement :=
      ⟨⟨[⟨"a.rs", 0, "", [], "rs"⟩, ⟨"a.rs", 0, "", [], "rs"⟩]⟩, "nomic-embed-text"⟩
    let g : ProjectGraph := ⟨[], []⟩
    let data : Entry := .directory [("graph.json".toList, .file (.ofText g.write)),
      ("index.db".toList, .file (.table (VectorTable.empty.run [vectors, twice]))),
      ("repolens.log".toList, .file (.ofText ""))]
    let t : FileTree := ⟨.directory [(['p'], .directory [(".repolens".toList, data)])], [['p']]⟩
    let embedder : EmbeddingConfig → Embedder := fun c => ⟨c.model, fun _ => .ok [.one]⟩
    let q : Question := ⟨"a.rs", some ⟨"/p"⟩, none, none⟩
    ∃ r, run ⟨t, embedder, 0⟩ (.query q true) = tellQuery "a.rs" true r t ∧
      r.diagnostics = [VectorTable.otherModel "old" "nomic-embed-text",
        SemanticFault.emptyStore.diagnostic] := by
  intro vectors twice g data t embedder q
  have hin : ∀ name : EntryName, (Layout.dataDirectory ⟨"/p"⟩).components ++ [.name name]
      = .root :: ([['p'], ".repolens".toList] ++ [name]).map .name := by
    intro name
    rw [Layout.components_dataDirectory]
    rfl
  have hlog : openLog t ⟨"/p"⟩ = t := by
    have hthere := FileTree.contains_of_found (t := t) (p := Layout.logFile ⟨"/p"⟩)
      (FileTree.locate_names ((Layout.components_join_name rfl rfl rfl).trans (hin _)) rfl
        fun _ => Entry.noConfusion)
    rw [openLog, hthere]
    simp
  have hconfig : t.loadConfig ⟨"/p"⟩ = .ok (.standard ⟨"/p"⟩) := by
    have hfree : t.locate true (Layout.configFile ⟨"/p"⟩) = .ok (.free _) :=
      FileTree.locate_names_free ((Layout.components_join_name rfl rfl rfl).trans (hin _)) rfl rfl
    rw [FileTree.loadConfig, FileTree.document?_of_free hfree]
    rfl
  have hgraph : t.loadGraph ⟨"/p"⟩ = .ok (some g) :=
    FileTree.document?_of_content (FileTree.content_eq_ok_iff.mpr ⟨_, FileTree.locate_names
      ((Layout.components_graphFile _).trans (hin _)) rfl fun _ => Entry.noConfusion⟩)
        (ProjectGraph.read_write ⟨by simp [g], by simp [g]⟩)
  have htable : t.content (Layout.tableFile ⟨"/p"⟩)
      = .ok (.table (VectorTable.empty.run [vectors, twice])) :=
    FileTree.content_eq_ok_iff.mpr ⟨_, FileTree.locate_names
      ((Layout.components_tableFile _).trans (hin _)) rfl fun _ => Entry.noConfusion⟩
  -- The last replacement failed, so the table still has the vectors of the first one.
  have hlast : VectorTable.lastStorable? [vectors, twice] = some vectors := rfl
  have h := (searched_only_of_model [vectors, twice] "nomic-embed-text").2.2
  rw [hlast] at h
  obtain ⟨note, -, hstore, hasks⟩ := h
  have hnote : note = VectorTable.otherModel "old" "nomic-embed-text" := by
    rw [VectorTable.run_eq_lastStorable, hlast, VectorTable.storeFor_ofStore] at hstore
    simpa [vectors, eq_comm] using congrArg Prod.snd hstore
  rw [← hlog] at hconfig hgraph
  have hunsearched := hasks ⟨t, embedder, 0⟩ (.query q true) q _ (.query q true) htable
    fun config h => by
      obtain rfl := Except.ok.inj (h.symm.trans hconfig)
      rfl
  obtain ⟨r, hrun, -, hdiagnostics⟩ := hunsearched.answer ⟨_, g, hconfig, hgraph⟩
  exact ⟨r, hrun.trans (congrArg (tellQuery "a.rs" true r) hlog), hnote ▸ hdiagnostics⟩

end Command

end CodeAtlas
