import CodeAtlas.Proofs.Json.Decode
import CodeAtlas.Proofs.Project.Data

/-!
# `CodeAtlas.Proofs.Project.Config`: a configuration survives edits, saving and loading

The document of a configuration is read back (`ProjectConfig.read_write`), so that what was saved
is loaded, as the configuration of the root that it is loaded for (`loadConfig_of_saveConfig`).

Between one save and the next, a configuration is only in memory. A step of a session
(`ConfigStep`) adds patterns to it, saves it, or puts in its place what was saved last. An addition
is therefore lost if the configuration is loaded before it is saved again; all the others last
(`ConfigStep.lasting`). The theorem:

* `ConfigSession.current_of_run`: a session that begins once a configuration was saved never fails,
  and ends with that configuration, behind whose patterns stand those of the lasting additions that
  are not among them, each once and in the order in which they were first added.

Its induction is over the steps. The lemma `ConfigSession.run_eq` carries two configurations that
drift apart with every addition: the one in memory and the one that a load would give
(`ConfigSession.Saved`).
-/

set_option autoImplicit false

namespace CodeAtlas

open Json Json.Decoder

/-! ### The document -/

namespace EmbeddingConfig

/-- Whether the numbers of the settings have 64 bits. -/
structure Fits (c : EmbeddingConfig) : Prop where
  timeout : Has64Bits c.timeout
  concurrency : Has64Bits c.concurrency

/-- The record that the settings of the embedder are read with names the four fields in the order
they are written in, each with its default, so it gives back what was written. -/
theorem decode_gives {c : EmbeddingConfig} (h : c.Fits) : decode.Gives c.toJson c := by
  have hmakes := Makes.firstDefaulted "base_url" standard.baseUrl EmbeddingConfig.mk
      (string_gives c.baseUrl)
    |>.andDefaulted "model" standard.model (string_gives c.model)
    |>.andDefaulted "timeout_secs" standard.timeout (nat64_gives h.timeout)
    |>.andDefaulted "concurrency" standard.concurrency (nat64_gives h.concurrency)
  exact record_gives rfl (by decide) hmakes

end EmbeddingConfig

namespace ProjectConfig

/-- Whether the numbers of a configuration have 64 bits, that of its version with a sign. -/
structure Fits (c : ProjectConfig) : Prop where
  version_low : -0x8000000000000000 ≤ c.version
  version_high : c.version ≤ 0x7fffffffffffffff
  maxFileSize : Has64Bits c.maxFileSize
  chunkSize : Has64Bits c.chunkSize
  topK : Has64Bits c.topK
  embedding : c.embedding.Fits

/-- The texts of a configuration are free. -/
theorem Fits.texts {c : ProjectConfig} (h : c.Fits) (root : String)
    (includes excludes : List String) :
    Fits { c with root := root, includePatterns := includes, excludePatterns := excludes } :=
  ⟨h.version_low, h.version_high, h.maxFileSize, h.chunkSize, h.topK, h.embedding⟩

/-- The same for the whole document. Only `"embedding"` may be missing, so only that field needs its
default here. -/
theorem decode_gives {c : ProjectConfig} (h : c.Fits) : decode.Gives c.toJson c := by
  have hmakes := Makes.first "version" ProjectConfig.mk (int64_gives h.version_low h.version_high)
    |>.and "root_dir" (string_gives c.root)
    |>.and "include" (list_gives fun p (_ : p ∈ c.includePatterns) => string_gives p)
    |>.and "exclude" (list_gives fun p (_ : p ∈ c.excludePatterns) => string_gives p)
    |>.and "max_file_size" (nat64_gives h.maxFileSize)
    |>.and "chunk_size" (nat64_gives h.chunkSize)
    |>.and "top_k" (nat64_gives h.topK)
    |>.andDefaulted "embedding" .standard (EmbeddingConfig.decode_gives h.embedding)
  exact record_gives rfl (by decide) hmakes

/-- The document of a configuration is read as the configuration, with the root that it is read
for. -/
theorem read_write {c : ProjectConfig} (h : c.Fits) (root : Path) :
    read root c.write = .ok { c with root := root.text } := by
  have hgives : decode.Gives ({ c with root := "." } : ProjectConfig).toJson _ :=
    decode_gives (h.texts "." c.includePatterns c.excludePatterns)
  rw [read, write, Json.prettyText, String.toList_ofList, ofText_prettyAt_of_gives hgives]
  rfl

/-! ### Patterns -/

/-- The patterns that are not among the ones that are there, each once and in the order in which
they come first. -/
def newcomers (patterns added : List String) : List String :=
  (added.filter fun p => p ∉ patterns).eraseDups

/-- Patterns are added behind the ones that are there. -/
theorem addPatterns_eq (patterns added : List String) :
    addPatterns patterns added = patterns ++ newcomers patterns added := by
  -- A pattern that is added is there for those behind it, so the induction is for all patterns.
  induction added generalizing patterns with
  | nil => exact (List.append_nil patterns).symm
  | cons p added ih =>
    rw [addPatterns, List.foldl_cons, ← addPatterns, ih, addPattern, newcomers]
    by_cases hp : p ∈ patterns
    · rw [if_pos (List.contains_iff_mem.mpr hp), newcomers,
        List.filter_cons_of_neg (by simpa using hp)]
    · -- From here on `p` is one of the patterns that are there.
      have hrest : (added.filter fun q => q ∉ patterns ++ [p])
          = (added.filter fun q => q ∉ patterns).filter fun q => !q == p := by
        rw [List.filter_filter]
        refine List.filter_congr fun q _ => ?_
        rw [Bool.eq_iff_iff]
        simp [and_comm]
      rw [if_neg (by simpa using hp), newcomers, List.filter_cons_of_pos (by simpa using hp),
        List.eraseDups_cons, hrest, List.append_assoc, List.singleton_append]

end ProjectConfig

/-! ### Saving and loading -/

namespace Layout

/-- The settings stand in the data directory, which is why writing them needs nothing of the root
but a place for that directory. -/
theorem components_configFile (root : Path) :
    (configFile root).components
      = (dataDirectory root).components ++ [.name "config.json".toList] :=
  components_join_name rfl rfl rfl

end Layout

namespace FileTree

variable {root : Path} {t t' : FileTree} {c : ProjectConfig}

/-- What was saved is loaded, with the root of the project. -/
theorem loadConfig_of_saveConfig (hfits : c.Fits) (hchunk : 1 ≤ c.chunkSize)
    (h : (saveConfig root c).apply t = (.ok (), t')) :
    t'.loadConfig root = .ok { c with root := root.text } ∧
      t'.HasPlace root (Layout.configFile root) := by
  obtain ⟨between, -, hwrite⟩ := apply_writeDocument_iff.mp h
  have hread := document?_of_write hwrite (ProjectConfig.read_write hfits root)
  refine ⟨?_, hasPlace_of_write hwrite⟩
  rw [loadConfig, hread]
  show (if c.chunkSize = 0 then _ else _) = _
  rw [if_neg (by omega)]
  rfl

/-- A configuration is saved wherever there is a place for it. -/
theorem exists_saveConfig (h : t.HasPlace root (Layout.configFile root)) (c : ProjectConfig) :
    ∃ t', (saveConfig root c).apply t = (.ok (), t') :=
  exists_writeDocument (Layout.components_configFile root) h c.write

end FileTree

/-! ### Sessions -/

/-- A step with the configuration of a project. -/
inductive ConfigStep where
  | addIncludes (patterns : List String)
  | addExcludes (patterns : List String)
  | save
  | load
deriving DecidableEq, Repr

/-- A configuration in memory, and the tree in which it is saved. -/
structure ConfigSession where
  current : ProjectConfig
  tree : FileTree

namespace ConfigSession

/-- One step. A load takes the place of what is in memory. -/
def step (root : Path) (s : ConfigSession) : ConfigStep → Except DataFault ConfigSession
  | .addIncludes patterns => .ok { s with current := s.current.addIncludes patterns }
  | .addExcludes patterns => .ok { s with current := s.current.addExcludes patterns }
  | .save =>
    match (FileTree.saveConfig root s.current).apply s.tree with
    | (.ok (), t) => .ok { s with tree := t }
    | (.error fault, _) => .error fault
  | .load => (s.tree.loadConfig root).map fun c => { s with current := c }

/-- One step after the other. -/
def run (root : Path) (s : ConfigSession) (steps : List ConfigStep) :
    Except DataFault ConfigSession :=
  steps.foldlM (step root) s

end ConfigSession

namespace ConfigStep

/-- Whether the next step that saves or loads is one that loads. -/
def reverted : List ConfigStep → Bool
  | [] | .save :: _ => false
  | .load :: _ => true
  | .addIncludes _ :: steps | .addExcludes _ :: steps => reverted steps

/-- The additions that are not lost by a load. -/
def lasting : List ConfigStep → List ConfigStep
  | [] => []
  | .save :: steps | .load :: steps => lasting steps
  | .addIncludes patterns :: steps =>
    if reverted steps then lasting steps else .addIncludes patterns :: lasting steps
  | .addExcludes patterns :: steps =>
    if reverted steps then lasting steps else .addExcludes patterns :: lasting steps

/-- The patterns that a step adds to those of the wanted files. -/
def includes : ConfigStep → List String
  | .addIncludes patterns => patterns
  | _ => []

/-- The patterns that a step adds to those of the files that are left out. -/
def excludes : ConfigStep → List String
  | .addExcludes patterns => patterns
  | _ => []

/-- A configuration after the additions among some steps. -/
def edit (c : ProjectConfig) (steps : List ConfigStep) : ProjectConfig :=
  (c.addIncludes (steps.flatMap includes)).addExcludes (steps.flatMap excludes)

/-- The patterns added by the first step are in the settings before those of the steps behind it,
which is the order the induction over a run meets them in. -/
theorem edit_addIncludes (c : ProjectConfig) (patterns : List String) (steps : List ConfigStep) :
    edit c (.addIncludes patterns :: steps) = edit (c.addIncludes patterns) steps := by
  simp [edit, includes, excludes, ProjectConfig.addIncludes, ProjectConfig.addExcludes,
    ProjectConfig.addPatterns]

/-- The same for the patterns that keep a file out. -/
theorem edit_addExcludes (c : ProjectConfig) (patterns : List String) (steps : List ConfigStep) :
    edit c (.addExcludes patterns :: steps) = edit (c.addExcludes patterns) steps := by
  simp [edit, includes, excludes, ProjectConfig.addIncludes, ProjectConfig.addExcludes,
    ProjectConfig.addPatterns]

/-! ### What becomes of a saved configuration and the one in memory -/

/-- The configuration in memory behind some steps, its root apart. -/
def outcome (saved current : ProjectConfig) (steps : List ConfigStep) : ProjectConfig :=
  edit (if reverted steps then saved else current) (lasting steps)

variable (saved current : ProjectConfig) (patterns : List String) (steps : List ConfigStep)

/-- Patterns added by the first step may as well have been in memory before the run: if a load comes
before the next save they are lost either way, and otherwise they come first. -/
theorem outcome_addIncludes : outcome saved current (.addIncludes patterns :: steps)
    = outcome saved (current.addIncludes patterns) steps := by
  unfold outcome
  by_cases h : reverted steps
  · simp [reverted, lasting, h]
  · simp [reverted, lasting, h, edit_addIncludes]

/-- The same for the patterns that keep a file out. -/
theorem outcome_addExcludes : outcome saved current (.addExcludes patterns :: steps)
    = outcome saved (current.addExcludes patterns) steps := by
  unfold outcome
  by_cases h : reverted steps
  · simp [reverted, lasting, h]
  · simp [reverted, lasting, h, edit_addExcludes]

/-- A save makes the current settings those a later load returns to, so from here on they play both
parts. -/
theorem outcome_save :
    outcome saved current (.save :: steps) = outcome current current steps := by
  simp [outcome, reverted, lasting]

/-- The root that a load sets does not matter here. -/
theorem outcome_load (root : String) :
    { outcome saved current (.load :: steps) with root := root }
      = { outcome saved { saved with root := root } steps with root := root } := by
  have hload : outcome saved current (.load :: steps) = edit saved (lasting steps) := rfl
  rw [hload]
  unfold outcome
  split
  · rfl
  · rfl

end ConfigStep

namespace ConfigSession

open ConfigStep

/-- Whether a configuration was saved and is loaded again, and so will be the one in memory. -/
structure Saved (root : Path) (s : ConfigSession) (c : ProjectConfig) : Prop where
  loaded : s.tree.loadConfig root = .ok { c with root := root.text }
  hasPlace : s.tree.HasPlace root (Layout.configFile root)
  fits : c.Fits ∧ s.current.Fits
  chunkSize_pos : 1 ≤ c.chunkSize ∧ 1 ≤ s.current.chunkSize

variable {root : Path} {s : ConfigSession} {c : ProjectConfig}

/-- Texts of the configuration in memory may change. -/
theorem Saved.texts (h : s.Saved root c) (text : String) (includes excludes : List String) :
    Saved root { s with current := { s.current with
      root := text, includePatterns := includes, excludePatterns := excludes } } c where
  loaded := h.loaded
  hasPlace := h.hasPlace
  fits := ⟨h.fits.1, h.fits.2.texts text includes excludes⟩
  chunkSize_pos := h.chunkSize_pos

/-- A save succeeds, and saves what is in memory. -/
theorem Saved.save (h : s.Saved root c) :
    ∃ t, (FileTree.saveConfig root s.current).apply s.tree = (.ok (), t) ∧
      Saved root { s with tree := t } s.current := by
  obtain ⟨t, ht⟩ := FileTree.exists_saveConfig h.hasPlace s.current
  obtain ⟨hload, hplace⟩ := FileTree.loadConfig_of_saveConfig h.fits.2 h.chunkSize_pos.2 ht
  exact ⟨t, ht, hload, hplace, ⟨h.fits.2, h.fits.2⟩, h.chunkSize_pos.2, h.chunkSize_pos.2⟩

/-- A load puts what was saved in the place of what is in memory. -/
theorem Saved.load (h : s.Saved root c) :
    Saved root { s with current := { c with root := root.text } } c where
  loaded := h.loaded
  hasPlace := h.hasPlace
  fits := ⟨h.fits.1, h.fits.1.texts root.text c.includePatterns c.excludePatterns⟩
  chunkSize_pos := ⟨h.chunkSize_pos.1, h.chunkSize_pos.1⟩

/-- A run whose first step succeeds is the run of the others from where that step leads: the form
the induction over the steps needs. -/
theorem run_cons_of_step {next : ConfigStep} {s' : ConfigSession} (h : step root s next = .ok s')
    (steps : List ConfigStep) : run root s (next :: steps) = run root s' steps := by
  rw [run, List.foldlM_cons, h]
  rfl

/-- Where a session ends that begins with some saved configuration. -/
theorem run_eq (h : s.Saved root c) (steps : List ConfigStep) :
    ∃ t, run root s steps = .ok
      { current := { outcome c s.current steps with
          root := if .load ∈ steps then root.text else s.current.root }
        tree := t } := by
  -- The induction is on the steps, for every session that has something saved. Each kind of step
  -- keeps `Saved`, a save with other settings.
  induction steps generalizing s c with
  | nil => exact ⟨s.tree, rfl⟩
  | cons next steps ih =>
    cases next with
    | addIncludes patterns =>
      obtain ⟨t, ht⟩ := ih (h.texts s.current.root
        (ProjectConfig.addPatterns s.current.includePatterns patterns) s.current.excludePatterns)
      refine ⟨t, (run_cons_of_step rfl steps).trans (ht.trans ?_)⟩
      rw [outcome_addIncludes]
      simp [ProjectConfig.addIncludes]
    | addExcludes patterns =>
      obtain ⟨t, ht⟩ := ih (h.texts s.current.root s.current.includePatterns
        (ProjectConfig.addPatterns s.current.excludePatterns patterns))
      refine ⟨t, (run_cons_of_step rfl steps).trans (ht.trans ?_)⟩
      rw [outcome_addExcludes]
      simp [ProjectConfig.addExcludes]
    | save =>
      obtain ⟨between, hsave, hsaved⟩ := h.save
      obtain ⟨t, ht⟩ := ih hsaved
      have hstep : step root s .save = .ok { s with tree := between } := by
        simp only [step, hsave]
      refine ⟨t, (run_cons_of_step hstep steps).trans (ht.trans ?_)⟩
      rw [outcome_save]
      simp
    | load =>
      obtain ⟨t, ht⟩ := ih h.load
      have hstep : step root s .load = .ok { s with current := { c with root := root.text } } := by
        simp only [step, h.loaded]
        rfl
      refine ⟨t, (run_cons_of_step hstep steps).trans (ht.trans ?_)⟩
      rw [if_pos List.mem_cons_self, outcome_load]
      simp

open ProjectConfig (newcomers)

/-- **A configuration survives edits, saving and loading.** Take any configuration with numbers of
64 bits and chunks of some size, any root and any tree of files. The configuration is saved wherever
there is a place for it. Once it was saved, it is what is loaded, with the root of the project; and
however it is edited, saved and loaded from then on, every step succeeds. Behind its patterns there
then stand those of the lasting additions that are not among them, each once and in the order in
which they were first added; nothing else has changed, except for the root once it was loaded. -/
theorem current_of_run {c : ProjectConfig} (hfits : c.Fits) (hchunk : 1 ≤ c.chunkSize)
    (root : Path) (t : FileTree) :
    (t.HasPlace root (Layout.configFile root) →
      ∃ t', (FileTree.saveConfig root c).apply t = (.ok (), t')) ∧
    ∀ t', (FileTree.saveConfig root c).apply t = (.ok (), t') →
      t'.loadConfig root = .ok { c with root := root.text } ∧
      ∀ (text : String) (steps : List ConfigStep), ∃ s,
        run root ⟨{ c with root := text }, t'⟩ steps = .ok s ∧
        s.current = { c with
          root := if .load ∈ steps then root.text else text
          includePatterns := c.includePatterns
            ++ newcomers c.includePatterns ((lasting steps).flatMap includes)
          excludePatterns := c.excludePatterns
            ++ newcomers c.excludePatterns ((lasting steps).flatMap excludes) } := by
  refine ⟨fun hplace => FileTree.exists_saveConfig hplace c, fun t' hsave => ?_⟩
  obtain ⟨hload, hplace⟩ := FileTree.loadConfig_of_saveConfig hfits hchunk hsave
  refine ⟨hload, fun text steps => ?_⟩
  have hsaved : Saved root ⟨{ c with root := text }, t'⟩ c :=
    ⟨hload, hplace, ⟨hfits, hfits.texts text c.includePatterns c.excludePatterns⟩,
      hchunk, hchunk⟩
  obtain ⟨last, hrun⟩ := run_eq hsaved steps
  refine ⟨_, hrun, ?_⟩
  rw [← ProjectConfig.addPatterns_eq, ← ProjectConfig.addPatterns_eq]
  -- Whichever of the two configurations is edited, they differ in the root alone.
  unfold outcome
  split
  · rfl
  · rfl

/-- An empty directory has a place for every document of a project. -/
theorem hasPlace_empty (p : Path) :
    FileTree.HasPlace ⟨.directory [(['p'], .directory [])], []⟩ ⟨"/p"⟩ p := by
  refine .noDirectory [['p'], ".repolens".toList] (FileTree.locate_eq_ok_iff.mpr ⟨by decide, ?_⟩)
  rw [Layout.components_dataDirectory]
  -- The tree is put behind a name, or each step of the walk would unfold it again.
  generalize htree : Entry.directory [(['p'], .directory [])] = top
  have htop : top.at? [] = some (.directory [(['p'], .directory [])]) := by
    rw [← htree]
    rfl
  have hroot : top.at? [['p']] = some (.directory []) := by
    rw [← htree]
    rfl
  have hfree : top.at? [['p'], ".repolens".toList] = none := by
    rw [← htree]
    rfl
  show FileTree.walk top false FileTree.linkLimit [] [.root, .name ['p'], .name ".repolens".toList]
    = _
  rw [FileTree.walk, FileTree.walk_name htop hroot (fun _ => Entry.noConfusion)]
  exact FileTree.walk_free hroot hfree

/-- Of the patterns that are added to a configuration with the least version and the greatest
sizes, those that are there already are not added again, and one is lost by a load. -/
theorem current_of_run_escaped :
    let c : ProjectConfig :=
      ⟨-0x8000000000000000, "elsewhere", ["**/*", "a\"b\\c/\x01\t\n\r\x08\x0c\x1f\x7f é 𝄞 😀"], [],
        0xffffffffffffffff, 0xffffffffffffffff, 0, ⟨"http://[::1]:1", "", 0xffffffffffffffff, 0⟩⟩
    let t : FileTree := ⟨.directory [(['p'], .directory [])], []⟩
    let steps : List ConfigStep :=
      [.addIncludes ["src/**", "**/*", "src/**"], .addExcludes ["dist"], .save,
        .addIncludes ["lost"], .addExcludes ["dist"], .load, .addIncludes ["", "src/**"]]
    c.Fits ∧ 1 ≤ c.chunkSize ∧
      ∃ t' s, (FileTree.saveConfig ⟨"/p"⟩ c).apply t = (.ok (), t') ∧
        t'.loadConfig ⟨"/p"⟩ = .ok { c with root := "/p" } ∧
        run ⟨"/p"⟩ ⟨c, t'⟩ steps = .ok s ∧
        s.current = { c with
          root := "/p"
          includePatterns := c.includePatterns ++ ["src/**", ""]
          excludePatterns := ["dist"] } := by
  intro c t steps
  have hfits : c.Fits :=
    ⟨by decide, by decide, by decide, by decide, by decide, by decide, by decide⟩
  obtain ⟨hsave, hafter⟩ := current_of_run hfits (by decide) ⟨"/p"⟩ t
  obtain ⟨t', ht'⟩ := hsave (hasPlace_empty _)
  obtain ⟨hload, hruns⟩ := hafter t' ht'
  obtain ⟨s, hrun, hcurrent⟩ := hruns "elsewhere" steps
  refine ⟨hfits, by decide, t', s, ht', hload, hrun, hcurrent.trans ?_⟩
  -- The two lists are computed apart, as the rest of the configuration does not matter for them.
  have hincludes : newcomers c.includePatterns ((lasting steps).flatMap includes)
      = ["src/**", ""] := by decide
  have hexcludes : newcomers c.excludePatterns ((lasting steps).flatMap excludes)
      = ["dist"] := by decide
  rw [hincludes, hexcludes]
  rfl

/-- A pattern that was added but not saved is gone once the configuration is loaded. -/
theorem addition_lost_by_load :
    let c : ProjectConfig := .standard ⟨"/p"⟩
    let t : FileTree := ⟨.directory [(['p'], .directory [])], []⟩
    ∃ t' s, (FileTree.saveConfig ⟨"/p"⟩ c).apply t = (.ok (), t') ∧
      run ⟨"/p"⟩ ⟨c, t'⟩ [.addIncludes ["src/**"], .load] = .ok s ∧
      s.current.includePatterns = ["**/*"] ∧
      s.current.includePatterns ≠ c.includePatterns ++ newcomers c.includePatterns ["src/**"] := by
  intro c t
  have hfits : c.Fits :=
    ⟨by decide, by decide, by decide, by decide, by decide, by decide, by decide⟩
  have hchunk : 1 ≤ c.chunkSize := by decide
  obtain ⟨t', ht'⟩ := FileTree.exists_saveConfig (hasPlace_empty _) c
  obtain ⟨hload, hplace⟩ := FileTree.loadConfig_of_saveConfig hfits hchunk ht'
  have hsaved : Saved ⟨"/p"⟩ ⟨c, t'⟩ c := ⟨hload, hplace, ⟨hfits, hfits⟩, hchunk, hchunk⟩
  obtain ⟨last, hrun⟩ := run_eq hsaved [.addIncludes ["src/**"], .load]
  refine ⟨t', _, ht', hrun, ?_, ?_⟩
  · rfl
  · show ["**/*"] ≠ _
    decide

end ConfigSession

end CodeAtlas
