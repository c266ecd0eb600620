import CodeAtlas.Command.Arguments
import CodeAtlas.Command.Report
import CodeAtlas.Retrieval.Channels

/-!
# `CodeAtlas.Command.Run`: what the commands do

A run takes a tree of files and gives another, together with what is printed and the exit code.
What lies outside of the tree, the embedders and the clock, is given to it.
-/

set_option autoImplicit false

namespace CodeAtlas

/-- What a run finds around it. -/
structure Surroundings where
  tree : FileTree
  /-- The embedder of a configuration. -/
  embedder : EmbeddingConfig → Embedder
  /-- How long an index pass takes, in milliseconds. -/
  elapsed : Nat

/-- What a run leaves behind. -/
structure Outcome where
  code : Nat
  out : String
  err : String
  tree : FileTree

namespace Command

/-- A run that ends well. -/
def success (t : FileTree) (ls : List String) : Outcome := ⟨0, Report.lines ls, "", t⟩

/-- A run that fails. -/
def failure (t : FileTree) (message : String) : Outcome := ⟨1, "", message ++ "\n", t⟩

/-- A run that fails for a cause. -/
def failureOf (t : FileTree) (what : String) (fault : DataFault) : Outcome :=
  failure t (what ++ ": " ++ fault.message)

/-- The absolute path of the place from which relative paths lead. -/
def hereOf (t : FileTree) : Path :=
  Path.ofComponents (.root :: t.here.map .name)

/-- The root of a project: the given one, or the place from which relative paths lead. -/
def rootOf (t : FileTree) (path : Option Path) : Path :=
  path.getD (hereOf t)

/-- The root of the project that a command is about. -/
def root (t : FileTree) : Command → Path
  | .init path _ _ _ | .index path _ _ _ | .status path => rootOf t path
  | .query q _ | .context q _ => rootOf t q.path

/-- Whether a project was set up. -/
def isSetUp (t : FileTree) (root : Path) : Bool :=
  t.isDirectory (Layout.dataDirectory root)

/-- What is told of a project that was not set up. -/
def notSetUp (root : Path) : String :=
  "Repolens not initialized in " ++ root.text

/-! ### Setting up -/

/-- What version control leaves alone. -/
def ignoreText : String :=
  Report.lines ["# Repolens index files", "# Local to each machine, do not commit", "", "*.db",
    "*.db-wal", "*.db-shm", "graph.json", "*.log"]

/-- Makes the directory of the data of a project. -/
def makeData (root : Path) : TreeChange Unit := do
  TreeChange.update fun t => t.makeDirectories (Layout.dataDirectory root)
  if (← get).contains (Layout.ignoreFile root) then return
  TreeChange.update fun t => t.write (Layout.ignoreFile root) (.ofText ignoreText)

/-- Sets a project up. -/
def runInit (t : FileTree) (root : Path) (includes excludes : List String) : Outcome :=
  if isSetUp t root then
    ⟨0, "", "Repolens already initialized in " ++ root.text ++ "\n", t⟩
  else
    match (makeData root).apply t with
    | (.error f, t) => failureOf t "Failed to create .repolens directory" f
    | (.ok (), t) =>
      let config := ((ProjectConfig.standard root).addIncludes includes).addExcludes excludes
      match (FileTree.saveConfig root config).apply t with
      | (.error f, t) => failureOf t "Failed to write config" f
      | (.ok (), t) =>
        match (FileTree.openTable root).apply t with
        | (.error f, t) => failureOf t "Failed to initialize database" f
        | (.ok _, t) => success t ["Initialized Repolens in " ++ root.text]

/-! ### Indexing -/

/-- Indexes a project. -/
def runIndex (s : Surroundings) (root : Path) (embeds quiet verbose : Bool) : Outcome :=
  let t := s.tree
  if !isSetUp t root then failure t (notSetUp root)
  else
    match t.loadConfig root with
    | .error f => failureOf t "Failed to load config" f
    | .ok config =>
      let embedder? := if embeds then some (s.embedder config.embedding) else none
      let pass := IndexPass.run t root config embedder? .standard
      match pass.result with
      | .error f => failureOf pass.tree "Indexing failed" f
      | .ok report =>
        success pass.tree (if quiet then [] else Report.indexLines report verbose s.elapsed)

/-- Sets a project up and indexes it. Nothing is indexed that was set up before. -/
def runInitIndex (s : Surroundings) (root : Path) (includes excludes : List String) : Outcome :=
  let first := runInit s.tree root includes excludes
  if isSetUp s.tree root || first.code ≠ 0 then first
  else
    let second := runIndex { s with tree := first.tree } root true false false
    { second with out := first.out ++ second.out, err := first.err ++ second.err }

/-! ### Status -/

/-- Tells of the state of the index of a project. -/
def runStatus (t : FileTree) (root : Path) : Outcome :=
  let head := ["Repolens Status", "", "Project: " ++ root.text]
  if !isSetUp t root then success t (head ++ ["Not initialized. Run `repolens init`."])
  else
    let graph := t.loadGraph root
    let size := t.byteSize (Layout.tableFile root)
    let head := head ++ ["Config:   " ++ (Layout.configFile root).text, Report.graphLine graph]
    match (FileTree.openTable root).apply t with
    | (.error f, t) => success t (head ++ ["Vectors:  unreadable (" ++ f.message ++ ")"])
    | (.ok table, t) =>
      let stale := match graph with
        | .ok (some g) => Report.staleLines table g
        | _ => []
      success t (head ++ Report.tableLines table size (t.loadConfig root).toOption ++ stale)

/-! ### Questions -/

/-- What a question is asked of: a retriever, how many chunks it looks for if the question does
not say, and what is to be told beforehand. -/
structure Prepared where
  retriever : Retriever
  topK : Nat
  notes : List Diagnostic

/-- Prepares a project for questions, or tells why it cannot be done. -/
def prepare (s : Surroundings) (root : Path) : Except String Prepared × FileTree :=
  let t := s.tree
  let fail (what : String) (f : DataFault) : String := what ++ ": " ++ f.message
  if !isSetUp t root then (.error (notSetUp root), t)
  else
    match t.loadConfig root with
    | .error f => (.error (fail "Failed to load config" f), t)
    | .ok config =>
      match t.loadGraph root with
      | .error f => (.error (fail "Failed to load graph" f), t)
      | .ok none => (.error "No index found. Run `repolens index` first.", t)
      | .ok (some graph) =>
        match (FileTree.openTable root).apply t with
        | (.error f, t) => (.error (fail "Failed to load vectors" f), t)
        | (.ok table, t) =>
          let (store, note?) := table.storeFor config.embedding.model
          (.ok ⟨⟨graph, store, s.embedder config.embedding⟩, config.topK, note?.toList⟩, t)

/-- What is found for a question. -/
def Prepared.answer (p : Prepared) (q : Question) : Retrieval :=
  let r := p.retriever.retrieve q.text q.issue (q.topK.getD p.topK)
  { r with diagnostics := p.notes ++ r.diagnostics }

/-- Answers a question; `tell` says what is printed for the answer. -/
def runQuestion (s : Surroundings) (root : Path) (q : Question)
    (tell : Retrieval → FileTree → Outcome) : Outcome :=
  match prepare s root with
  | (.error message, t) => failure t message
  | (.ok p, t) => tell (p.answer q) t

/-- Prints what was found. -/
def tellQuery (text : String) (json : Bool) (r : Retrieval) (t : FileTree) : Outcome :=
  if json then success t [(Report.document r).prettyText]
  else
    { success t (Report.resultLines text r) with
      err := Report.lines (r.diagnostics.map fun d => "note: " ++ d.message) }

/-- Prints what was found as a context for a reader. -/
def tellContext (q : Question) (format : ContextFormat) (r : Retrieval) (t : FileTree) :
    Outcome :=
  success t [Context.text format r q.text q.issue]

/-! ### Runs -/

/-- The tree with the log of a project, which every run opens if the project was set up. -/
def openLog (t : FileTree) (root : Path) : FileTree :=
  let log := Layout.logFile root
  if isSetUp t root && !t.contains log then (t.write log (.ofText "")).toOption.getD t else t

/-- Runs a command. -/
def run (s : Surroundings) (c : Command) : Outcome :=
  let root := c.root s.tree
  let s := { s with tree := openLog s.tree root }
  match c with
  | .init _ false includes excludes => runInit s.tree root includes excludes
  | .init _ true includes excludes => runInitIndex s root includes excludes
  | .index _ embeds quiet verbose => runIndex s root embeds quiet verbose
  | .status _ => runStatus s.tree root
  | .query q json => runQuestion s root q (tellQuery q.text json)
  | .context q format => runQuestion s root q (tellContext q format)

/-- What the program calls itself. -/
def versionText : String := "repolens 0.1.0\n"

/-- How the program is used. -/
def helpText : String :=
  Report.lines ["Usage: repolens <COMMAND>", "",
    "  init [-i] [--include PATTERN] [--exclude PATTERN] [PATH]",
    "  index [--no-embed] [-q] [-v] [PATH]", "  status [PATH]",
    "  query [-p PATH] [-k COUNT] [-j] [--issue-title TEXT] [--issue-body TEXT] SEARCH",
    "  context [-p PATH] [-k COUNT] [-f markdown|json] [--issue-title TEXT] " ++
      "[--issue-body TEXT] TASK"]

/-- Runs the command that arguments ask for. -/
def runArguments (s : Surroundings) (args : List String) : Outcome :=
  match Arguments.parse args with
  | .ok c => run s c
  | .error .help => ⟨0, helpText, "", s.tree⟩
  | .error .version => ⟨0, versionText, "", s.tree⟩
  | .error .misuse => ⟨2, "", helpText, s.tree⟩

/-! ### What is embedded -/

/-- What an index pass would embed, with the configuration of the embedder. -/
def indexPrompts (t : FileTree) (root : Path) : Option (EmbeddingConfig × List String) :=
  match t.loadConfig root with
  | .error _ => none
  | .ok config =>
    match IndexPass.find t root config .standard with
    | .error _ => none
    | .ok f => some (config.embedding, StoreBuild.prompts f.project.analyses)

/-- What a run embeds, with the configuration of the embedder. -/
def prompts (s : Surroundings) (c : Command) : Option (EmbeddingConfig × List String) :=
  let root := c.root s.tree
  let s := { s with tree := openLog s.tree root }
  match c with
  | .index _ true _ _ => if isSetUp s.tree root then indexPrompts s.tree root else none
  | .init _ true includes excludes =>
    if isSetUp s.tree root then none
    else indexPrompts (runInit s.tree root includes excludes).tree root
  | .query q _ | .context q _ =>
    match (prepare s root).1, s.tree.loadConfig root with
    | .ok p, .ok config =>
      some (config.embedding, (p.retriever.semanticPrompt q.text q.issue).toOption.toList)
    | _, _ => none
  | _ => none

end Command

end CodeAtlas
