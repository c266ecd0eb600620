import CodeAtlas.Analysis.Chunker
import CodeAtlas.Json.Basic
import CodeAtlas.Json.Decode
import CodeAtlas.Path.Basic
import CodeAtlas.Retrieval.Channels

/-!
# `CodeAtlas.Project.Config`: the configuration of a project

Which files belong to a project, how they are cut into chunks, and where their vectors come
from. The document of a configuration leaves out where the project lies: a loaded configuration
belongs to the root that it was loaded for.
-/

set_option autoImplicit false

namespace CodeAtlas

open Json (Decoder)

/-- The server that makes vectors, and how it is asked. -/
structure EmbeddingConfig where
  baseUrl : String
  model : String
  /-- How long an answer may take, in seconds. -/
  timeout : Nat
  /-- How many texts may be under way at once. -/
  concurrency : Nat
deriving DecidableEq, Repr

/-- The configuration of a project. -/
structure ProjectConfig where
  version : Int
  root : String
  /-- The patterns of the files that are wanted. -/
  includePatterns : List String
  /-- The patterns of the files and directories that are left out. -/
  excludePatterns : List String
  /-- Larger files are not analyzed. -/
  maxFileSize : Nat
  chunkSize : Nat
  topK : Nat
  embedding : EmbeddingConfig
deriving DecidableEq, Repr

namespace EmbeddingConfig

/-- A server on the same machine with a small model. -/
def standard : EmbeddingConfig := ⟨"http://localhost:11434", "nomic-embed-text", 30, 4⟩

def toJson (c : EmbeddingConfig) : Json :=
  .record [("base_url", .ofString c.baseUrl), ("model", .ofString c.model),
    ("timeout_secs", .ofNat c.timeout), ("concurrency", .ofNat c.concurrency)]

/-- Reads the settings; what is not given is as in `standard`. -/
def decode : Decoder EmbeddingConfig :=
  Decoder.record ["base_url", "model", "timeout_secs", "concurrency"] fun fs =>
    EmbeddingConfig.mk <$> fs.defaulted "base_url" Decoder.string standard.baseUrl
      <*> fs.defaulted "model" Decoder.string standard.model
      <*> fs.defaulted "timeout_secs" Decoder.nat64 standard.timeout
      <*> fs.defaulted "concurrency" Decoder.nat64 standard.concurrency

end EmbeddingConfig

namespace ProjectConfig

/-! ### Patterns -/

/-- Every file is wanted: one without a grammar is a single chunk. -/
def standardIncludes : List String := ["**/*"]

/-- What tools leave in a project, and what is generated. -/
def standardExcludes : List String :=
  ["**/.git/**", "**/node_modules/**", "**/dist/**", "**/build/**", "**/coverage/**",
    "**/.next/**", "**/.nuxt/**", "**/.vscode/**", "**/.idea/**", "**/.repolens/**",
    "**/target/**", "**/__pycache__/**", "**/.venv/**", "**/*.min.js", "**/package-lock.json",
    "**/yarn.lock", "**/pnpm-lock.yaml", "**/Cargo.lock", "**/.DS_Store", "**/Thumbs.db",
    "**/.gitkeep"]

/-- The configuration of a project that has none of its own. -/
def standard (root : Path) : ProjectConfig where
  version := 1
  root := root.text
  includePatterns := standardIncludes
  excludePatterns := standardExcludes
  maxFileSize := 1024 * 1024
  chunkSize := Chunker.defaultSize
  topK := Retriever.defaultTopK
  embedding := .standard

/-- A pattern behind the others, unless it is among them. -/
def addPattern (patterns : List String) (p : String) : List String :=
  if patterns.contains p then patterns else patterns ++ [p]

/-- Adds patterns one after the other. -/
def addPatterns (patterns added : List String) : List String :=
  added.foldl addPattern patterns

/-- Adds patterns for the files that are wanted, keeping those that are there first. -/
def addIncludes (c : ProjectConfig) (patterns : List String) : ProjectConfig :=
  { c with includePatterns := addPatterns c.includePatterns patterns }

/-- The same for the files that are left out. -/
def addExcludes (c : ProjectConfig) (patterns : List String) : ProjectConfig :=
  { c with excludePatterns := addPatterns c.excludePatterns patterns }

/-! ### The document -/

def toJson (c : ProjectConfig) : Json :=
  .record [("version", .ofInt c.version), ("root_dir", .ofString c.root),
    ("include", .ofList .ofString c.includePatterns),
    ("exclude", .ofList .ofString c.excludePatterns),
    ("max_file_size", .ofNat c.maxFileSize), ("chunk_size", .ofNat c.chunkSize),
    ("top_k", .ofNat c.topK), ("embedding", c.embedding.toJson)]

def decode : Decoder ProjectConfig :=
  Decoder.record ["version", "root_dir", "include", "exclude", "max_file_size", "chunk_size",
      "top_k", "embedding"] fun fs =>
    ProjectConfig.mk <$> fs.required "version" Decoder.int64
      <*> fs.required "root_dir" Decoder.string
      <*> fs.required "include" (Decoder.list Decoder.string)
      <*> fs.required "exclude" (Decoder.list Decoder.string)
      <*> fs.required "max_file_size" Decoder.nat64
      <*> fs.required "chunk_size" Decoder.nat64
      <*> fs.required "top_k" Decoder.nat64
      <*> fs.defaulted "embedding" EmbeddingConfig.decode .standard

/-- The text of the document of a configuration, which says nothing of the root. -/
def write (c : ProjectConfig) : String :=
  ({ c with root := "." }).toJson.prettyText

/-- Reads the document of the configuration of a project. -/
def read (root : Path) (text : String) : Except Json.Fault ProjectConfig :=
  (Decoder.ofText decode text.toList).map fun c => { c with root := root.text }

end ProjectConfig

end CodeAtlas
