import CodeAtlas.Analysis.Chunker
import CodeAtlas.Diagnostic
import CodeAtlas.Digest.Sha256
import CodeAtlas.Language.Toolkit

/-!
# `CodeAtlas.Analysis.Analyzer`: the analysis of one file

A file whose extension tells a language is read with the language's toolkit: the ranges of
its top-level nodes give the chunks, and the three queries give its symbols, calls and
imports. Any other file is one chunk, and so is one whose text has no tree.
-/

set_option autoImplicit false

namespace CodeAtlas

/-- The record of a file and the problems that were met. -/
structure AnalysisOutcome where
  analysis : FileAnalysis
  diagnostics : List Diagnostic

namespace Analyzer

/-- For each character of a text the byte offset where it starts, and behind them the size of
the text. -/
def byteOffsets (cs : Array Char) : Array Nat :=
  cs.foldl (fun offsets c => offsets.push (offsets.getD (offsets.size - 1) 0 + c.utf8Size)) #[0]

/-- The text between two positions. -/
def textBetween (cs : Array Char) (start stop : Nat) : String :=
  String.ofList (cs.extract start stop).toList

/-- The line of a position, counted from 1. -/
def lineOf (cs : Array Char) (position : Nat) : Nat :=
  (cs.extract 0 position).foldl (fun n c => if c = '\n' then n + 1 else n) 1

/-- The texts and lines of the nodes that a search keeps under a name. -/
def captures (search : TreeSearch) (name : String) (cs : Array Char) (root : Syntax.Node) :
    List (String × Nat) :=
  (search (fun n => textBetween cs n.start n.stop) root).flatMap fun kept =>
    (kept.filter fun k => k.1 == name).map fun (_, n) =>
      (textBetween cs n.start n.stop, lineOf cs n.start)

/-- The outcome of a query: what it keeps, or the problem of a query that does not fit. -/
def ask (query : Except String TreeSearch) (what name : String) (file : SourceFile)
    (cs : Array Char) (root : Syntax.Node) : List (String × Nat) × List Diagnostic :=
  match query with
  | .ok search => (captures search name cs root, [])
  | .error cause => ([], [⟨.parseFailure, file.id, what ++ " query failed: " ++ cause⟩])

/-- Whether a character quotes a specifier. -/
def isQuote (c : Char) : Bool :=
  c = '"' || c = '\x27' || c = Char.ofNat 96

/-- The specifier that an import's text spells: without blanks and then quotes around it. -/
def specifierOf (literal : List Char) : List Char :=
  (((Text.trim literal).dropWhile isQuote).reverse.dropWhile isQuote).reverse

/-- The directory that a file's imports start from. -/
def importBase (path : Path) : Path :=
  path.parent?.getD ⟨""⟩

/-- The import that a text spells, unless it is empty. -/
def importOf? (style : SpecifierStyle) (file : SourceFile) (literal : String) :
    Option RawImport :=
  let specifier := specifierOf literal.toList
  if specifier = [] then none
  else
    let modulePath := String.ofList (style.normalizeChars specifier)
    some ⟨String.ofList specifier, modulePath, file.id,
      ((importBase file.path).join ⟨modulePath⟩).resolve⟩

/-- The record of a file whose text is one chunk. -/
def plainAnalysis (file : SourceFile) : FileAnalysis where
  path := file.path
  id := file.id
  language := file.language
  chunks := (Chunker.whole? file.id file.text).toList
  symbols := []
  calls := []
  imports := []
  lineCount := file.lineCount
  contentHash := Digest.Sha256.hex (Text.bytes file.text.toList)
  text := file.text

/-- The analysis of a file whose text has a tree; chunks have at most the given number of bytes. -/
def analyzeTree (chunkSize : Nat) (file : SourceFile) (kit : Toolkit) (root : Syntax.Node) :
    AnalysisOutcome :=
  let chars := file.text.toList
  let cs := chars.toArray
  let offsets := byteOffsets cs
  let spans := root.children.map fun n => ⟨offsets.getD n.start 0, offsets.getD n.stop 0⟩
  let (symbols, symbolProblems) := ask kit.symbols "symbol" "name" file cs root
  let (calls, callProblems) := ask kit.calls "call" "name" file cs root
  let (imports, importProblems) := ask kit.imports "import" "path" file cs root
  { analysis :=
      { path := file.path
        id := file.id
        language := kit.language.name
        chunks := Chunker.chunk chunkSize file.id chars spans
        symbols := symbols.map fun (name, line) => ⟨name, file.id, line⟩
        calls := calls.map fun (name, line) => ⟨name, line, file.id⟩
        imports := imports.filterMap fun (literal, _) =>
          importOf? kit.language.specifierStyle file literal
        lineCount := file.lineCount
        contentHash := Digest.Sha256.hex (Text.bytes chars)
        text := file.text }
    diagnostics := symbolProblems ++ callProblems ++ importProblems }

/-- The analysis of a file with a toolkit. A text without a tree is one chunk, but keeps the
language of the toolkit. -/
def analyzeWith (chunkSize : Nat) (file : SourceFile) (kit : Toolkit) : AnalysisOutcome :=
  match kit.parse file.text with
  | .ok root => analyzeTree chunkSize file kit root
  | .error fault =>
    { analysis := { plainAnalysis file with language := kit.language.name }
      diagnostics := [⟨.parseFailure, file.id, fault.message⟩] }

/-- The analysis of the file at a path of a project, with the toolkit of its language. -/
def analyze (chunkSize : Nat) (root path : Path) (text : String)
    (kits : Language → Toolkit := Language.toolkit) : AnalysisOutcome :=
  let file := SourceFile.ofPath root path text
  match Language.ofPath? path with
  | some language => analyzeWith chunkSize file (kits language)
  | none => ⟨plainAnalysis file, []⟩

end Analyzer

end CodeAtlas
