import CodeAtlas.Grammar.C.Rules
import CodeAtlas.Grammar.Go
import CodeAtlas.Grammar.Java
import CodeAtlas.Grammar.JavaScript
import CodeAtlas.Grammar.Python.Rules
import CodeAtlas.Grammar.Rust
import CodeAtlas.Language.Queries
import CodeAtlas.Syntax.Parse
import CodeAtlas.Syntax.Query

/-!
# `CodeAtlas.Language.Toolkit`: what a language is analyzed with

A toolkit holds what reads the texts of a language and what searches their trees. A text need not
have a tree. A query that does not fit the grammar is kept as the reason why, so that only this
query is lost.

Of a grammar the analysis relies on nothing but this interface. `Language.toolkit` fills it with the
grammars and queries of this library.
-/

set_option autoImplicit false

namespace CodeAtlas

/-- Why a text has no tree. -/
inductive ParseFault where
  /-- The parser does not take the grammar. -/
  | rejected (cause : String)
  /-- The parser gives up on the text. -/
  | noTree
deriving DecidableEq, Repr

/-- The wording of a fault. -/
def ParseFault.message : ParseFault → String
  | .rejected cause => "grammar rejected: " ++ cause
  | .noTree => "parser produced no tree"

/-- A search of a tree: for each match, in the order in which they are told, the nodes that it
keeps, with the names under which they are kept. The function gives the text of a node. -/
abbrev TreeSearch := (Syntax.Node → String) → Syntax.Node → List (List (String × Syntax.Node))

/-- A grammar: what gives trees to texts. -/
structure Grammar where
  /-- The tree of a text; positions count characters. -/
  parse : String → Syntax.Node
  /-- The kinds of nodes in its trees. -/
  kinds : List String

/-- The kinds of nodes that a grammar's rules make. -/
def Grammar.kindsOf {σ ν : Type} (rules : List (ν × Syntax.Rule σ ν)) (root : Syntax.Rule σ ν) :
    List String :=
  root.kinds ++ rules.flatMap fun (_, r) => r.kinds

/-- The grammar with given rules, root and space between lexemes. -/
def Grammar.ofRules {ν : Type} [BEq ν] [Hashable ν] (rules : List (ν × Syntax.Rule Syntax.Source ν))
    (root : Syntax.Rule Syntax.Source ν) (space : Syntax.Space) : Grammar where
  parse := Syntax.parseText rules root space
  kinds := Grammar.kindsOf rules root

/-- The search that a query text asks for, if the text fits a grammar whose kinds of nodes are the
known ones. -/
def TreeSearch.ofText (known : String → Bool) (text : String) : Except String TreeSearch :=
  match Syntax.Query.ofText known text with
  | .ok q => .ok fun textOf root => (q.run textOf root).map Syntax.Found.kept
  | .error e => .error e.message

/-- What a language is analyzed with. -/
structure Toolkit where
  language : Language
  /-- The tree of a text, or why it has none; positions count characters. -/
  parse : String → Except ParseFault Syntax.Node
  /-- The search for declared names, or why its query was refused. -/
  symbols : Except String TreeSearch
  /-- The search for imports, or why its query was refused. -/
  imports : Except String TreeSearch
  /-- The search for called names, or why its query was refused. -/
  calls : Except String TreeSearch

namespace Language

/-- The grammar of a language. -/
def grammar : Language → Grammar
  | .javaScript | .jsx =>
    .ofRules (Grammar.JavaScript.rules ⟨false, true⟩) Grammar.JavaScript.program
      Grammar.JavaScript.space
  | .typeScript =>
    .ofRules (Grammar.JavaScript.rules ⟨true, false⟩) Grammar.JavaScript.program
      Grammar.JavaScript.space
  | .tsx =>
    .ofRules (Grammar.JavaScript.rules ⟨true, true⟩) Grammar.JavaScript.program
      Grammar.JavaScript.space
  | .python => ⟨Grammar.Python.parse, Grammar.kindsOf Grammar.Python.rules Grammar.Python.module⟩
  | .rust => .ofRules Grammar.Rust.rules Grammar.Rust.sourceFile Grammar.Rust.space
  | .go => .ofRules Grammar.Go.rules Grammar.Go.sourceFile Grammar.Go.space
  | .java => .ofRules Grammar.Java.rules Grammar.Java.program Grammar.Java.space
  | .c => .ofRules (Grammar.C.rules ⟨false⟩) Grammar.C.translationUnit Grammar.C.space
  | .cpp => .ofRules (Grammar.C.rules ⟨true⟩) Grammar.C.translationUnit Grammar.C.space

/-- The toolkit of a language with given query texts. Every text has a tree. -/
def toolkitWith (l : Language) (texts : QueryTexts) : Toolkit :=
  let grammar := l.grammar
  let search := TreeSearch.ofText grammar.kinds.contains
  ⟨l, fun text => .ok (grammar.parse text), search texts.symbols, search texts.imports,
    search texts.calls⟩

/-- The toolkit of a language. -/
def toolkit (l : Language) : Toolkit :=
  l.toolkitWith l.queryTexts

end Language

end CodeAtlas
