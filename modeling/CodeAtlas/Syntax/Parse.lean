import CodeAtlas.Syntax.Source

/-!
# `CodeAtlas.Syntax.Parse`: from a text to its tree

A grammar's rules are put into a table and matched from the start of the text. Every
grammar reads as much of the text as its rules fit, so each text has a tree; a text of the
language is covered by it whole.
-/

set_option autoImplicit false

namespace CodeAtlas.Syntax

variable {σ ν : Type} [BEq ν] [Hashable ν]

/-- The table of a list of rules. A part without a rule matches nothing. -/
def ruleTable (rules : List (ν × Rule σ ν)) : ν → Rule σ ν :=
  let table : Std.HashMap ν (Rule σ ν) := Std.HashMap.ofList rules
  fun name => table.getD name (.choice [])

/-- The node of a whole source of the given length. The depth of the search is bounded by the
product of the length and a number that exceeds the longest chain of rules that match without
taking a character. -/
def parseSource (rules : List (ν × Rule σ ν)) (root : Rule σ ν) (source : σ) (length : Nat) :
    Node :=
  let table := ruleTable rules
  match (Rule.matchAt table source (4096 * (length + 1)) root 0 ∅).1 with
  | some parsed => parsed.nodes.toList.headD ⟨"", none, 0, 0, []⟩
  | none => ⟨"", none, 0, 0, []⟩

/-- The tree of a text whose lexemes are separated by the given space. -/
def parseText (rules : List (ν × Rule Source ν)) (root : Rule Source ν) (space : Space)
    (text : String) : Node :=
  let chars := text.toList.toArray
  parseSource rules root (Source.ofChars space chars) chars.size

end CodeAtlas.Syntax
