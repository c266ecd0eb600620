import CodeAtlas.Syntax.Node
import Std.Data.HashMap

/-!
# `CodeAtlas.Syntax.Rule`: grammar rules and how they are matched

A grammar is a table of rules. A rule says what may stand at a position of the source: a
lexeme, several rules one after the other, the first of several alternatives that fits, as
many repetitions as fit. Choice is ordered and repetition is greedy, so a rule has at most
one match at a position, and the matches of the named parts are remembered by part and
position.

A match yields nodes. `Rule.node` wraps the nodes of its rule into one node of a given kind,
whose range runs from the first to the last character of its lexemes, without the blanks
and comments around them. `Rule.fold` builds left-nested nodes: after its head it takes one
link after the other, and each link makes a node of what came before and of its own parts.
-/

set_option autoImplicit false

namespace CodeAtlas.Syntax

/-- A lexeme found in the source. -/
structure Lexeme where
  /-- The position where matching goes on. -/
  next : Nat
  /-- The first position of the lexeme's text and the position behind it; a mere test of the
  position has no text. -/
  range : Option (Nat × Nat)
deriving Repr

/-- A grammar rule over sources of type `σ`, with parts named by `ν`. -/
inductive Rule (σ ν : Type) where
  /-- One lexeme. -/
  | lexeme (scan : σ → Nat → Option Lexeme)
  /-- All of the rules, one after the other. -/
  | sequence (rules : List (Rule σ ν))
  /-- The first of the rules that fits. -/
  | choice (rules : List (Rule σ ν))
  /-- The rule as often as it fits and moves forward. -/
  | many (rule : Rule σ ν)
  /-- Whether the rule fits here; nothing is taken. -/
  | ahead (rule : Rule σ ν)
  /-- Whether the rule does not fit here; nothing is taken. -/
  | absent (rule : Rule σ ν)
  /-- The rule that the grammar's table gives for a part. -/
  | part (name : ν)
  /-- The rule, its nodes wrapped into one of the given kind. -/
  | node (kind : String) (rule : Rule σ ν)
  /-- The rule, its nodes playing the given role. -/
  | role (name : String) (rule : Rule σ ν)
  /-- The head, then as many of the links as fit. -/
  | fold (head : Rule σ ν) (links : List (Rule σ ν))
  /-- A link of a fold: the kind of the node that it makes, the role of what came before it
  in that node, and a rule for the rest. -/
  | link (kind place : String) (rule : Rule σ ν)

/-- What a rule matched: where matching goes on, the nodes, and the range of the lexemes if
any lexeme has one. -/
structure Parsed where
  next : Nat
  nodes : Array Node
  range : Option (Nat × Nat)

namespace Parsed

/-- The empty match at a position. -/
def empty (pos : Nat) : Parsed :=
  ⟨pos, #[], none⟩

/-- The smallest range that covers two ranges, of which the first lies before the second. -/
def hull : Option (Nat × Nat) → Option (Nat × Nat) → Option (Nat × Nat)
  | none, b => b
  | a, none => a
  | some (start, _), some (_, stop) => some (start, stop)

/-- One match followed by another. -/
def append (a b : Parsed) : Parsed :=
  ⟨b.next, a.nodes ++ b.nodes, hull a.range b.range⟩

/-- The match of one lexeme. -/
def ofLexeme (l : Lexeme) : Parsed :=
  ⟨l.next, #[], l.range⟩

/-- The match as a single node. -/
def wrap (kind : String) (p : Parsed) : Parsed :=
  let range := p.range.getD (p.next, p.next)
  { p with nodes := #[⟨kind, none, range.1, range.2, p.nodes.toList⟩] }

/-- The match with its nodes in a given role. -/
def withRole (name : String) (p : Parsed) : Parsed :=
  { p with nodes := p.nodes.map (Node.withRole name) }

end Parsed

/-- The matches found so far, by part and position. -/
abbrev Memo (ν : Type) [BEq ν] [Hashable ν] := Std.HashMap (ν × Nat) (Option Parsed)

section Match

variable {σ ν : Type} [BEq ν] [Hashable ν]

mutual

/-- The match of a rule at a position. The first argument bounds the depth of the search. -/
def Rule.matchAt (table : ν → Rule σ ν) (source : σ) :
    Nat → Rule σ ν → Nat → Memo ν → Option Parsed × Memo ν
  | 0, _, _, memo => (none, memo)
  | depth + 1, rule, pos, memo =>
    match rule with
    | .lexeme scan => ((scan source pos).map Parsed.ofLexeme, memo)
    | .sequence rules => Rule.matchAll table source depth rules (Parsed.empty pos) memo
    | .choice rules => Rule.matchFirst table source depth rules pos memo
    | .many r => Rule.matchMany table source depth r (Parsed.empty pos) memo
    | .ahead r =>
      match Rule.matchAt table source depth r pos memo with
      | (some _, memo) => (some (Parsed.empty pos), memo)
      | (none, memo) => (none, memo)
    | .absent r =>
      match Rule.matchAt table source depth r pos memo with
      | (some _, memo) => (none, memo)
      | (none, memo) => (some (Parsed.empty pos), memo)
    | .part name =>
      match memo[(name, pos)]? with
      | some found => (found, memo)
      | none =>
        match Rule.matchAt table source depth (table name) pos memo with
        | (found, memo) => (found, memo.insert (name, pos) found)
    | .node kind r =>
      match Rule.matchAt table source depth r pos memo with
      | (found, memo) => (found.map (Parsed.wrap kind), memo)
    | .role name r =>
      match Rule.matchAt table source depth r pos memo with
      | (found, memo) => (found.map (Parsed.withRole name), memo)
    | .fold head links =>
      match Rule.matchAt table source depth head pos memo with
      | (some first, memo) => Rule.matchLinks table source depth links first memo
      | (none, memo) => (none, memo)
    | .link _ _ r => Rule.matchAt table source depth r pos memo

/-- All rules of a list, one after the other, behind what was matched before. -/
def Rule.matchAll (table : ν → Rule σ ν) (source : σ) :
    Nat → List (Rule σ ν) → Parsed → Memo ν → Option Parsed × Memo ν
  | 0, _, _, memo => (none, memo)
  | _ + 1, [], before, memo => (some before, memo)
  | depth + 1, r :: rs, before, memo =>
    match Rule.matchAt table source depth r before.next memo with
    | (some found, memo) => Rule.matchAll table source depth rs (before.append found) memo
    | (none, memo) => (none, memo)

/-- The first rule of a list that fits. -/
def Rule.matchFirst (table : ν → Rule σ ν) (source : σ) :
    Nat → List (Rule σ ν) → Nat → Memo ν → Option Parsed × Memo ν
  | 0, _, _, memo => (none, memo)
  | _ + 1, [], _, memo => (none, memo)
  | depth + 1, r :: rs, pos, memo =>
    match Rule.matchAt table source depth r pos memo with
    | (some found, memo) => (some found, memo)
    | (none, memo) => Rule.matchFirst table source depth rs pos memo

/-- A rule as often as it fits, behind what was matched before. -/
def Rule.matchMany (table : ν → Rule σ ν) (source : σ) :
    Nat → Rule σ ν → Parsed → Memo ν → Option Parsed × Memo ν
  | 0, _, before, memo => (some before, memo)
  | depth + 1, r, before, memo =>
    match Rule.matchAt table source depth r before.next memo with
    | (some found, memo) =>
      if before.next < found.next then
        Rule.matchMany table source depth r (before.append found) memo
      else (some before, memo)
    | (none, memo) => (some before, memo)

/-- As many links as fit, behind what was matched before. -/
def Rule.matchLinks (table : ν → Rule σ ν) (source : σ) :
    Nat → List (Rule σ ν) → Parsed → Memo ν → Option Parsed × Memo ν
  | 0, _, before, memo => (some before, memo)
  | depth + 1, links, before, memo =>
    match Rule.matchLink table source depth links before memo with
    | (some found, memo) =>
      if before.next < found.next then Rule.matchLinks table source depth links found memo
      else (some before, memo)
    | (none, memo) => (some before, memo)

/-- The first link of a list that fits, made into a node with what was matched before. -/
def Rule.matchLink (table : ν → Rule σ ν) (source : σ) :
    Nat → List (Rule σ ν) → Parsed → Memo ν → Option Parsed × Memo ν
  | 0, _, _, memo => (none, memo)
  | _ + 1, [], _, memo => (none, memo)
  | depth + 1, .link kind place r :: links, before, memo =>
    match Rule.matchAt table source depth r before.next memo with
    | (some found, memo) =>
      (some (((before.withRole place).append found).wrap kind), memo)
    | (none, memo) => Rule.matchLink table source depth links before memo
  | depth + 1, _ :: links, before, memo => Rule.matchLink table source depth links before memo

end

end Match

namespace Rule

variable {σ ν : Type}

mutual

/-- The kinds of nodes that a rule makes itself, without those of the parts it names. -/
def kinds : Rule σ ν → List String
  | .lexeme _ | .part _ => []
  | .sequence rules | .choice rules => kindsOfAll rules
  | .many r | .ahead r | .absent r | .role _ r => r.kinds
  | .node kind r => kind :: r.kinds
  | .fold head links => head.kinds ++ kindsOfAll links
  | .link kind _ r => kind :: r.kinds

/-- The kinds of nodes that several rules make themselves. -/
def kindsOfAll : List (Rule σ ν) → List String
  | [] => []
  | r :: rs => r.kinds ++ kindsOfAll rs

end

/-- The rule or nothing. -/
def optional (r : Rule σ ν) : Rule σ ν :=
  .choice [r, .sequence []]

/-- The rule at least once, as often as it fits. -/
def some (r : Rule σ ν) : Rule σ ν :=
  .sequence [r, .many r]

/-- The rule at least once, with a separator between two of them. -/
def sepBy (sep r : Rule σ ν) : Rule σ ν :=
  .sequence [r, .many (.sequence [sep, r])]

/-- As `sepBy`, where also nothing and a separator at the end are allowed. -/
def listOf (sep r : Rule σ ν) : Rule σ ν :=
  optional (.sequence [sepBy sep r, optional sep])

end Rule

end CodeAtlas.Syntax
