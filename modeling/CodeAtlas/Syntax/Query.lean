import CodeAtlas.Syntax.Node

/-!
# `CodeAtlas.Syntax.Query`: structural queries

A query is a list of tree patterns in a small notation:

* `(kind …)` is a node of that kind, and the patterns in it are children of the node, in
  order but not necessarily next to each other;
* `role: pattern` is a child that plays the role, and `!role` says that no child does;
* `[a b]` is a node that fits one of the patterns;
* `pattern @name` keeps the node under the name;
* `(#eq? @name "text")` asks that the node kept under the name has that text.

A match is found when the last node of its pattern has been reached in the order of the
source, and this is the order in which the matches of all patterns are listed.
-/

set_option autoImplicit false

namespace CodeAtlas.Syntax

/-! ### Patterns -/

/-- A tree pattern. -/
inductive Pattern where
  /-- A node of a kind with children that fit, without children in some roles. -/
  | node (kind : String) (children : List Pattern) (lacking : List String)
  /-- A node that fits one of several patterns. -/
  | oneOf (alternatives : List Pattern)
  /-- A node in a role. -/
  | inRole (name : String) (pattern : Pattern)
  /-- A node that is kept under a name. -/
  | keep (name : String) (pattern : Pattern)

/-- A pattern with the texts that some kept nodes must have. -/
structure GuardedPattern where
  pattern : Pattern
  /-- Names of kept nodes, each with its text. -/
  texts : List (String × String)

/-- A query is a list of patterns. -/
abbrev Query := List GuardedPattern

/-- Why a query text is refused. -/
inductive QueryError where
  /-- A kind of node that the grammar does not have, at a line and column counted from 1. -/
  | unknownKind (line column : Nat) (kind : String)
  /-- A text that is not in the notation, at a line and column counted from 1. -/
  | malformed (line column : Nat)
deriving DecidableEq, Repr

/-- The wording of a refusal. -/
def QueryError.message : QueryError → String
  | .unknownKind line column kind =>
    s!"Query error at {line}:{column}. Invalid node type \"" ++ kind ++ "\""
  | .malformed line column => s!"Query error at {line}:{column}. Invalid syntax"

/-! ### Reading queries -/

namespace Query

/-- A lexeme of the notation. -/
inductive Token where
  | mark (c : Char)
  | name (text : String)
  | keep (text : String)
  | predicate (text : String)
  | text (text : String)

/-- A lexeme with its line and column, counted from 1. -/
structure Placed where
  token : Token
  line : Nat
  column : Nat

/-- Characters of names. -/
def isNameChar (c : Char) : Bool :=
  c.isAlphanum || c == '_' || c == '?' || c == '.' || c == '-'

/-- The lexemes of a text. The first argument bounds their number. -/
def tokens : Nat → Nat → Nat → List Char → List Placed
  | 0, _, _, _ => []
  | _ + 1, _, _, [] => []
  | bound + 1, line, column, c :: rest =>
    let named (make : String → Token) (cs : List Char) (skipped : Nat) : List Placed :=
      let word := cs.takeWhile isNameChar
      ⟨make (String.ofList word), line, column⟩ ::
        tokens bound line (column + skipped + word.length) (cs.drop word.length)
    if c == '\n' then tokens bound (line + 1) 1 rest
    else if c.isWhitespace then tokens bound line (column + 1) rest
    else if c == '@' then named .keep rest 1
    else if c == '#' then named .predicate rest 1
    else if c == '"' then
      let body := rest.takeWhile (· != '"')
      ⟨.text (String.ofList body), line, column⟩ ::
        tokens bound line (column + body.length + 2) (rest.drop (body.length + 1))
    else if isNameChar c then named .name (c :: rest) 0
    else ⟨.mark c, line, column⟩ :: tokens bound line (column + 1) rest

/-- What has been read of the inside of a node pattern. -/
structure Inside where
  children : List Pattern
  lacking : List String
  texts : List (String × String)

/-- The refusal at the first of the remaining lexemes. -/
def malformed : List Placed → QueryError
  | [] => .malformed 1 1
  | t :: _ => .malformed t.line t.column

mutual

/-- One pattern from the front of the lexemes, with the texts that it asks for. -/
def readPattern (known : String → Bool) : Nat → List Placed →
    Except QueryError (GuardedPattern × List Placed)
  | 0, ts => .error (malformed ts)
  | bound + 1, ⟨.mark '(', _, _⟩ :: ⟨.name kind, line, column⟩ :: ts =>
    if known kind then do
      let (inside, rest) ← readInside known bound ⟨[], [], []⟩ ts
      let pattern := Pattern.node kind inside.children.reverse inside.lacking.reverse
      .ok (readKeeps bound ⟨pattern, inside.texts.reverse⟩ rest)
    else .error (.unknownKind line column kind)
  | bound + 1, ⟨.mark '[', _, _⟩ :: ts => do
    let (alternatives, rest) ← readAlternatives known bound [] ts
    .ok (readKeeps bound ⟨.oneOf alternatives.reverse, []⟩ rest)
  | _ + 1, ts => .error (malformed ts)

/-- The names under which a pattern is kept. -/
def readKeeps : Nat → GuardedPattern → List Placed → GuardedPattern × List Placed
  | bound + 1, g, ⟨.keep name, _, _⟩ :: ts =>
    readKeeps bound { g with pattern := .keep name g.pattern } ts
  | _, g, ts => (g, ts)

/-- The inside of a node pattern up to its closing parenthesis. -/
def readInside (known : String → Bool) : Nat → Inside → List Placed →
    Except QueryError (Inside × List Placed)
  | 0, _, ts => .error (malformed ts)
  | _ + 1, inside, ⟨.mark ')', _, _⟩ :: ts => .ok (inside, ts)
  | bound + 1, inside, ⟨.mark '!', _, _⟩ :: ⟨.name role, _, _⟩ :: ts =>
    readInside known bound { inside with lacking := role :: inside.lacking } ts
  | bound + 1, inside, ⟨.mark '(', _, _⟩ :: ⟨.predicate "eq?", _, _⟩ :: ⟨.keep name, _, _⟩ ::
      ⟨.text text, _, _⟩ :: ⟨.mark ')', _, _⟩ :: ts =>
    readInside known bound { inside with texts := (name, text) :: inside.texts } ts
  | bound + 1, inside, ⟨.name role, _, _⟩ :: ⟨.mark ':', _, _⟩ :: ts => do
    let (g, rest) ← readPattern known bound ts
    readInside known bound
      { inside with
        children := .inRole role g.pattern :: inside.children
        texts := g.texts.reverse ++ inside.texts } rest
  | bound + 1, inside, ts => do
    let (g, rest) ← readPattern known bound ts
    readInside known bound
      { inside with
        children := g.pattern :: inside.children
        texts := g.texts.reverse ++ inside.texts } rest

/-- Alternatives up to their closing bracket, the last one first. -/
def readAlternatives (known : String → Bool) : Nat → List Pattern → List Placed →
    Except QueryError (List Pattern × List Placed)
  | 0, _, ts => .error (malformed ts)
  | _ + 1, seen, ⟨.mark ']', _, _⟩ :: ts => .ok (seen, ts)
  | bound + 1, seen, ts => do
    let (g, rest) ← readPattern known bound ts
    readAlternatives known bound (g.pattern :: seen) rest

end

/-- All patterns of the remaining lexemes. -/
def readAll (known : String → Bool) : Nat → List Placed → Except QueryError Query
  | _, [] => .ok []
  | 0, ts => .error (malformed ts)
  | bound + 1, ts => do
    let (g, rest) ← readPattern known (ts.length + 1) ts
    return g :: (← readAll known bound rest)

/-- Reads a query text for a grammar whose kinds of nodes are the known ones. -/
def ofText (known : String → Bool) (text : String) : Except QueryError Query :=
  let ts := tokens (text.length + 1) 1 1 text.toList
  readAll known (ts.length + 1) ts

end Query

/-! ### Matching -/

/-- A match: the kept nodes, in the order of the pattern, and the start and depth of the node
that completes it. -/
structure Found where
  kept : List (String × Node)
  last : Nat × Nat

/-- One match followed by another in the same pattern. -/
def Found.append (a b : Found) : Found :=
  ⟨a.kept ++ b.kept, b.last⟩

/-- A list together with each of its tails, as head and rest. -/
def splits {α : Type} : List α → List (α × List α)
  | [] => []
  | a :: rest => (a, rest) :: splits rest

mutual

/-- The matches of a pattern with a node at a depth. -/
def Pattern.matches : Pattern → Nat → Node → List Found
  | .node kind children lacking, depth, n =>
    if n.kind != kind || lacking.any fun role => n.children.any fun c => c.role == some role then []
    else
      (Pattern.matchesIn children (depth + 1) n.children).map fun inside =>
        match inside with
        | some f => f
        | none => ⟨[], (n.start, depth)⟩
  | .oneOf alternatives, depth, n => Pattern.matchesAny alternatives depth n
  | .inRole name pattern, depth, n =>
    if n.role == some name then pattern.matches depth n else []
  | .keep name pattern, depth, n =>
    (pattern.matches depth n).map fun f => { f with kept := (name, n) :: f.kept }

/-- The matches of one of several patterns with a node. -/
def Pattern.matchesAny : List Pattern → Nat → Node → List Found
  | [], _, _ => []
  | p :: ps, depth, n => p.matches depth n ++ Pattern.matchesAny ps depth n

/-- The matches of patterns, in order, with some of the nodes of a list, in order; without
patterns there is one match with nothing in it. -/
def Pattern.matchesIn : List Pattern → Nat → List Node → List (Option Found)
  | [], _, _ => [none]
  | p :: ps, depth, ns =>
    (splits ns).flatMap fun (n, rest) =>
      (p.matches depth n).flatMap fun f =>
        (Pattern.matchesIn ps depth rest).map fun more =>
          match more with
          | some g => some (f.append g)
          | none => some f

end

mutual

/-- A node and its descendants in the order of the source, with their depths. -/
def Node.walk (depth : Nat) : Node → List (Nat × Node)
  | ⟨kind, role, start, stop, children⟩ =>
    (depth, ⟨kind, role, start, stop, children⟩) :: Node.walkAll (depth + 1) children

/-- Several nodes and their descendants in the order of the source, with their depths. -/
def Node.walkAll (depth : Nat) : List Node → List (Nat × Node)
  | [] => []
  | n :: ns => n.walk depth ++ Node.walkAll depth ns

end

/-- Whether one node comes before another in the order of the source, or is the same. -/
def notAfter (a b : Nat × Nat) : Bool :=
  a.1 < b.1 || (a.1 == b.1 && a.2 ≤ b.2)

/-- The matches of a query in a tree, in the order in which they are completed. The function
gives the text of a node. -/
def Query.run (q : Query) (text : Node → String) (root : Node) : List Found :=
  let found := (root.walk 0).flatMap fun (depth, n) =>
    q.flatMap fun g =>
      (g.pattern.matches depth n).filter fun f =>
        g.texts.all fun (name, wanted) =>
          f.kept.all fun (kept, n) => kept != name || text n == wanted
  found.mergeSort fun a b => notAfter a.last b.last

end CodeAtlas.Syntax
