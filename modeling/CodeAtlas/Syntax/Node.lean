/-!
# `CodeAtlas.Syntax.Node`: syntax trees

A syntax tree is a node with a kind, the role that it plays in its parent, the range of
positions that its text covers, and its children in source order. Positions are character
indices into the source text.
-/

set_option autoImplicit false

namespace CodeAtlas.Syntax

/-- A node of a syntax tree. -/
structure Node where
  /-- What the node is, for instance `call_expression`. -/
  kind : String
  /-- The role that the node plays in its parent, for instance `function`. -/
  role : Option String
  /-- The first position of the node's text. -/
  start : Nat
  /-- The position behind the node's text. -/
  stop : Nat
  /-- The parts of the node in source order. -/
  children : List Node
deriving Repr, Inhabited

namespace Node

/-- The same node in another role. -/
def withRole (name : String) (n : Node) : Node :=
  { n with role := some name }

/-- The same node with every position, its own and its descendants', sent through `f`. -/
def mapPositions (f : Nat → Nat) : Node → Node
  | ⟨kind, role, start, stop, children⟩ =>
    ⟨kind, role, f start, f stop, children.attach.map fun ⟨c, _⟩ => c.mapPositions f⟩

end Node

end CodeAtlas.Syntax
