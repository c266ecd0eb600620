import CodeAtlas.Text.Pieces

/-!
# `CodeAtlas.Path.Basic`: paths and their components

A path is a text whose components are separated by slashes. Empty components and `.` mean
nothing except for a `.` at the very front of a relative path; two paths are compared by
their components, but a path keeps the text that it was given.
-/

set_option autoImplicit false

namespace CodeAtlas

/-- A path as written. -/
structure Path where
  text : String
deriving DecidableEq, Repr, Inhabited

namespace Path

/-- A component of a path. -/
inductive Component where
  /-- The slash at the front of an absolute path. -/
  | root
  /-- A `.` at the front of a relative path. -/
  | current
  /-- A `..`. -/
  | parent
  /-- The name of a file or directory. -/
  | name (text : List Char)
deriving DecidableEq, Repr

/-- The component that a piece between slashes stands for, if any; a `.` stands for none. -/
def Component.ofPiece? (piece : List Char) : Option Component :=
  if piece = [] ∨ piece = ['.'] then none
  else if piece = ['.', '.'] then some .parent
  else some (.name piece)

/-- The text of a component. -/
def Component.text : Component → List Char
  | .root => ['/']
  | .current => ['.']
  | .parent => ['.', '.']
  | .name text => text

/-- The components that the pieces of a text stand for, without regard to its front. -/
def bodyOf (cs : List Char) : List Component :=
  (Text.pieces '/' cs).filterMap Component.ofPiece?

/-- The components of the path with a given text. -/
def componentsOf (cs : List Char) : List Component :=
  match cs with
  | '/' :: _ => .root :: bodyOf cs
  | _ => if (Text.pieces '/' cs).head? = some ['.'] then .current :: bodyOf cs else bodyOf cs

/-- The components of a path. -/
def components (p : Path) : List Component :=
  componentsOf p.text.toList

/-- Whether a path starts at the root of the file system. -/
def isAbsolute (p : Path) : Bool :=
  p.text.toList.head? = some '/'

/-- The components of a path behind those of another, if it starts with these. -/
def componentsBehind? (p root : Path) : Option (List Component) :=
  go root.components p.components
where
  /-- The components behind a given beginning. -/
  go : List Component → List Component → Option (List Component)
    | [], rest => some rest
    | _ :: _, [] => none
    | a :: as, b :: bs => if a = b then go as bs else none

/-- The text of a list of components: the root if it is there, and the others with a slash
between each two. -/
def textOf : List Component → List Char
  | .root :: rest => '/' :: Text.glue '/' (rest.map Component.text)
  | cs => Text.glue '/' (cs.map Component.text)

/-- The path with given components. -/
def ofComponents (cs : List Component) : Path :=
  ⟨String.ofList (textOf cs)⟩

/-- A path behind another: what is absolute replaces what came before. -/
def join (p q : Path) : Path :=
  match p.text.toList.getLast? with
  | none => q
  | some last =>
    if q.isAbsolute then q
    else if last = '/' then ⟨p.text ++ q.text⟩
    else ⟨p.text ++ "/" ++ q.text⟩

/-- The path without its last component; a root and an empty path have none. -/
def parent? (p : Path) : Option Path :=
  match p.components.getLast? with
  | none | some .root => none
  | some _ => some (ofComponents p.components.dropLast)

/-- The name at the end of the path. -/
def fileName? (p : Path) : Option (List Char) :=
  match p.components.getLast? with
  | some (.name text) => some text
  | _ => none

/-- What stands behind the last dot of a name, unless the dot is in front of everything
else. -/
def extensionOf? (name : List Char) : Option (List Char) :=
  match Text.cutLast '.' name with
  | some (stem, ext) => if stem = [] then none else some ext
  | none => none

/-- The extension of the name at the end of the path. -/
def extension? (p : Path) : Option (List Char) :=
  p.fileName?.bind extensionOf?

/-- One component added to components that are already resolved: a `.` changes nothing, and
a `..` takes the last component away, or stays where there is none to take. -/
def resolveStep (done : List Component) : Component → List Component
  | .current => done
  | .parent =>
    match done.getLast? with
    | none | some .root => done ++ [.parent]
    | some _ => done.dropLast
  | .root => [.root]
  | .name text => done ++ [.name text]

/-- The components with `.` and `..` resolved by name alone. -/
def resolveComponents (cs : List Component) : List Component :=
  cs.foldl resolveStep []

/-- The path with `.` and `..` resolved by name alone. -/
def resolve (p : Path) : Path :=
  ofComponents (resolveComponents p.components)

/-- Whether one component comes before another or is the same: by kind, and names by their
characters. -/
def Component.notAfter : Component → Component → Bool
  | .root, _ => true
  | _, .root => false
  | .current, _ => true
  | _, .current => false
  | .parent, _ => true
  | _, .parent => false
  | .name a, .name b => !(b < a)

/-- Whether one list of components comes before another or is the same: at the first
difference, or because it is the shorter one. -/
def notAfterComponents : List Component → List Component → Bool
  | [], _ => true
  | _ :: _, [] => false
  | a :: as, b :: bs => if a = b then notAfterComponents as bs else a.notAfter b

/-- Whether one path comes before another or is the same. -/
def notAfter (p q : Path) : Bool :=
  notAfterComponents p.components q.components

end Path

end CodeAtlas
