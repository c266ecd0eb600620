import CodeAtlas.Path.Basic

/-!
# `CodeAtlas.FileId`: ids of files in a project

A file of a project is known by its path below the project's root, written with one slash
between two names. The functions here take ids apart, make them from paths, and follow
relative texts from a directory's id.
-/

set_option autoImplicit false

namespace CodeAtlas

/-- The id of a file or directory: names separated by slashes. -/
abbrev FileId := String

namespace FileId

/-! ### Parts of an id -/

/-- The id of the directory that holds the file; empty at the root. -/
def parentChars (id : List Char) : List Char :=
  match Text.cutLast '/' id with
  | some (dir, _) => dir
  | none => []

/-- The last name of the id. -/
def nameChars (id : List Char) : List Char :=
  match Text.cutLast '/' id with
  | some (_, name) => name
  | none => id

/-- What stands behind the last dot of the last name; empty if there is no dot or nothing in
front of it. -/
def extensionChars (id : List Char) : List Char :=
  (Path.extensionOf? (nameChars id)).getD []

/-- The last name without its extension and the dot before it. -/
def stemChars (id : List Char) : List Char :=
  match Text.cutLast '.' (nameChars id) with
  | some (stem, _) => if stem = [] then nameChars id else stem
  | none => nameChars id

def parent (id : FileId) : FileId := String.ofList (parentChars id.toList)
def name (id : FileId) : String := String.ofList (nameChars id.toList)
def extension (id : FileId) : String := String.ofList (extensionChars id.toList)
def stem (id : FileId) : String := String.ofList (stemChars id.toList)

/-! ### Ids from paths -/

/-- The text of a component that is a name. -/
def nameOf? : Path.Component → Option (List Char)
  | .name text => some text
  | _ => none

/-- The id of a path below a root: the names behind the root's components. A path outside
the root, and the root itself, have none. -/
def ofPath? (root path : Path) : Option FileId :=
  match path.componentsBehind? root with
  | none => none
  | some rest =>
    match rest.filterMap nameOf? with
    | [] => none
    | names => some (String.ofList (Text.glue '/' names))

/-! ### Relative texts -/

/-- One segment of a relative text followed from a directory: empty segments and `.` stay,
`..` climbs, and everything else descends. Climbing above the root fails. -/
def walkStep (segment : List Char) (dir : List (List Char)) : Option (List (List Char)) :=
  if segment = [] ∨ segment = ['.'] then some dir
  else if segment = ['.', '.'] then
    match dir with
    | [] => none
    | _ => some dir.dropLast
  else some (dir ++ [segment])

/-- The segments of a relative text followed one after the other. -/
def walk : List (List Char) → List (List Char) → Option (List (List Char))
  | dir, [] => some dir
  | dir, segment :: rest => (walkStep segment dir).bind fun dir => walk dir rest

/-- The segments of a directory's id. -/
def segments (dir : List Char) : List (List Char) :=
  (Text.pieces '/' dir).filter (· ≠ [])

/-- The id reached from a directory by a relative text; there is none above the root, nor at
the root itself. -/
def joinChars? (dir relative : List Char) : Option (List Char) :=
  match walk (segments dir) (Text.pieces '/' relative) with
  | none | some [] => none
  | some names => some (Text.glue '/' names)

/-- The id reached from a directory by a relative text. -/
def join? (dir : FileId) (relative : String) : Option FileId :=
  (joinChars? dir.toList relative.toList).map String.ofList

end FileId

end CodeAtlas
