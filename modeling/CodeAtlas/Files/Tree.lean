import CodeAtlas.Path.Basic
import CodeAtlas.Vector.Table.Basic

/-!
# `CodeAtlas.Files.Tree`: trees of files and directories

A tree is a value: reading looks into it, and writing gives a new one. Paths are followed through
links, and every operation that cannot be done says why.
-/

set_option autoImplicit false

namespace CodeAtlas

/-- Why an operation on a file or directory fails. -/
inductive FileFault where
  | missing
  | denied
  | occupied
  | notDirectory
  | isDirectory
  | linkLoop
  /-- The bytes of the file are not UTF-8. -/
  | notText
deriving DecidableEq, Repr

namespace FileFault

/-- The word for the kind of a fault. -/
def kind : FileFault → String
  | .missing => "NotFound"
  | .denied => "PermissionDenied"
  | .occupied => "AlreadyExists"
  | .notDirectory => "NotADirectory"
  | .isDirectory => "IsADirectory"
  | .linkLoop => "FilesystemLoop"
  | .notText => "InvalidData"

/-- The messages of the operating system. -/
def message : FileFault → String
  | .missing => "No such file or directory (os error 2)"
  | .denied => "Permission denied (os error 13)"
  | .occupied => "File exists (os error 17)"
  | .notDirectory => "Not a directory (os error 20)"
  | .isDirectory => "Is a directory (os error 21)"
  | .linkLoop => "Too many levels of symbolic links (os error 40)"
  | .notText => "stream did not contain valid UTF-8"

end FileFault

/-- What a file holds. -/
inductive Content where
  | bytes (data : ByteArray)
  /-- A table of vectors, which is written and read as a whole. -/
  | table (rows : VectorTable)
  /-- Something that may not be read; how many bytes it has is still known. -/
  | locked (size : Nat)

namespace Content

/-- The content with a given text. -/
def ofText (text : String) : Content := .bytes text.toUTF8

/-- The number of bytes. -/
def byteSize : Content → Nat
  | .bytes data => data.size
  | .table rows => rows.byteSize
  | .locked size => size

/-- The text of a content. -/
def text : Content → Except FileFault String
  | .bytes data =>
    match String.fromUTF8? data with
    | some text => .ok text
    | none => .error .notText
  | .table _ => .error .notText
  | .locked _ => .error .denied

end Content

/-- The name of an entry in its directory. -/
abbrev EntryName := List Char

/-- What a directory can hold. -/
inductive Entry where
  | file (content : Content)
  | directory (entries : List (EntryName × Entry))
  /-- A directory whose entries may not be read. -/
  | closed
  /-- A link to wherever a path leads from the directory of the link. -/
  | link (target : Path)
  /-- Neither a file nor a directory nor a link. -/
  | device

/-- The names that lead to an entry from the top of a tree. -/
abbrev Place := List EntryName

namespace Entry

/-- What reading an entry as a directory gives. -/
def listing : Entry → Except FileFault (List (EntryName × Entry))
  | .directory entries => .ok entries
  | .closed => .error .denied
  | _ => .error .notDirectory

/-- The entries of a directory with one of them put under a name: in the place of the one that
had the name, or behind the others. -/
def putName (name : EntryName) (e : Entry) : List (EntryName × Entry) → List (EntryName × Entry)
  | [] => [(name, e)]
  | (n, old) :: rest => if n = name then (n, e) :: rest else (n, old) :: putName name e rest

/-- The entry at a place below another. -/
def at? : Entry → Place → Option Entry
  | e, [] => some e
  | .directory entries, name :: rest => (entries.lookup name).bind fun e => e.at? rest
  | _, _ :: _ => none

/-- An entry with another put at a place below it. Directories are made on the way where nothing
is. -/
def put (new : Entry) : Entry → Place → Entry
  | _, [] => new
  | .directory entries, name :: rest =>
    .directory (putName name (put new ((entries.lookup name).getD (.directory [])) rest) entries)
  | e, _ :: _ => e

/-- An entry without what is at a place below it. -/
def remove : Entry → Place → Entry
  | .directory entries, [name] => .directory (entries.filter fun e => e.1 ≠ name)
  | .directory entries, name :: rest =>
    match entries.lookup name with
    | some e => .directory (putName name (e.remove rest) entries)
    | none => .directory entries
  | e, _ => e

end Entry

/-- A tree of files, and the place in it from which relative paths lead. -/
structure FileTree where
  top : Entry
  here : Place

namespace FileTree

/-! ### Following paths -/

/-- Where a path leads. -/
inductive Spot where
  | found (place : Place) (entry : Entry)
  /-- Nothing has the last name of the path, but its directory is there. -/
  | free (place : Place)

/-- How many links are followed for one path. -/
def linkLimit : Nat := 40

/-- Follows components from a place. The last one is followed through a link only if that is
wanted; the first argument bounds the number of links. -/
def walk (top : Entry) (followLast : Bool) :
    Nat → Place → List Path.Component → Except FileFault Spot
  | _, place, [] =>
    match top.at? place with
    | some e => .ok (.found place e)
    | none => .error .missing
  | links, _, .root :: rest => walk top followLast links [] rest
  | links, place, .current :: rest => walk top followLast links place rest
  | links, place, .parent :: rest =>
    match top.at? place with
    | some (.directory _) | some .closed => walk top followLast links place.dropLast rest
    | _ => .error .notDirectory
  | links, place, .name name :: rest =>
    match top.at? place with
    | some (.directory entries) =>
      match entries.lookup name with
      | none => if rest = [] then .ok (.free (place ++ [name])) else .error .missing
      | some (.link target) =>
        if rest = [] ∧ ¬ followLast then .ok (.found (place ++ [name]) (.link target))
        else
          match links with
          | 0 => .error .linkLoop
          | links + 1 => walk top followLast links place (target.components ++ rest)
      | some _ => walk top followLast links (place ++ [name]) rest
    | some .closed => .error .denied
    | _ => .error .notDirectory
termination_by links _ cs => (links, cs.length)

/-- Where a path leads. The empty path leads nowhere. -/
def locate (t : FileTree) (followLast : Bool) (p : Path) : Except FileFault Spot :=
  if p.text = "" then .error .missing
  else walk t.top followLast linkLimit t.here p.components

/-- The entry that a path leads to. -/
def entry (t : FileTree) (p : Path) : Except FileFault Entry := do
  match ← t.locate true p with
  | .found _ e => return e
  | .free _ => .error .missing

/-! ### Reading -/

/-- Whether a path leads to anything. -/
def contains (t : FileTree) (p : Path) : Bool :=
  (t.entry p).toBool

/-- Whether a path leads to a directory. -/
def isDirectory (t : FileTree) (p : Path) : Bool :=
  match t.entry p with
  | .ok (.directory _) | .ok .closed => true
  | _ => false

/-- What the file at a path holds. -/
def content (t : FileTree) (p : Path) : Except FileFault Content := do
  match ← t.entry p with
  | .file c => return c
  | .directory _ => .error .isDirectory
  | _ => .error .denied

/-- The text of the file at a path. -/
def text (t : FileTree) (p : Path) : Except FileFault String :=
  (t.content p).bind Content.text

/-- The number of bytes of the file at a path; zero where there is none. -/
def byteSize (t : FileTree) (p : Path) : Nat :=
  match t.content p with
  | .ok c => c.byteSize
  | .error _ => 0

/-- The entries of the directory at a path. -/
def entries (t : FileTree) (p : Path) : Except FileFault (List (EntryName × Entry)) :=
  (t.entry p).bind Entry.listing

/-! ### Writing -/

/-- The tree with an entry put at a place. -/
def putAt (t : FileTree) (place : Place) (e : Entry) : FileTree :=
  { t with top := Entry.put e t.top place }

/-- Writes the file at a path; its directory has to be there. -/
def write (t : FileTree) (p : Path) (c : Content) : Except FileFault FileTree := do
  match ← t.locate true p with
  | .free place => return t.putAt place (.file c)
  | .found place (.file old) =>
    match old with
    | .locked _ => .error .denied
    | _ => return t.putAt place (.file c)
  | .found _ (.directory _) | .found _ .closed => .error .isDirectory
  | .found _ _ => .error .denied

/-- Makes one directory. -/
def makeDirectory (t : FileTree) (p : Path) : Except FileFault FileTree := do
  match ← t.locate false p with
  | .free place => return t.putAt place (.directory [])
  | .found _ _ => .error .occupied

/-- Makes the directory at the end of components, given from the last to the first, and those
on the way that are not there. -/
def makeAll (t : FileTree) : List Path.Component → Except FileFault FileTree
  | [] => .ok t
  | c :: before =>
    let p := Path.ofComponents (c :: before).reverse
    match t.makeDirectory p with
    | .ok t => .ok t
    | .error .missing =>
      match makeAll t before with
      | .error f => .error f
      | .ok t =>
        match t.makeDirectory p with
        | .ok t => .ok t
        | .error f => if t.isDirectory p then .ok t else .error f
    | .error f => if t.isDirectory p then .ok t else .error f

/-- Makes the directory at a path and those on the way that are not there. -/
def makeDirectories (t : FileTree) (p : Path) : Except FileFault FileTree :=
  t.makeAll p.components.reverse

/-- Takes away what is at a path, without following a link at its end. -/
def remove (t : FileTree) (p : Path) : Except FileFault FileTree := do
  match ← t.locate false p with
  | .found place _ => return { t with top := t.top.remove place }
  | .free _ => .error .missing

end FileTree

end CodeAtlas
