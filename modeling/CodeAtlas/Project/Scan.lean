import CodeAtlas.FileId
import CodeAtlas.Files.Tree
import CodeAtlas.Glob.Library
import CodeAtlas.Project.Config

/-!
# `CodeAtlas.Project.Scan`: the files of a project

A scan goes through the directories below a root and takes the files that are wanted. An excluded
directory is not entered, one that cannot be read counts as empty, and links are neither followed
nor taken.
-/

set_option autoImplicit false

namespace CodeAtlas

/-- Which names below the root are wanted and which are left out. -/
structure ScanFilter where
  included : String → Bool
  excluded : String → Bool

/-- The filter of a configuration, with the patterns of a library. -/
def ScanFilter.ofConfig (c : ProjectConfig) (globs : GlobLibrary := .standard) : ScanFilter :=
  ⟨globs.matcher c.includePatterns, globs.matcher c.excludePatterns⟩

namespace Scan

/-- A directory that is still to be read. -/
structure Pending where
  path : Path
  /-- What reading it gives. -/
  listing : Except FileFault (List (EntryName × Entry))

/-- How far a scan has come. -/
structure Progress where
  /-- The directories that are still to be read, the next one first. -/
  pending : List Pending
  /-- The files that were taken, the last one first. -/
  taken : List Path

/-- Looks at an entry of the directory at a path. What has no id below the root is passed over. A
directory is left for later unless it is excluded; it is known by its id with a slash behind it. -/
def visit (f : ScanFilter) (root dir : Path) (s : Progress) (member : EntryName × Entry) :
    Progress :=
  let path := dir.join ⟨String.ofList member.1⟩
  match FileId.ofPath? root path with
  | none => s
  | some id =>
    match member.2 with
    | .directory _ | .closed =>
      if f.excluded (id ++ "/") then s
      else { s with pending := ⟨path, member.2.listing⟩ :: s.pending }
    | .file _ =>
      if !f.excluded id && f.included id then { s with taken := path :: s.taken } else s
    | .link _ | .device => s

/-- Looks at the entries of the directory at a path, one after the other. -/
def visitAll (f : ScanFilter) (root dir : Path) (s : Progress)
    (entries : List (EntryName × Entry)) : Progress :=
  entries.foldl (visit f root dir) s

/-! ### The scan comes to an end -/

mutual

/-- The number of entries that a scan can come to from an entry, itself included. -/
def weightOf : Entry → Nat
  | .directory entries => 1 + weightIn entries
  | .file _ | .closed | .link _ | .device => 1

/-- The number of entries that a scan can come to from the entries of a directory. -/
def weightIn : List (EntryName × Entry) → Nat
  | [] => 0
  | (_, e) :: rest => weightOf e + weightIn rest

end

/-- The weight of a directory that is still to be read. -/
def Pending.weight (d : Pending) : Nat :=
  match d.listing with
  | .ok entries => 1 + weightIn entries
  | .error _ => 1

/-- The weight of everything that is still to be read. -/
def Progress.weight (s : Progress) : Nat :=
  s.pending.foldr (fun dir weight => dir.weight + weight) 0

/-- What is put on the stack for an entry weighs no more than the entry, whether it can be listed or
not. -/
theorem weight_listing_le (path : Path) (e : Entry) :
    (Pending.mk path e.listing).weight ≤ weightOf e := by
  cases e <;> simp [Pending.weight, Entry.listing, weightOf]

/-- A visit adds at most the member it looks at to what is pending. -/
theorem weight_visit_le (f : ScanFilter) (root dir : Path) (s : Progress)
    (member : EntryName × Entry) :
    (visit f root dir s member).weight ≤ s.weight + weightOf member.2 := by
  have hleft (path : Path) :
      Progress.weight { s with pending := ⟨path, member.2.listing⟩ :: s.pending }
        ≤ s.weight + weightOf member.2 := by
    have hlisting := weight_listing_le path member.2
    simp only [Progress.weight, List.foldr_cons]
    omega
  have hsame : s.weight ≤ s.weight + weightOf member.2 := Nat.le_add_right _ _
  fun_cases visit f root dir s member
  all_goals first
    | exact hsame
    | exact hleft _

/-- So a listing adds at most its own weight, and the walk that took a directory off the stack has
less before it than with it. -/
theorem weight_visitAll_le (f : ScanFilter) (root dir : Path) (s : Progress)
    (entries : List (EntryName × Entry)) :
    (visitAll f root dir s entries).weight ≤ s.weight + weightIn entries := by
  induction entries generalizing s with
  | nil => exact Nat.le_add_right _ _
  | cons member entries ih =>
    have hmember := weight_visit_le f root dir s member
    have hrest := ih (visit f root dir s member)
    rw [visitAll] at hrest
    rw [visitAll, List.foldl_cons, weightIn]
    omega

/-- Reads the directories that are left, one after the other. A directory that cannot be read is a
fault only at the root. -/
def walk (f : ScanFilter) (root : Path) (atRoot : Bool) (s : Progress) :
    Except FileFault (List Path) :=
  match _hpending : s.pending with
  | [] => .ok s.taken.reverse
  | dir :: rest =>
    match _hlisting : dir.listing with
    | .error fault =>
      if atRoot then .error fault else walk f root false { s with pending := rest }
    | .ok entries =>
      walk f root false (visitAll f root dir.path { s with pending := rest } entries)
termination_by s.weight
decreasing_by
  · simp [Progress.weight, Pending.weight, _hpending, _hlisting]
  · have hread := weight_visitAll_le f root dir.path { s with pending := rest } entries
    simp only [Progress.weight, Pending.weight, _hpending, _hlisting,
      List.foldr_cons] at hread ⊢
    omega

/-- The paths of the files that are taken, in the order of their components. Only a root that
cannot be read is a fault. -/
def files (t : FileTree) (f : ScanFilter) (root : Path) : Except FileFault (List Path) := do
  let found ← walk f root true ⟨[⟨root, t.entries root⟩], []⟩
  return found.mergeSort Path.notAfter

end Scan

end CodeAtlas
