import CodeAtlas.Graph.Build
import CodeAtlas.Proofs.Text.Pieces

/-!
# `CodeAtlas.Proofs.FileId.Ancestors`: the directories above a file

A directory is above a file if the file's id is the directory's id, a slash, and more
(`FileId.IsAbove`). The theorems:

* `mem_ancestors_iff`: climbing from parent to parent passes exactly the directories above an
  id. Nothing is asked of the id.
* `eq_append_of_parent?_eq_some`, `not_mem_of_parent?_eq_none`: an id is its parent's id, a
  slash and its name, or it has no slash.
-/

set_option autoImplicit false

namespace CodeAtlas

namespace FileId

/-- Whether a directory is above a file or another directory, at any distance. -/
def IsAbove (dir id : FileId) : Prop :=
  dir ≠ "" ∧ ∃ rest : String, id = dir ++ "/" ++ rest

/-- Whether an id does not begin with a slash. -/
def Relative (id : FileId) : Prop :=
  id.toList.head? ≠ some '/'

/-- In terms of characters, a directory above an id is a part before one of its slashes. -/
theorem isAbove_iff {dir id : FileId} :
    IsAbove dir id ↔ dir.toList ≠ [] ∧ ∃ rest, id.toList = dir.toList ++ '/' :: rest := by
  refine and_congr (by simp) ⟨?_, ?_⟩
  · rintro ⟨rest, rfl⟩
    exact ⟨rest.toList, by simp⟩
  · rintro ⟨rest, h⟩
    exact ⟨String.ofList rest, by rw [← String.toList_inj]; simpa using h⟩

/-- What is above a directory is above all that the directory is above. -/
theorem IsAbove.trans {a b c : FileId} (hab : IsAbove a b) (hbc : IsAbove b c) :
    IsAbove a c := by
  obtain ⟨ha, rest, rfl⟩ := hab
  obtain ⟨-, rest', rfl⟩ := hbc
  exact ⟨ha, rest ++ "/" ++ rest', by simp only [String.append_assoc]⟩

/-- Above an id that does not begin with a slash, no directory does. -/
theorem IsAbove.relative {dir id : FileId} (h : IsAbove dir id) (hid : Relative id) :
    Relative dir := by
  obtain ⟨hne, rest, hsplit⟩ := isAbove_iff.mp h
  rw [Relative, hsplit, List.head?_append_of_ne_nil _ hne] at hid
  exact hid

/-- An id above another one is shorter. -/
theorem IsAbove.length_lt {dir id : FileId} (h : IsAbove dir id) : dir.length < id.length := by
  obtain ⟨-, rest, rfl⟩ := h
  rw [String.length_append, String.length_append]
  show dir.length < dir.length + 1 + rest.length
  omega

/-! ### Parents and names -/

/-- An id without a slash has no parent and is its own name. -/
theorem parentChars_of_not_mem {id : List Char} (h : '/' ∉ id) :
    parentChars id = [] ∧ nameChars id = id := by
  rw [parentChars, nameChars, Text.cutLast_eq_none_iff.mpr h]
  exact ⟨rfl, rfl⟩

/-- An id with a slash is its parent's id, a slash, and its name. -/
theorem eq_append_of_mem {id : List Char} (h : '/' ∈ id) :
    id = parentChars id ++ '/' :: nameChars id ∧ '/' ∉ nameChars id := by
  obtain ⟨dir, name, hsplit, hname⟩ := Text.exists_append_of_mem h
  rw [parentChars, nameChars, Text.cutLast_eq_some_iff.mpr ⟨hsplit, hname⟩]
  exact ⟨hsplit, hname⟩

/-- Climbing from parent to parent passes exactly the directories above an id. -/
theorem mem_ancestors_iff {dir id : List Char} :
    dir ∈ ancestors id ↔ dir ≠ [] ∧ ∃ rest, id = dir ++ '/' :: rest := by
  induction id using ancestors.induct with
  | case1 id hroot =>
    rw [ancestors, dif_pos hroot]
    refine ⟨by simp, ?_⟩
    rintro ⟨hne, rest, hsplit⟩
    -- The only slash would be at the front, but `dir` stands before one.
    have hslash : '/' ∈ id := by simp [hsplit]
    obtain ⟨hlast, hname⟩ := eq_append_of_mem hslash
    rw [hroot, List.nil_append] at hlast
    rw [hlast] at hsplit
    obtain ⟨c, dir, rfl⟩ := List.exists_cons_of_ne_nil hne
    obtain ⟨-, htail⟩ := List.cons.inj hsplit
    exact absurd (by simp [htail]) hname
  | case2 id hparent ih =>
    have hslash : '/' ∈ id := by
      by_contra hno
      exact hparent (parentChars_of_not_mem hno).1
    obtain ⟨hlast, hname⟩ := eq_append_of_mem hslash
    rw [ancestors, dif_neg hparent, List.mem_cons, ih]
    constructor
    · rintro (rfl | ⟨hne, rest, hrest⟩)
      · exact ⟨hparent, _, hlast⟩
      · refine ⟨hne, rest ++ '/' :: nameChars id, ?_⟩
        rw [hrest] at hlast
        simpa using hlast
    · rintro ⟨hne, rest, hsplit⟩
      rcases List.append_eq_append_iff.mp (hsplit.symm.trans hlast) with
        ⟨m, hm, hrest⟩ | ⟨m, hm, hrest⟩
      · cases m with
        | nil => exact .inl (by simpa using hm.symm)
        | cons c m =>
          obtain ⟨rfl, -⟩ := List.cons.inj hrest
          exact .inr ⟨hne, m, hm⟩
      · -- The slash behind `dir` would stand behind the last one.
        cases m with
        | nil => exact .inl (by simpa using hm)
        | cons c m =>
          obtain ⟨-, hrest⟩ := List.cons.inj hrest
          exact absurd (by simp [hrest]) hname

/-- The ancestors that the graph makes nodes of are the ids above a file. -/
theorem mem_ancestors_map_iff {dir id : FileId} :
    dir ∈ (ancestors id.toList).map String.ofList ↔ IsAbove dir id := by
  rw [isAbove_iff, ← mem_ancestors_iff, List.mem_map]
  constructor
  · rintro ⟨cs, hcs, rfl⟩
    simpa using hcs
  · intro h
    exact ⟨dir.toList, h, String.ofList_toList⟩

/-- An id with a parent is the parent's id, a slash, and its name. -/
theorem eq_append_of_parent?_eq_some {id p : FileId} (h : parent? id = some p) :
    p ≠ "" ∧ id = p ++ "/" ++ id.name ∧ '/' ∉ id.name.toList := by
  rw [parent?] at h
  split at h
  · exact absurd h (by simp)
  · rename_i hne
    obtain rfl := Option.some.inj h
    -- An id without a slash has the empty parent, which is not counted as one.
    have hslash : '/' ∈ id.toList := by
      by_contra hno
      exact hne (by rw [parent, (parentChars_of_not_mem hno).1])
    obtain ⟨hsplit, hname⟩ := eq_append_of_mem hslash
    refine ⟨hne, ?_, by simpa [name] using hname⟩
    rw [← String.toList_inj]
    simpa [parent, name] using hsplit

/-- An id with a parent has the parent above it. -/
theorem isAbove_of_parent?_eq_some {id p : FileId} (h : parent? id = some p) :
    IsAbove p id := by
  obtain ⟨hne, hsplit, -⟩ := eq_append_of_parent?_eq_some h
  exact ⟨hne, id.name, hsplit⟩

/-- An id without a parent that does not begin with a slash has no slash at all, and is its
own name. -/
theorem not_mem_of_parent?_eq_none {id : FileId} (hid : Relative id) (h : parent? id = none) :
    '/' ∉ id.toList ∧ id.name = id := by
  have hroot : parentChars id.toList = [] := by
    rw [parent?] at h
    split at h
    · rename_i hempty
      simpa [parent] using hempty
    · exact absurd h (by simp)
  -- If there were a slash the last one would stand at the front.
  have hno : '/' ∉ id.toList := by
    intro hslash
    obtain ⟨hsplit, -⟩ := eq_append_of_mem hslash
    rw [hroot, List.nil_append] at hsplit
    rw [Relative, hsplit] at hid
    exact hid rfl
  exact ⟨hno, by rw [name, (parentChars_of_not_mem hno).2, String.ofList_toList]⟩

end FileId

end CodeAtlas
