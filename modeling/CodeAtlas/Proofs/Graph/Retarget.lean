import CodeAtlas.Proofs.Graph.FileSet
import CodeAtlas.Proofs.Graph.Resolve

/-!
# `CodeAtlas.Proofs.Graph.Retarget`: imports in a project that changes

What an import means can change when files are added or deleted, but it does so only when it must.
A way to choose a file is `Steady` if it chooses an existing one, keeps its choice when other files
go, and finds nothing among some of the files if it finds nothing among all of them. The theorems:

* `steady_find?_contains`, `steady_find?_ids`: to take the first candidate that exists is steady,
  and so is to take the least file that passes a test.
* `Steady.or`: of two steady ways the second can be a fallback of the first.
* `resolve_of_subset`: the meaning of an import is steady. Files that are added never take it away,
  and can only replace it by one of themselves.
-/

set_option autoImplicit false

namespace CodeAtlas.Resolve

/-- Whether a way to choose a file among others changes its choice only when it must. -/
structure Steady (choose : FileSet → Option FileId) : Prop where
  /-- What is chosen exists. -/
  mem : ∀ {files : FileSet} {id : FileId}, choose files = some id → files.contains id = true
  /-- A choice is kept as long as it exists. -/
  kept : ∀ {few many : List FileId} {id : FileId}, few ⊆ many → id ∈ few →
    choose (.ofList many) = some id → choose (.ofList few) = some id
  /-- Where there is nothing to choose, there is nothing among fewer files. -/
  none : ∀ {few many : List FileId}, few ⊆ many → choose (.ofList many) = none →
    choose (.ofList few) = none

variable {choose fallback : FileSet → Option FileId}

/-- A step that never finds anything is steady. -/
theorem steady_nothing : Steady fun _ => none where
  mem h := absurd h (by simp)
  kept _ _ h := absurd h (by simp)
  none _ _ := rfl

/-- To take the first candidate that exists is steady. -/
theorem steady_find?_contains (candidates : List FileId) :
    Steady fun files => candidates.find? files.contains where
  mem h := List.find?_some h
  kept {few many id} hsub hid h := by
    -- A candidate before the choice would be missing among more files, too.
    rw [List.find?_eq_some_iff_append] at h ⊢
    obtain ⟨-, before, behind, hsplit, hbefore⟩ := h
    refine ⟨FileSet.contains_ofList.mpr hid, before, behind, hsplit, fun other hother => ?_⟩
    have hmissing := hbefore other hother
    rw [Bool.not_eq_true', ← Bool.not_eq_true, FileSet.contains_ofList] at hmissing ⊢
    exact fun hmem => hmissing (hsub hmem)
  none {few many} hsub h := by
    rw [List.find?_eq_none] at h ⊢
    intro other hother hmem
    rw [FileSet.contains_ofList] at hmem
    exact h other hother (FileSet.contains_ofList.mpr (hsub hmem))

/-- To take the least file that passes a test is steady. -/
theorem steady_find?_ids (p : FileId → Bool) : Steady fun files => files.ids.find? p where
  mem h := List.contains_iff_mem.mpr (List.mem_of_find?_eq_some h)
  kept hsub hid h := by
    obtain ⟨-, hp, hleast⟩ := FileSet.find?_ids_ofList_iff.mp h
    exact FileSet.find?_ids_ofList_iff.mpr ⟨hid, hp, fun g hg => hleast g (hsub hg)⟩
  none hsub h := by
    rw [List.find?_eq_none] at h ⊢
    intro other hother
    rw [FileSet.mem_ids_ofList] at hother
    exact h other (FileSet.mem_ids_ofList.mpr (hsub hother))

/-- Of two steady ways to choose, the second can be a fallback of the first. -/
theorem Steady.or (hchoose : Steady choose) (hfallback : Steady fallback) :
    Steady fun files => (choose files).or (fallback files) where
  mem h := by
    rcases Option.or_eq_some_iff.mp h with h | ⟨-, h⟩
    · exact hchoose.mem h
    · exact hfallback.mem h
  kept hsub hid h := by
    rw [Option.or_eq_some_iff] at h ⊢
    exact h.imp (hchoose.kept hsub hid) fun ⟨hnone, h⟩ =>
      ⟨hchoose.none hsub hnone, hfallback.kept hsub hid h⟩
  none hsub h := by
    rw [Option.or_eq_none_iff] at h ⊢
    exact ⟨hchoose.none hsub h.1, hfallback.none hsub h.2⟩

/-- Files that are added never take a choice away, and can only replace it by one of themselves. -/
theorem Steady.exists_of_subset (h : Steady choose) {few many : List FileId} (hsub : few ⊆ many)
    {id : FileId} (hid : choose (.ofList few) = some id) :
    ∃ id', choose (.ofList many) = some id' ∧ (id' = id ∨ id' ∈ many ∧ id' ∉ few) := by
  cases hmany : choose (.ofList many) with
  | none => exact absurd (hid.symm.trans (h.none hsub hmany)) (by simp)
  | some id' =>
    refine ⟨id', rfl, ?_⟩
    by_cases hmem : id' ∈ few
    · exact .inl (Option.some.inj ((h.kept hsub hmem hmany).symm.trans hid))
    · exact .inr ⟨FileSet.contains_ofList.mp (h.mem hmany), hmem⟩

/-! ### The steps of a resolution -/

/-- Following a path literally is steady: it takes the first candidate that there is, and which
candidates there are depends on the texts alone. -/
theorem steady_direct? (cleaned : List Char) (importer : FileId) :
    Steady (direct? cleaned importer) := by
  have hsteps : direct? cleaned importer = fun files =>
      (FileId.joinChars? (FileId.parentChars importer.toList) cleaned).bind fun base =>
        (candidates base).find? files.contains := funext fun _ => direct?_eq
  rw [hsteps]
  cases FileId.joinChars? (FileId.parentChars importer.toList) cleaned with
  | none => exact steady_nothing
  | some base => exact steady_find?_contains (candidates base)

/-- Looking for a name anywhere is steady: it takes the first file in order that has it. -/
theorem steady_byName? (cleaned : List Char) (importer : FileId) :
    Steady (byName? cleaned importer) := by
  unfold byName?
  dsimp only
  split
  · exact steady_nothing
  · exact steady_find?_ids _

/-- What an import means is chosen steadily. -/
theorem steady_resolve (modulePath : String) (importer : FileId) :
    Steady (resolve modulePath importer) := by
  have hsteps : resolve modulePath importer = fun files =>
      if clean modulePath.toList = [] then none
      else (direct? (clean modulePath.toList) importer files).or
        (byName? (clean modulePath.toList) importer files) := funext fun _ => resolve_eq
  rw [hsteps]
  split
  · exact steady_nothing
  · exact (steady_direct? _ importer).or (steady_byName? _ importer)

/-- **The meaning of an import changes only when it must.** Take a few files of a project. What an
importing file asks for means one of all files, if anything. It means the same among the few if it
means one of them, and nothing among the few if it means nothing among all. So a file that it means
among the few can only be replaced by one of the others. -/
theorem resolve_of_subset (modulePath : String) (importer : FileId) {few many : List FileId}
    (hsub : few ⊆ many) :
    (∀ id, resolve modulePath importer (.ofList many) = some id →
      id ∈ many ∧ (id ∈ few → resolve modulePath importer (.ofList few) = some id)) ∧
    (resolve modulePath importer (.ofList many) = none →
      resolve modulePath importer (.ofList few) = none) ∧
    ∀ id, resolve modulePath importer (.ofList few) = some id →
      ∃ id', resolve modulePath importer (.ofList many) = some id' ∧
        (id' = id ∨ id' ∈ many ∧ id' ∉ few) := by
  have hsteady := steady_resolve modulePath importer
  refine ⟨fun id h => ⟨?_, fun hid => hsteady.kept hsub hid h⟩, hsteady.none hsub,
    fun id h => hsteady.exists_of_subset hsub h⟩
  exact FileSet.contains_ofList.mp (hsteady.mem h)

/-- A file with the right name in another directory gives way to an index file that is added where
the import leads. -/
theorem resolve_of_subset_retargeted :
    let few : List FileId := ["app/main.js", "lib/util.py"]
    let many : List FileId := ["a/util.js", "app/main.js", "app/util/index.ts", "lib/util.py"]
    few ⊆ many ∧ resolve "./util" "app/main.js" (.ofList few) = some "lib/util.py" ∧
      (∃ id, resolve "./util" "app/main.js" (.ofList many) = some id ∧
        (id = "lib/util.py" ∨ id ∈ many ∧ id ∉ few)) ∧
      resolve "./util" "app/main.js" (.ofList many) = some "app/util/index.ts" := by
  intro few many
  have hsub : few ⊆ many := by decide
  have hfew : resolve "./util" "app/main.js" (.ofList few) = some "lib/util.py" := by
    rw [FileSet.ofList_of_pairwise (by decide)]
    decide
  obtain ⟨-, -, hadded⟩ := resolve_of_subset "./util" "app/main.js" hsub
  refine ⟨hsub, hfew, hadded _ hfew, ?_⟩
  rw [FileSet.ofList_of_pairwise (by decide)]
  decide

end CodeAtlas.Resolve
