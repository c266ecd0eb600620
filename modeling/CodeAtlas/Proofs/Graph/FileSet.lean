import CodeAtlas.Graph.Resolve
import Mathlib.Data.List.Sort
import Mathlib.Data.String.Basic

/-!
# `CodeAtlas.Proofs.Graph.FileSet`: sets of files as sorted lists

`FileSet.ofList` sorts a list of ids and drops repeats. The result has the same members
(`mem_ids_ofList`) and stands in strict order (`pairwise_ids_ofList`), so it has no repeats
left (`nodup_ids_ofList`) and does not depend on the order of the list (`ofList_eq_of_mem_iff`).
The first member that passes a test is the least one (`find?_ids_ofList_iff`).
-/

set_option autoImplicit false

namespace CodeAtlas.FileSet

/-- The order in which ids are sorted is their order as texts. -/
theorem notAfter_iff {a b : FileId} : notAfter a b = true ↔ a ≤ b := by
  rw [notAfter, Bool.not_eq_true', decide_eq_false_iff_not, not_lt]

/-- Dropping repeats drops no member. -/
theorem mem_dropRepeats {f : FileId} {ids : List FileId} :
    f ∈ dropRepeats ids ↔ f ∈ ids := by
  fun_induction dropRepeats ids with
  | case1 => rfl
  | case2 a => rfl
  | case3 b rest ih =>
    rw [ih]
    simp
  | case4 a b rest hne ih => rw [List.mem_cons, List.mem_cons, ih]

/-- Without repeats a sorted list is in strict order. -/
theorem pairwise_dropRepeats {ids : List FileId} (h : ids.Pairwise (· ≤ ·)) :
    (dropRepeats ids).Pairwise (· < ·) := by
  fun_induction dropRepeats ids with
  | case1 => exact List.Pairwise.nil
  | case2 a => exact List.pairwise_singleton _ a
  | case3 b rest ih => exact ih h.tail
  | case4 a b rest hne ih =>
    refine List.pairwise_cons.mpr ⟨?_, ih h.tail⟩
    -- What is left behind `a` is `b`, which differs from `a`, and what is not before `b`.
    intro c hc
    have hab : a < b := lt_of_le_of_ne ((List.pairwise_cons.mp h).1 b List.mem_cons_self) hne
    rcases List.mem_cons.mp (mem_dropRepeats.mp hc) with rfl | hc
    · exact hab
    · exact hab.trans_le ((List.pairwise_cons.mp h.tail).1 c hc)

/-- The members of the set of a list are those of the list. -/
theorem mem_ids_ofList {f : FileId} {ids : List FileId} : f ∈ (ofList ids).ids ↔ f ∈ ids := by
  rw [ofList, mem_dropRepeats]
  exact (List.mergeSort_perm ids notAfter).mem_iff

/-- Sorting ids and leaving out repetitions loses none. -/
theorem contains_ofList {f : FileId} {ids : List FileId} :
    (ofList ids).contains f = true ↔ f ∈ ids := by
  rw [contains, List.contains_iff_mem, mem_ids_ofList]

/-- The members of the set of a list stand in strict order. -/
theorem pairwise_ids_ofList (ids : List FileId) : (ofList ids).ids.Pairwise (· < ·) := by
  have htrans : ∀ a b c, notAfter a b = true → notAfter b c = true → notAfter a c = true := by
    intro a b c hab hbc
    rw [notAfter_iff] at hab hbc ⊢
    exact hab.trans hbc
  have htotal : ∀ a b, (notAfter a b || notAfter b a) = true := by
    intro a b
    simp only [Bool.or_eq_true, notAfter_iff]
    exact le_total a b
  have hsorted := List.pairwise_mergeSort htrans htotal ids
  exact pairwise_dropRepeats (hsorted.imp notAfter_iff.mp)

/-- A set of files has each id once, for the ids ascend strictly. -/
theorem nodup_ids_ofList (ids : List FileId) : (ofList ids).ids.Nodup :=
  (pairwise_ids_ofList ids).imp ne_of_lt

/-- Lists with the same members have the same set. -/
theorem ofList_eq_of_mem_iff {ids ids' : List FileId} (h : ∀ f, f ∈ ids ↔ f ∈ ids') :
    ofList ids = ofList ids' := by
  have hids : (ofList ids).ids = (ofList ids').ids :=
    (pairwise_ids_ofList ids).eq_of_mem_iff (pairwise_ids_ofList ids') fun f => by
      rw [mem_ids_ofList, mem_ids_ofList, h]
  exact congrArg FileSet.mk hids

/-- A list in strict order is its own set. -/
theorem ofList_of_pairwise {ids : List FileId} (h : ids.Pairwise (· < ·)) : ofList ids = ⟨ids⟩ :=
  congrArg FileSet.mk ((pairwise_ids_ofList ids).eq_of_mem_iff h fun _ => mem_ids_ofList)

/-- What is found first in a list in strict order is the least that passes the test. -/
theorem find?_eq_some_iff_of_pairwise {ids : List FileId} (h : ids.Pairwise (· < ·))
    {p : FileId → Bool} {f : FileId} :
    ids.find? p = some f ↔ f ∈ ids ∧ p f = true ∧ ∀ g ∈ ids, p g = true → f ≤ g := by
  induction ids with
  | nil => simp
  | cons a rest ih =>
    obtain ⟨hleast, hrest⟩ := List.pairwise_cons.mp h
    -- The first member is the least of all, so the test on it decides.
    cases ha : p a with
    | true =>
      rw [List.find?_cons_of_pos ha, Option.some.injEq]
      constructor
      · rintro rfl
        refine ⟨List.mem_cons_self, ha, fun g hg _ => ?_⟩
        rcases List.mem_cons.mp hg with rfl | hg
        · exact le_rfl
        · exact (hleast g hg).le
      · rintro ⟨hf, -, hfirst⟩
        refine (List.mem_cons.mp hf).elim Eq.symm fun hmem => ?_
        exact absurd (hfirst a List.mem_cons_self ha) (not_le.mpr (hleast f hmem))
    | false =>
      rw [List.find?_cons_of_neg (by simp [ha]), ih hrest]
      constructor
      · rintro ⟨hf, hpf, hfirst⟩
        refine ⟨List.mem_cons_of_mem a hf, hpf, fun g hg hpg => ?_⟩
        rcases List.mem_cons.mp hg with rfl | hg
        · simp [ha] at hpg
        · exact hfirst g hg hpg
      · rintro ⟨hf, hpf, hfirst⟩
        rcases List.mem_cons.mp hf with rfl | hf
        · simp [ha] at hpf
        · exact ⟨hf, hpf, fun g hg => hfirst g (List.mem_cons_of_mem a hg)⟩

/-- The first member of a set that passes a test is the least one that does, so the answer does not
depend on how the set was made. -/
theorem find?_ids_ofList_iff {ids : List FileId} {p : FileId → Bool} {f : FileId} :
    (ofList ids).ids.find? p = some f ↔ f ∈ ids ∧ p f = true ∧ ∀ g ∈ ids, p g = true → f ≤ g := by
  rw [find?_eq_some_iff_of_pairwise (pairwise_ids_ofList ids)]
  simp only [mem_ids_ofList]

end CodeAtlas.FileSet
