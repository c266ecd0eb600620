import CodeAtlas.Path.Basic
import Mathlib.Data.List.Sort
import Mathlib.Data.String.Basic

/-!
# `CodeAtlas.Proofs.Path.Order`: the order of paths

Paths are compared component by component. The order is linear on components
(`Component.notAfter_total`, `Component.notAfter_trans`, `Component.notAfter_antisymm`) and so it is
on lists of them. Two paths that are not after each other therefore have the same components
(`components_eq_of_notAfter`), though they may be written differently.
-/

set_option autoImplicit false

namespace CodeAtlas.Path

namespace Component

variable {a b c : Component}

/-- Of two components one is not after the other. -/
theorem notAfter_total (a b : Component) : a.notAfter b = true ∨ b.notAfter a = true := by
  cases a <;> cases b <;> simp [notAfter, le_total]

/-- The order of components is transitive. -/
theorem notAfter_trans (hab : a.notAfter b = true) (hbc : b.notAfter c = true) :
    a.notAfter c = true := by
  cases a <;> cases b <;> cases c <;> simp_all [notAfter]
  exact le_trans hab hbc

/-- Components of which neither is after the other are equal, so sorting leaves no choice. -/
theorem notAfter_antisymm (hab : a.notAfter b = true) (hba : b.notAfter a = true) : a = b := by
  cases a <;> cases b <;> simp_all [notAfter]
  exact le_antisymm hab hba

end Component

variable {as bs cs : List Component}

/-- Of two paths one is not after the other. The first components that differ decide. -/
theorem notAfterComponents_total (as bs : List Component) :
    notAfterComponents as bs = true ∨ notAfterComponents bs as = true := by
  induction as generalizing bs with
  | nil => exact .inl rfl
  | cons a as ih =>
    cases bs with
    | nil => exact .inr rfl
    | cons b bs =>
      rw [notAfterComponents, notAfterComponents]
      -- Equal components decide nothing.
      by_cases h : a = b
      · rw [if_pos h, if_pos h.symm]
        exact ih bs
      · rw [if_neg h, if_neg (Ne.symm h)]
        exact Component.notAfter_total a b

/-- The order of paths by components is transitive. -/
theorem notAfterComponents_trans (hab : notAfterComponents as bs = true)
    (hbc : notAfterComponents bs cs = true) : notAfterComponents as cs = true := by
  induction as generalizing bs cs with
  | nil => rfl
  | cons a as ih =>
    cases bs with
    | nil => exact absurd hab (by simp [notAfterComponents])
    | cons b bs =>
      cases cs with
      | nil => exact absurd hbc (by simp [notAfterComponents])
      | cons c cs =>
        rw [notAfterComponents] at hab hbc ⊢
        -- The first components differ in one of the two pairs, in both, or in none.
        by_cases hb : a = b
        · subst hb
          rw [if_pos rfl] at hab
          split
          · rename_i hc
            rw [if_pos hc] at hbc
            exact ih hab hbc
          · rename_i hc
            rwa [if_neg hc] at hbc
        · rw [if_neg hb] at hab
          by_cases hc : b = c
          · subst hc
            rwa [if_neg hb]
          · rw [if_neg hc] at hbc
            have hac : a ≠ c := by
              rintro rfl
              exact hb (Component.notAfter_antisymm hab hbc)
            rw [if_neg hac]
            exact Component.notAfter_trans hab hbc

/-- Paths of which neither is after the other have the same components. -/
theorem notAfterComponents_antisymm (hab : notAfterComponents as bs = true)
    (hba : notAfterComponents bs as = true) : as = bs := by
  induction as generalizing bs with
  | nil =>
    cases bs with
    | nil => rfl
    | cons b bs => exact absurd hba (by simp [notAfterComponents])
  | cons a as ih =>
    cases bs with
    | nil => exact absurd hab (by simp [notAfterComponents])
    | cons b bs =>
      rw [notAfterComponents] at hab hba
      -- If the first components differed, one of them would be after the other.
      by_cases h : a = b
      · rw [if_pos h] at hab
        rw [if_pos h.symm] at hba
        rw [h, ih hab hba]
      · rw [if_neg h] at hab
        rw [if_neg (Ne.symm h)] at hba
        exact absurd (Component.notAfter_antisymm hab hba) h

/-- Paths that are not after each other have the same components. -/
theorem components_eq_of_notAfter {p q : Path} (hpq : p.notAfter q = true)
    (hqp : q.notAfter p = true) : p.components = q.components :=
  notAfterComponents_antisymm hpq hqp

/-- Sorting puts paths in their order. -/
theorem pairwise_mergeSort_notAfter (paths : List Path) :
    (paths.mergeSort notAfter).Pairwise fun p q => p.notAfter q = true := by
  have htrans : ∀ p q r : Path, p.notAfter q = true → q.notAfter r = true → p.notAfter r = true :=
    fun _ _ _ => notAfterComponents_trans
  have htotal : ∀ p q : Path, (p.notAfter q || q.notAfter p) = true := by
    intro p q
    rw [Bool.or_eq_true]
    exact notAfterComponents_total p.components q.components
  exact List.pairwise_mergeSort htrans htotal paths

/-- Lists of paths with the same members are sorted alike if no two of them have the same
components. -/
theorem mergeSort_eq_of_perm {paths paths' : List Path} (h : paths.Perm paths')
    (hinj : ∀ p ∈ paths, ∀ q ∈ paths, p.components = q.components → p = q) :
    paths.mergeSort notAfter = paths'.mergeSort notAfter := by
  have hperm : (paths.mergeSort notAfter).Perm (paths'.mergeSort notAfter) :=
    (List.mergeSort_perm _ _).trans (h.trans (List.mergeSort_perm _ _).symm)
  refine hperm.eq_of_pairwise ?_ (pairwise_mergeSort_notAfter _) (pairwise_mergeSort_notAfter _)
  intro p q hp hq hpq hqp
  exact hinj p ((List.mergeSort_perm _ _).mem_iff.mp hp) q
    (h.mem_iff.mpr ((List.mergeSort_perm _ _).mem_iff.mp hq)) (components_eq_of_notAfter hpq hqp)

end CodeAtlas.Path
