import Mathlib.Data.List.Basic

/-!
# `CodeAtlas.Proofs.Outcomes`: lists whose members succeed or fail

Imports are linked or reported, chunks are embedded or reported. What becomes of each member of a
list is a sum: the left is what was made of it, the right is what is reported instead. All that was
made and all that is reported stand in the order of the list, and together they are as many as its
members (`length_made_add_length_reported`).
-/

set_option autoImplicit false

namespace CodeAtlas.Outcomes

variable {α β : Type}

/-- What was made, in order. -/
def made (outcomes : List (α ⊕ β)) : List α :=
  outcomes.filterMap Sum.getLeft?

/-- What is reported, in order. -/
def reported (outcomes : List (α ⊕ β)) : List β :=
  outcomes.filterMap Sum.getRight?

/-- Nothing is made of no outcomes. -/
@[simp] theorem made_nil : made ([] : List (α ⊕ β)) = [] := rfl

/-- Nothing is reported of no outcomes. -/
@[simp] theorem reported_nil : reported ([] : List (α ⊕ β)) = [] := rfl

/-- What was made stands in its place among what else was made. -/
@[simp] theorem made_inl_cons (a : α) (outcomes : List (α ⊕ β)) :
    made (.inl a :: outcomes) = a :: made outcomes := rfl

/-- A report is no part of what was made. -/
@[simp] theorem made_inr_cons (b : β) (outcomes : List (α ⊕ β)) :
    made (.inr b :: outcomes) = made outcomes := rfl

/-- What was made is no part of the reports. -/
@[simp] theorem reported_inl_cons (a : α) (outcomes : List (α ⊕ β)) :
    reported (.inl a :: outcomes) = reported outcomes := rfl

/-- A report stands in its place among the other reports. -/
@[simp] theorem reported_inr_cons (b : β) (outcomes : List (α ⊕ β)) :
    reported (.inr b :: outcomes) = b :: reported outcomes := rfl

/-- What is made of a list, element by element. This is the form in which builders gather edges. -/
theorem made_map {γ : Type} (f : γ → α ⊕ β) (xs : List γ) :
    made (xs.map f) = xs.flatMap fun c => (f c).getLeft?.toList := by
  rw [made, List.filterMap_map, List.filterMap_eq_flatMap_toList]
  rfl

/-- What is reported of a list, element by element. -/
theorem reported_map {γ : Type} (f : γ → α ⊕ β) (xs : List γ) :
    reported (xs.map f) = xs.flatMap fun c => (f c).getRight?.toList := by
  rw [reported, List.filterMap_map, List.filterMap_eq_flatMap_toList]
  rfl

/-- Something was made if it is one of the outcomes. -/
theorem mem_made {a : α} {outcomes : List (α ⊕ β)} : a ∈ made outcomes ↔ .inl a ∈ outcomes := by
  simp [made]

/-- Something was reported if it is one of the outcomes. -/
theorem mem_reported {b : β} {outcomes : List (α ⊕ β)} :
    b ∈ reported outcomes ↔ .inr b ∈ outcomes := by
  simp [reported]

/-- What is made of a member may keep something that the member has. -/
theorem map_made_map_sublist {γ κ : Type} {f : γ → α ⊕ β} {kept : α → κ} {has : γ → κ}
    (h : ∀ c a, f c = .inl a → kept a = has c) {xs : List γ} :
    ((made (xs.map f)).map kept).Sublist (xs.map has) := by
  induction xs with
  | nil => simp
  | cons c rest ih =>
    cases hc : f c with
    | inl a => simp [hc, h c a hc, ih]
    | inr b => simpa [hc] using ih.cons (has c)

/-- Each member is made into something or reported, and not both. -/
theorem length_made_add_length_reported (outcomes : List (α ⊕ β)) :
    (made outcomes).length + (reported outcomes).length = outcomes.length := by
  induction outcomes with
  | nil => rfl
  | cons outcome rest ih =>
    cases outcome with
    | inl a => simp; omega
    | inr b => simp; omega

end CodeAtlas.Outcomes
