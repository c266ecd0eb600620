import Mathlib.Data.List.Nodup

/-!
# `CodeAtlas.Proofs.Keys`: lists whose members are told by keys

Nodes are found by their ids, groups by their files, fields by their names. Where no two members
have the same key, finding a key and being the member with that key is the same
(`find?_eq_some_iff_of_nodup`), in whatever order the list stands (`find?_eq_of_perm`). Keys with
their repeats erased are told apart (`nodup_eraseDups`).
-/

set_option autoImplicit false

namespace CodeAtlas

variable {α κ : Type} [DecidableEq κ] {key : α → κ} {xs ys : List α} {k : κ} {a : α}

/-- The first member with a key is the only one, if keys tell the members. -/
theorem find?_eq_some_iff_of_nodup (hnodup : (xs.map key).Nodup) :
    xs.find? (fun b => key b = k) = some a ↔ a ∈ xs ∧ key a = k := by
  constructor
  · intro h
    exact ⟨List.mem_of_find?_eq_some h, by simpa using List.find?_some h⟩
  · rintro ⟨ha, rfl⟩
    obtain ⟨b, hb⟩ : ∃ b, xs.find? (fun b => key b = key a) = some b :=
      Option.isSome_iff_exists.mp (List.find?_isSome.mpr ⟨a, ha, by simp⟩)
    have hkey : key b = key a := by simpa using List.find?_some hb
    rw [hb, List.inj_on_of_nodup_map hnodup (List.mem_of_find?_eq_some hb) ha hkey]

/-- In another order the same member is found. -/
theorem find?_eq_of_perm (hnodup : (xs.map key).Nodup) (h : ys.Perm xs) :
    ys.find? (fun b => key b = k) = xs.find? fun b => key b = k := by
  have hnodup' : (ys.map key).Nodup := (h.map key).nodup_iff.mpr hnodup
  refine Option.ext fun a => ?_
  rw [find?_eq_some_iff_of_nodup hnodup', find?_eq_some_iff_of_nodup hnodup, h.mem_iff]

/-- Erasing repeats leaves none. -/
theorem nodup_eraseDups (ks : List κ) : ks.eraseDups.Nodup := by
  -- What is behind the first key is erased from a list without this key, which may be shorter.
  induction hlength : ks.length using Nat.strongRecOn generalizing ks with
  | ind n ih =>
    cases ks with
    | nil => simp
    | cons k ks =>
      have hshorter := List.length_filter_le (fun l => !l == k) ks
      rw [List.length_cons] at hlength
      rw [List.eraseDups_cons, List.nodup_cons]
      exact ⟨by simp, ih _ (by omega) _ rfl⟩

end CodeAtlas
