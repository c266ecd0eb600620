import CodeAtlas.Proofs.Files.Entry
import CodeAtlas.Proofs.Path.Components
import Mathlib.Data.List.Nodup

/-!
# `CodeAtlas.Proofs.Files.Proper`: trees as a file system has them

In a proper tree no directory has two entries of one name, and every name is one that a path can
have. The theorems:

* `Entry.byMembers`: the induction over a tree, with the members of a directory at hand.
* `Proper.lookup_eq_some_iff`: the names of a directory tell its entries.
* `Proper.put`: a tree stays proper if a proper one is put at a place of proper names.
-/

set_option autoImplicit false

namespace CodeAtlas

/-- Whether a name stands for itself in a path. -/
def EntryName.Proper (name : EntryName) : Prop :=
  (Path.Component.name name).Inner

namespace Entry

/-- What holds of a directory if it holds of its entries, and of everything else, holds of every
tree. The induction that Lean derives for the nested type gives less: its hypothesis is about the
list of the members. -/
@[elab_as_elim]
theorem byMembers {motive : Entry → Prop} (file : ∀ content, motive (.file content))
    (directory : ∀ entries, (∀ name e, (name, e) ∈ entries → motive e) →
      motive (.directory entries))
    (closed : motive .closed) (link : ∀ target, motive (.link target)) (device : motive .device)
    (e : Entry) : motive e := by
  -- The recursor of the nested type has a motive for each of its three layers. The lists are taken
  -- to hold the motive for all their members, which is what a caller wants.
  refine Entry.rec (motive_1 := motive)
    (motive_2 := fun entries => ∀ name e, (name, e) ∈ entries → motive e)
    (motive_3 := fun member => motive member.2) file directory closed link device ?_ ?_ ?_ e
  · exact fun name e h => absurd h List.not_mem_nil
  · intro head tail hhead htail name e h
    rcases List.mem_cons.mp h with rfl | h
    · exact hhead
    · exact htail name e h
  · exact fun _ _ h => h

/-- Whether the entries of every directory have names of their own, all of them proper. -/
def Proper (e : Entry) : Prop :=
  ∀ place entries, e.at? place = some (.directory entries) →
    (entries.map Prod.fst).Nodup ∧ ∀ name ∈ entries.map Prod.fst, EntryName.Proper name

namespace Proper

variable {e x : Entry} {name : EntryName} {entries : List (EntryName × Entry)} {place : Place}

/-- What is in a proper tree is proper. -/
theorem at? (h : e.Proper) (hx : e.at? place = some x) : x.Proper := by
  intro rest entries hrest
  refine h (place ++ rest) entries ?_
  rw [at?_append, hx, Option.bind_some, hrest]

/-- What is no directory has no names in it, so it is proper. -/
theorem of_not_directory (h : ∀ entries, e ≠ .directory entries) : e.Proper := by
  intro place entries hplace
  cases place with
  | nil => exact absurd (Option.some.inj ((at?_nil e).symm.trans hplace)) (h entries)
  | cons name rest =>
    obtain ⟨others, -, rfl, -⟩ := exists_directory_of_at?_cons hplace
    exact absurd rfl (h others)

/-- The entries of a directory are those that its names lead to. -/
theorem lookup_eq_some_iff (h : (directory entries).Proper) :
    entries.lookup name = some x ↔ (name, x) ∈ entries := by
  have hnodup := (h [] entries (at?_nil _)).1
  clear h
  induction entries with
  | nil => simp
  | cons m entries ih =>
    obtain ⟨n, e⟩ := m
    rw [List.map_cons, List.nodup_cons] at hnodup
    rw [List.lookup_cons, List.mem_cons, Prod.mk.injEq]
    by_cases hn : name = n
    · subst hn
      -- The name does not occur behind its entry.
      have hbehind : (name, x) ∉ entries := fun hmem =>
        hnodup.1 (List.mem_map.mpr ⟨_, hmem, rfl⟩)
      simp [hbehind, eq_comm]
    · rw [beq_false_of_ne hn]
      simpa [hn] using ih hnodup.2

/-- The members of a proper directory are proper. -/
theorem of_mem (h : (directory entries).Proper) (hx : (name, x) ∈ entries) : x.Proper := by
  have hat : (directory entries).at? [name] = some x := by
    rw [at?_directory_cons, h.lookup_eq_some_iff.mpr hx, Option.bind_some, at?_nil]
  exact h.at? hat

/-- The names on the way to an entry are proper. -/
theorem name_of_at? (h : e.Proper) (hx : e.at? place = some x) :
    ∀ name ∈ place, EntryName.Proper name := by
  induction place generalizing e with
  | nil => exact fun _ h => absurd h List.not_mem_nil
  | cons first rest ih =>
    obtain ⟨entries, old, rfl, hold, hrest⟩ := exists_directory_of_at?_cons hx
    have hmem := h.lookup_eq_some_iff.mp hold
    rw [List.forall_mem_cons]
    exact ⟨(h [] entries (at?_nil _)).2 first (List.mem_map.mpr ⟨_, hmem, rfl⟩),
      ih (h.of_mem hmem) hrest⟩

/-! ### Changes -/

/-- A directory is proper if its names are and its members are. -/
theorem directory_iff :
    (directory entries).Proper ↔ (entries.map Prod.fst).Nodup ∧
      (∀ name ∈ entries.map Prod.fst, EntryName.Proper name) ∧
        ∀ name x, (name, x) ∈ entries → x.Proper := by
  constructor
  · intro h
    obtain ⟨hnodup, hnames⟩ := h [] entries (at?_nil _)
    exact ⟨hnodup, hnames, fun name x hx => h.of_mem hx⟩
  · rintro ⟨hnodup, hnames, hmembers⟩ place others hplace
    -- The place of a directory is the top, or it lies below one member.
    cases place with
    | nil =>
      obtain rfl := Entry.directory.inj (Option.some.inj ((at?_nil _).symm.trans hplace))
      exact ⟨hnodup, hnames⟩
    | cons name rest =>
      obtain ⟨_, old, heq, hold, hrest⟩ := exists_directory_of_at?_cons hplace
      obtain rfl := Entry.directory.inj heq
      obtain ⟨before, behind, rfl, -⟩ := List.lookup_eq_some_iff.mp hold
      exact hmembers name old (by simp) rest others hrest

/-- Putting something under a name adds the name if it is new, and otherwise no name. So the names
of a directory stay distinct. -/
theorem map_fst_putName (name : EntryName) (new : Entry) (entries : List (EntryName × Entry)) :
    (putName name new entries).map Prod.fst =
      if name ∈ entries.map Prod.fst then entries.map Prod.fst
      else entries.map Prod.fst ++ [name] := by
  induction entries with
  | nil => rfl
  | cons m entries ih =>
    obtain ⟨n, old⟩ := m
    rw [putName]
    -- The name is found here, further behind, or nowhere and then it comes last.
    by_cases hn : n = name
    · simp [hn]
    · rw [if_neg hn, List.map_cons, ih]
      by_cases hmem : name ∈ entries.map Prod.fst
      · simp [hmem]
      · simp [hmem, Ne.symm hn]

/-- The entries behind a change are the new one and old ones. -/
theorem mem_putName {new : Entry} {other : EntryName} (h : (other, x) ∈ putName name new entries) :
    x = new ∨ (other, x) ∈ entries := by
  induction entries with
  | nil => exact .inl (Prod.mk.inj (List.mem_singleton.mp h)).2
  | cons m entries ih =>
    obtain ⟨n, old⟩ := m
    rw [putName] at h
    -- Where the name is found its entry is replaced, and the members behind it are left alone.
    split at h
    · rcases List.mem_cons.mp h with heq | h
      · exact .inl (Prod.mk.inj heq).2
      · exact .inr (List.mem_cons_of_mem _ h)
    · rcases List.mem_cons.mp h with heq | h
      · exact .inr (heq ▸ List.mem_cons_self)
      · exact (ih h).imp_right (List.mem_cons_of_mem _)

/-- A tree stays proper if a proper one is put at a place of proper names. -/
theorem put {new : Entry} (h : e.Proper) (hnew : new.Proper)
    (hplace : ∀ name ∈ place, EntryName.Proper name) : (Entry.put new e place).Proper := by
  induction place generalizing e with
  | nil => rwa [Entry.put]
  | cons name rest ih =>
    rw [List.forall_mem_cons] at hplace
    cases e with
    | directory entries =>
      obtain ⟨hnodup, hnames, hmembers⟩ := directory_iff.mp h
      -- What is put below a name that is not there goes into an empty directory.
      have hold : ((entries.lookup name).getD (.directory [])).Proper := by
        cases hlookup : entries.lookup name with
        | none => exact directory_iff.mpr (by simp)
        | some old => exact h.of_mem (h.lookup_eq_some_iff.mp hlookup)
      rw [Entry.put, directory_iff, map_fst_putName]
      refine ⟨?_, ?_, ?_⟩
      · split
        · exact hnodup
        · rename_i hfresh
          exact List.nodup_append.mpr ⟨hnodup, List.nodup_singleton _, fun a ha b hb heq =>
            hfresh (by rwa [← List.mem_singleton.mp hb, ← heq])⟩
      · split
        · exact hnames
        · simpa [or_imp, forall_and, hplace.1] using hnames
      · intro other x hx
        rcases mem_putName hx with rfl | hx
        · exact ih hold hplace.2
        · exact hmembers other x hx
    | _ => exact h

end Proper

end Entry

end CodeAtlas
