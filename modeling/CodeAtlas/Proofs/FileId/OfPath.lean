import CodeAtlas.Proofs.FileId.Ancestors
import CodeAtlas.Proofs.Path.Place

/-!
# `CodeAtlas.Proofs.FileId.OfPath`: the file that an id was made from

An id is glued from the names that stand behind the root in the components of a path, and what
is no name is passed over. The theorems:

* `ofPath?_eq_some_iff`: which paths have an id, and which.
* `relative_of_ofPath?`: the id of a path does not begin with a slash, because it is glued
  from names and no name is empty or has a slash.
* `components_join_ofPath?`: an id behind its root is the root followed by these names.
* `ofPath?_denotes_iff`: the path of an id leads to the file of that id in the project exactly if
  it descends. Paths that descend have no id outside of the project, and the same id only if
  they lead to the same file.
-/

set_option autoImplicit false

namespace CodeAtlas.FileId

/-- A path has an id if it begins with the root and has a name behind it, and the id is glued
from all names behind the root. -/
theorem ofPath?_eq_some_iff {root path : Path} {id : FileId} :
    ofPath? root path = some id ↔ ∃ rest, path.components = root.components ++ rest ∧
      Path.namesOf rest ≠ [] ∧ id = String.ofList (Text.glue '/' (Path.namesOf rest)) := by
  rw [ofPath?]
  constructor
  · intro h
    split at h
    · exact absurd h (by simp)
    · rename_i rest hrest
      split at h
      · exact absurd h (by simp)
      · rename_i hne
        exact ⟨rest, Path.componentsBehind?_eq_some_iff.mp hrest, hne, (Option.some.inj h).symm⟩
  · rintro ⟨rest, hrest, hne, rfl⟩
    rw [Path.componentsBehind?_eq_some_iff.mpr hrest]
    -- The definition tells the empty list of names from the others, so the names are taken apart.
    cases hnames : Path.namesOf rest with
    | nil => exact absurd hnames hne
    | cons first others =>
      rw [Path.namesOf] at hnames
      simp only [hnames]

/-- A path has no id if it does not begin with the root, or has no name behind it. -/
theorem ofPath?_eq_none_iff {root path : Path} :
    ofPath? root path = none ↔
      ∀ rest, path.components = root.components ++ rest → Path.namesOf rest = [] := by
  constructor
  · intro hnone rest hrest
    by_contra hne
    have hsome := ofPath?_eq_some_iff.mpr ⟨rest, hrest, hne, rfl⟩
    simp [hnone] at hsome
  · intro h
    by_contra hsome
    obtain ⟨id, hid⟩ := Option.ne_none_iff_exists'.mp hsome
    obtain ⟨rest, hrest, hne, -⟩ := ofPath?_eq_some_iff.mp hid
    exact hne (h rest hrest)

/-- A name among the components of a path is a name in a body. -/
theorem inner_of_mem_namesOf {p : Path} {before rest : List Path.Component}
    (h : p.components = before ++ rest) {name : List Char} (hname : name ∈ Path.namesOf rest) :
    (Path.Component.name name).Inner := by
  obtain ⟨c, hc, hname⟩ := List.mem_filterMap.mp hname
  obtain rfl : c = .name name := by
    cases c <;> simp_all [nameOf?]
  exact Path.inner_of_name_mem (h ▸ List.mem_append_right before hc)

/-- The id of a path does not begin with a slash. -/
theorem relative_of_ofPath? {root path : Path} {id : FileId} (h : ofPath? root path = some id) :
    Relative id := by
  obtain ⟨rest, hrest, hne, rfl⟩ := ofPath?_eq_some_iff.mp h
  obtain ⟨first, others, hnames⟩ := List.exists_cons_of_ne_nil hne
  -- The first name is not empty and has no slash, and the id begins with it.
  have hfirst := inner_of_mem_namesOf hrest (hnames ▸ List.mem_cons_self)
  obtain ⟨tail, hglue⟩ := Text.exists_glue_cons '/' first others
  rw [Relative, hnames, String.toList_ofList, hglue, List.head?_append_of_ne_nil _ hfirst.1]
  exact fun hhead => hfirst.2.2.2 (List.mem_of_mem_head? hhead)

/-- An id behind its root is a path of the root's components and the names behind the root. -/
theorem components_join_ofPath? {root path : Path} {rest : List Path.Component}
    (habs : root.isAbsolute = true) (hrest : path.components = root.components ++ rest) :
    (root.join ⟨String.ofList (Text.glue '/' (Path.namesOf rest))⟩).components
      = root.components ++ (Path.namesOf rest).map .name :=
  Path.components_join_glue (Path.text_ne_of_isAbsolute habs) fun _ hname =>
    inner_of_mem_namesOf hrest hname

/-- **An id denotes the file that it was made from exactly if the path descends.** Take an
absolute root without `..`. The path of an id leads, by name alone, to the id behind the root
exactly if none of its `..` takes a name away. Among the paths for which that holds, those that
are not below the root have no id, and two that have the same id lead to the same file. -/
theorem ofPath?_denotes_iff (root : Path) (habs : root.isAbsolute = true)
    (hroot : Path.Component.parent ∉ root.components) :
    (∀ path id, ofPath? root path = some id →
      (path.place = (root.join ⟨id⟩).place ↔ path.Descends)) ∧
    (∀ path : Path, path.Descends →
      ¬(path.isAbsolute = true ∧ root.place <+: path.place) → ofPath? root path = none) ∧
    ∀ (p q : Path) (id : FileId), p.Descends → q.Descends → ofPath? root p = some id →
      ofPath? root q = some id → p.place = q.place := by
  have hplace : root.place = Path.namesOf root.components :=
    (Path.place_eq_iff habs).mpr (Path.descends_of_not_mem hroot)
  -- The id behind the root leads to the names of the path's components.
  have hjoin : ∀ path id, ofPath? root path = some id → path.isAbsolute = true ∧
      (root.join ⟨id⟩).place = Path.namesOf path.components ∧
        root.place <+: (root.join ⟨id⟩).place := by
    intro path id h
    obtain ⟨rest, hrest, hne, rfl⟩ := ofPath?_eq_some_iff.mp h
    have hfollow : (root.join ⟨String.ofList (Text.glue '/' (Path.namesOf rest))⟩).place
        = root.place ++ Path.namesOf rest := by
      rw [Path.place, components_join_ofPath? habs hrest, Path.follow_append,
        Path.follow_map_name]
      rfl
    refine ⟨?_, ?_, hfollow ▸ List.prefix_append _ _⟩
    · rw [Path.components_of_isAbsolute habs] at hrest
      exact Path.isAbsolute_of_components hrest
    · rw [hfollow, hplace, hrest, Path.namesOf_append]
  have hdenotes : ∀ path id, ofPath? root path = some id →
      (path.place = (root.join ⟨id⟩).place ↔ path.Descends) := by
    intro path id h
    obtain ⟨hpath, hnames, -⟩ := hjoin path id h
    rw [hnames]
    exact Path.place_eq_iff hpath
  refine ⟨hdenotes, ?_, ?_⟩
  · intro path hdescends houtside
    by_contra hsome
    obtain ⟨id, hid⟩ := Option.ne_none_iff_exists'.mp hsome
    obtain ⟨hpath, -, hbelow⟩ := hjoin path id hid
    rw [← (hdenotes path id hid).mpr hdescends] at hbelow
    exact houtside ⟨hpath, hbelow⟩
  · intro p q id hp hq hpid hqid
    rw [(hdenotes p id hpid).mpr hp, (hdenotes q id hqid).mpr hq]

/-- A path with a `..` at a harmless place: before any name, at the top of the file system. Its
id leads where it leads, and a path beside the root has none. -/
theorem ofPath?_denotes_iff_top :
    (⟨"/../src//a.js"⟩ : Path).place = ((⟨"/"⟩ : Path).join ⟨"src/a.js"⟩).place ∧
      ofPath? ⟨"/repo"⟩ ⟨"/repository/a.js"⟩ = none ∧
        (⟨"/repo/./a.js"⟩ : Path).place = (⟨"/repo//a.js"⟩ : Path).place := by
  have htop := ofPath?_denotes_iff ⟨"/"⟩ (by decide) (by decide)
  have hrepo := ofPath?_denotes_iff ⟨"/repo"⟩ (by decide) (by decide)
  refine ⟨?_, ?_, ?_⟩
  · exact (htop.1 _ _ (by decide)).mpr (by decide)
  · exact hrepo.2.1 _ (by decide) (by decide)
  · exact hrepo.2.2 _ _ "a.js" (by decide) (by decide) (by decide) (by decide)

/-- A path that climbs out of the root has an id nevertheless, and two paths that lead to
different files share one. -/
theorem ofPath?_denotes_fails :
    ofPath? ⟨"/repo"⟩ ⟨"/repo/../etc/passwd"⟩ = some "etc/passwd" ∧
      (⟨"/repo/../etc/passwd"⟩ : Path).place ≠ ((⟨"/repo"⟩ : Path).join ⟨"etc/passwd"⟩).place ∧
      ¬(⟨"/repo"⟩ : Path).place <+: (⟨"/repo/../etc/passwd"⟩ : Path).place ∧
      ofPath? ⟨"/repo"⟩ ⟨"/repo/a/../b.js"⟩ = ofPath? ⟨"/repo"⟩ ⟨"/repo/a/b.js"⟩ ∧
      (⟨"/repo/a/../b.js"⟩ : Path).place ≠ (⟨"/repo/a/b.js"⟩ : Path).place := by
  decide

end CodeAtlas.FileId
