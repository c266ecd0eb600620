import CodeAtlas.FileId
import CodeAtlas.Proofs.Path.Components

/-!
# `CodeAtlas.Proofs.Path.Place`: where a path leads by name alone

`follow` walks through components without looking at any files: a name descends, and a `..`
climbs, or stays where there is nothing above. `Path.place` is where a path leads from the top.
The theorems:

* `follow_append`, `length_follow_le`: a walk goes on where its first part ends, and it is never
  deeper than it has names.
* `follow_eq_append_iff`: a walk passes through all of its names exactly if no `..` takes one
  away.
* `place_eq_iff`: an absolute path leads to its names exactly if it descends.
-/

set_option autoImplicit false

namespace CodeAtlas.Path

/-- Whether a component is a name. -/
def Component.isName : Component → Bool
  | .name _ => true
  | _ => false

/-- The names among components. -/
def namesOf (cs : List Component) : List (List Char) :=
  cs.filterMap FileId.nameOf?

/-- Where one component leads from a directory. Above the top there is nothing. -/
def stepInto (dir : List (List Char)) : Component → List (List Char)
  | .root => []
  | .current => dir
  | .parent => dir.dropLast
  | .name text => dir ++ [text]

/-- Where components lead from a directory. -/
def follow (dir : List (List Char)) (cs : List Component) : List (List Char) :=
  cs.foldl stepInto dir

/-- The names from the top of the file system down to where a path leads from there. -/
def place (p : Path) : List (List Char) :=
  follow [] p.components

/-- Whether no `..` of a path takes a name away, because none stands behind a name. -/
def Descends (p : Path) : Prop :=
  p.components.Pairwise fun a b => a.isName = true → b ≠ .parent

instance (p : Path) : Decidable p.Descends :=
  inferInstanceAs (Decidable (List.Pairwise _ _))

/-! ### Names -/

/-- The names of components in two parts are those of the parts. -/
theorem namesOf_append (a b : List Component) : namesOf (a ++ b) = namesOf a ++ namesOf b :=
  List.filterMap_append

/-! ### Walks -/

/-- Components may be followed in two parts, the second from where the first led. -/
theorem follow_append (dir : List (List Char)) (a b : List Component) :
    follow dir (a ++ b) = follow (follow dir a) b :=
  List.foldl_append

/-- A walk through names descends through all of them. -/
theorem follow_map_name (dir names : List (List Char)) :
    follow dir (names.map Component.name) = dir ++ names := by
  induction names generalizing dir with
  | nil => simp [follow]
  | cons name names ih =>
    have hrest := ih (dir ++ [name])
    rw [List.append_assoc] at hrest
    exact hrest

/-- A walk ends no deeper than it has names. -/
theorem length_follow_le (dir : List (List Char)) (cs : List Component) :
    (follow dir cs).length ≤ dir.length + (namesOf cs).length := by
  induction cs generalizing dir with
  | nil => simp [follow, namesOf]
  | cons c cs ih =>
    have hrest := ih (stepInto dir c)
    show (follow (stepInto dir c) cs).length ≤ _
    -- Only a name makes the walk deeper, and it is counted on the right.
    cases c with
    | root =>
      have hnames : namesOf (.root :: cs) = namesOf cs := rfl
      rw [hnames]
      simp only [stepInto, List.length_nil] at hrest ⊢
      omega
    | current => exact hrest
    | parent =>
      have hnames : namesOf (.parent :: cs) = namesOf cs := rfl
      rw [hnames]
      simp only [stepInto, List.length_dropLast] at hrest ⊢
      omega
    | name text =>
      have hnames : namesOf (.name text :: cs) = text :: namesOf cs := rfl
      rw [hnames, List.length_cons]
      simp only [stepInto, List.length_append, List.length_singleton] at hrest ⊢
      omega

/-- A walk passes through all of its names exactly if no `..` stands behind one of them, and none
stands anywhere if the walk does not start at the top. -/
theorem follow_eq_append_iff (dir : List (List Char)) {cs : List Component}
    (hroot : Component.root ∉ cs) :
    follow dir cs = dir ++ namesOf cs ↔
      (cs.Pairwise fun a b => a.isName = true → b ≠ .parent) ∧
        (dir ≠ [] → Component.parent ∉ cs) := by
  induction cs generalizing dir with
  | nil => simp [follow, namesOf]
  | cons c cs ih =>
    rw [List.mem_cons, not_or] at hroot
    have hstep : follow dir (c :: cs) = follow (stepInto dir c) cs := rfl
    rw [hstep, List.pairwise_cons, List.mem_cons, not_or]
    cases c with
    | root => exact absurd rfl hroot.1
    | current =>
      have hnames : namesOf (.current :: cs) = namesOf cs := rfl
      rw [hnames]
      refine (ih _ hroot.2).trans ?_
      simp [Component.isName, stepInto]
    | parent =>
      have hnames : namesOf (.parent :: cs) = namesOf cs := rfl
      rw [hnames]
      by_cases hdir : dir = []
      · rw [hdir]
        refine (ih _ hroot.2).trans ?_
        simp [Component.isName, stepInto]
      · -- The walk is one directory higher, and its names cannot make up for that.
        refine iff_of_false ?_ fun h => (h.2 hdir).1 rfl
        intro heq
        have hle := length_follow_le (stepInto dir .parent) cs
        have hpos := List.length_pos_iff.mpr hdir
        rw [heq, List.length_append, stepInto, List.length_dropLast] at hle
        omega
    | name text =>
      have hnames : namesOf (.name text :: cs) = [text] ++ namesOf cs := rfl
      rw [hnames, ← List.append_assoc]
      refine (ih _ hroot.2).trans ?_
      have hne : stepInto dir (.name text) ≠ [] := by simp [stepInto]
      constructor
      · rintro ⟨hpair, hno⟩
        exact ⟨⟨fun b hb _ hparent => hno hne (hparent ▸ hb), hpair⟩,
          fun _ => ⟨by simp, hno hne⟩⟩
      · rintro ⟨⟨hno, hpair⟩, -⟩
        exact ⟨hpair, fun _ hmem => hno .parent hmem rfl rfl⟩

/-! ### Places of paths -/

/-- An absolute path leads to its names exactly if it descends. -/
theorem place_eq_iff {p : Path} (h : p.isAbsolute = true) :
    p.place = namesOf p.components ↔ p.Descends := by
  have hroot : Component.root ∉ bodyOf p.text.toList := fun hmem => inner_of_mem_bodyOf hmem
  rw [place, Descends, components_of_isAbsolute h, List.pairwise_cons]
  refine (follow_eq_append_iff [] hroot).trans ?_
  simp [Component.isName]

/-- A path without `..` descends. -/
theorem descends_of_not_mem {p : Path} (h : Component.parent ∉ p.components) : p.Descends := by
  rw [Descends, List.pairwise_iff_forall_sublist]
  intro a b hsub _ hparent
  exact h (hparent ▸ hsub.mem (by simp))

end CodeAtlas.Path
