import CodeAtlas.Proofs.Path.Place
import Mathlib.Data.List.Infix

/-!
# `CodeAtlas.Proofs.Path.Resolve`: what is left of a path when it is normalized

Normalizing a path by name alone lets each `..` take the component before it away. A `..` that finds
nothing to take stays, and from then on it is itself a component that can be taken: the second one
that climbs above the start takes the first away, the third one stays again. So of all the levels
that a path climbs (`climb`), at most one `..` is left (`components_resolve_of_relative`,
`components_resolve_of_absolute`), and behind it stand the names that no `..` takes away.

`resolve_keeps_iff` says when this keeps what the path denotes: if a relative path climbs at most
one level above its start, and an absolute one an even number of levels above the top.
-/

set_option autoImplicit false

namespace CodeAtlas.Path

/-! ### Climbing -/

/-- By how much `..` outnumber names among components. -/
def excess (cs : List Component) : Nat :=
  cs.count .parent - (namesOf cs).length

/-- By how much `..` outnumber names at most in a first part of components. -/
def climbOf (cs : List Component) : Nat :=
  (cs.inits.map excess).foldl max 0

/-- How many levels a path climbs above its start. -/
def climb (p : Path) : Nat :=
  climbOf p.components

/-- The components that climb some levels first and then descend through names. -/
def ascent (levels : Nat) (names : List (List Char)) : List Component :=
  List.replicate levels .parent ++ names.map .name

variable {cs : List Component}

/-- How far a path climbs is the most by which its `..` exceed its names, over all fronts of it. One
more component adds one more front. -/
theorem climbOf_concat (cs : List Component) (c : Component) :
    climbOf (cs ++ [c]) = max (climbOf cs) (excess (cs ++ [c])) := by
  simp [climbOf, List.inits_append, List.foldl_append]

/-- The last component is followed from where the others led. -/
theorem follow_concat (dir : List (List Char)) (cs : List Component) (c : Component) :
    follow dir (cs ++ [c]) = stepInto (follow dir cs) c :=
  follow_append dir cs [c]

/-- A last component adds to the number of `..` if it is one. -/
theorem count_parent_concat (cs : List Component) (c : Component) :
    (cs ++ [c]).count .parent = cs.count .parent + if c = .parent then 1 else 0 := by
  rw [List.count_append]
  cases c <;> rfl

/-- A last component adds to the number of names if it is one. -/
theorem length_namesOf_concat (cs : List Component) (c : Component) :
    (namesOf (cs ++ [c])).length = (namesOf cs).length + if c.isName then 1 else 0 := by
  rw [namesOf_append, List.length_append]
  cases c <;> rfl

/-- The names that are left and the `..` are as many as the names of a walk and the levels that it
climbs. -/
theorem length_follow_add (hroot : Component.root ∉ cs) :
    (follow [] cs).length + cs.count .parent = (namesOf cs).length + climbOf cs := by
  -- A walk goes from the front, so the induction takes the last component away: what comes before
  -- it is the walk so far.
  induction cs using List.reverseRecOn with
  | nil => rfl
  | append_singleton cs c ih =>
    rw [List.mem_append, not_or, List.mem_singleton] at hroot
    have hcs := ih hroot.1
    rw [climbOf_concat, excess, follow_concat, count_parent_concat, length_namesOf_concat]
    cases c with
    | root => exact absurd rfl hroot.2
    | current =>
      simp only [stepInto, Component.isName, reduceCtorEq, Bool.false_eq_true, if_false]
      omega
    | parent =>
      simp only [stepInto, Component.isName, Bool.false_eq_true, if_true, if_false,
        List.length_dropLast]
      omega
    | name text =>
      simp only [stepInto, Component.isName, reduceCtorEq, if_true, if_false, List.length_append,
        List.length_singleton]
      omega

/-- A walk climbs one level more where a `..` finds no name left to take away. -/
theorem climbOf_concat_parent (hroot : Component.root ∉ cs) :
    climbOf (cs ++ [.parent]) = if follow [] cs = [] then climbOf cs + 1 else climbOf cs := by
  have hcs := length_follow_add hroot
  rw [climbOf_concat, excess, count_parent_concat, length_namesOf_concat]
  simp only [Component.isName, Bool.false_eq_true, if_true, if_false]
  split
  · rename_i hnone
    rw [hnone, List.length_nil] at hcs
    omega
  · rename_i hsome
    have hpos := List.length_pos_iff.mpr hsome
    omega

/-- Only a `..` can make a path climb farther. -/
theorem climbOf_concat_of_ne {c : Component} (hroot : Component.root ∉ cs) (hc : c ≠ .parent) :
    climbOf (cs ++ [c]) = climbOf cs := by
  have hcs := length_follow_add hroot
  rw [climbOf_concat, excess, count_parent_concat, length_namesOf_concat, if_neg hc]
  omega

/-- A walk takes as many of the directory's names away as it climbs, and then passes through the
names that are left of its own. -/
theorem follow_eq_take_append (dir : List (List Char)) (hroot : Component.root ∉ cs) :
    follow dir cs = dir.take (dir.length - climbOf cs) ++ follow [] cs := by
  -- As in `length_follow_add`, the last component is the last step.
  induction cs using List.reverseRecOn with
  | nil => simp [follow, climbOf, excess, namesOf]
  | append_singleton cs c ih =>
    rw [List.mem_append, not_or, List.mem_singleton] at hroot
    rw [follow_concat, follow_concat, ih hroot.1]
    cases c with
    | root => exact absurd rfl hroot.2
    | current => rw [climbOf_concat_of_ne hroot.1 (by simp)]; rfl
    | parent =>
      rw [climbOf_concat_parent hroot.1]
      simp only [stepInto]
      split
      · -- No name of its own is left, so the last one that is left of the directory goes.
        rename_i hnone
        rw [hnone, List.append_nil, List.dropLast_nil, List.append_nil, List.dropLast_eq_take,
          List.take_take, List.length_take]
        congr 1
        omega
      · rename_i hsome
        rw [List.dropLast_append_of_ne_nil hsome]
    | name text =>
      rw [climbOf_concat_of_ne hroot.1 (by simp)]
      exact List.append_assoc _ _ _

/-! ### What is left -/

/-- A `..` takes the component before it away, be it a name or another `..`. -/
theorem resolveStep_concat_parent {c : Component} (hc : c ≠ .root) (done : List Component) :
    resolveStep (done ++ [c]) .parent = done := by
  rw [resolveStep, List.getLast?_concat, List.dropLast_concat]
  cases c with
  | root => exact absurd rfl hc
  | current => rfl
  | parent => rfl
  | name text => rfl

/-- A `..` stays if there is nothing before it, or the root only. -/
theorem resolveStep_parent {front : List Component} (hfront : front = [] ∨ front = [.root]) :
    resolveStep front .parent = front ++ [.parent] := by
  rcases hfront with rfl | rfl <;> rfl

/-- What is left of components behind a root, or behind nothing: a `..` if they climb an odd number
of levels, and the names that no `..` takes away. -/
theorem foldl_resolveStep {front : List Component} (hfront : front = [] ∨ front = [.root])
    (hroot : Component.root ∉ cs) :
    cs.foldl resolveStep front = front ++ ascent (climbOf cs % 2) (follow [] cs) := by
  simp only [ascent]
  induction cs using List.reverseRecOn with
  | nil => simp [follow, climbOf, excess, namesOf]
  | append_singleton cs c ih =>
    rw [List.mem_append, not_or, List.mem_singleton] at hroot
    rw [List.foldl_append, ih hroot.1, follow_concat, List.foldl_cons, List.foldl_nil]
    cases c with
    | root => exact absurd rfl hroot.2
    | current =>
      rw [climbOf_concat_of_ne hroot.1 (by simp)]
      rfl
    | parent =>
      rw [climbOf_concat_parent hroot.1, stepInto]
      split
      · rename_i hnone
        rw [hnone, List.dropLast_nil, List.map_nil, List.append_nil, List.append_nil]
        -- Nothing is left but the `..` of an odd number of levels. It is taken away, or comes.
        rcases Nat.mod_two_eq_zero_or_one (climbOf cs) with heven | hodd
        · have hnext : (climbOf cs + 1) % 2 = 1 := by omega
          rw [heven, hnext]
          simpa using resolveStep_parent hfront
        · have hnext : (climbOf cs + 1) % 2 = 0 := by omega
          rw [hodd, hnext]
          simpa using resolveStep_concat_parent (c := .parent) (by simp) front
      · rename_i hsome
        obtain ⟨above, name, hlast⟩ := (List.eq_nil_or_concat (follow [] cs)).resolve_left hsome
        rw [hlast, List.concat_eq_append, List.dropLast_concat, List.map_append, List.map_singleton,
          ← List.append_assoc, ← List.append_assoc, resolveStep_concat_parent (by simp),
          List.append_assoc]
    | name text =>
      rw [climbOf_concat_of_ne hroot.1 (by simp)]
      simp [resolveStep, stepInto]

/-- A walk has no other names than the directory and its components. -/
theorem mem_follow {dir : List (List Char)} {name : List Char} (h : name ∈ follow dir cs) :
    name ∈ dir ∨ Component.name name ∈ cs := by
  induction cs using List.reverseRecOn with
  | nil => exact .inl h
  | append_singleton cs c ih =>
    rw [follow_concat] at h
    -- One step brings in at most its own name.
    have hstep : name ∈ follow dir cs ∨ Component.name name = c := by
      cases c with
      | root => exact absurd h List.not_mem_nil
      | current => exact .inl h
      | parent => exact .inl (List.mem_of_mem_dropLast h)
      | name text => simpa [stepInto, eq_comm] using h
    rcases hstep with hbefore | rfl
    · exact (ih hbefore).imp_right (List.mem_append_left _)
    · simp

/-! ### Whole paths -/

variable {p : Path}

/-- The root in front of components is nothing to climb. -/
theorem climbOf_root_cons (cs : List Component) : climbOf (.root :: cs) = climbOf cs := by
  have hexcess : ∀ start : List Component, excess (.root :: start) = excess start := by
    intro start
    have hnames : namesOf (.root :: start) = namesOf start := rfl
    rw [excess, hnames, List.count_cons_of_ne (by simp), excess]
  have hfirst : excess [] = 0 := rfl
  simp [climbOf, Function.comp_def, hexcess, hfirst]

/-- The names to which a path leads are among its components. -/
theorem inner_of_mem_left (p : Path) :
    ∀ c ∈ ascent (p.climb % 2) p.place, c.Inner := by
  intro c hc
  rcases List.mem_append.mp hc with hc | hc
  · rw [List.eq_of_mem_replicate hc]
    exact trivial
  · obtain ⟨name, hname, rfl⟩ := List.mem_map.mp hc
    exact inner_of_name_mem ((mem_follow hname).resolve_left List.not_mem_nil)

/-- Of a relative path the names to which it leads are left, and a `..` if it climbs an odd number
of levels. -/
theorem components_resolve_of_relative (h : p.isAbsolute = false) :
    p.resolve.components = ascent (p.climb % 2) p.place := by
  rw [resolve, resolveComponents, foldl_resolveStep (.inl rfl) (root_not_mem_components h)]
  exact components_ofComponents_append (.inl rfl) (inner_of_mem_left p)

/-- Of an absolute path the same is left behind the root. -/
theorem components_resolve_of_absolute (h : p.isAbsolute = true) :
    p.resolve.components = .root :: ascent (p.climb % 2) p.place := by
  have hclimb : climbOf (bodyOf p.text.toList) = p.climb := by
    rw [climb, components_of_isAbsolute h, climbOf_root_cons]
  have hplace : follow [] (bodyOf p.text.toList) = p.place := by
    rw [place, components_of_isAbsolute h]
    rfl
  rw [resolve, resolveComponents, components_of_isAbsolute h, List.foldl_cons]
  rw [resolveStep, foldl_resolveStep (.inr rfl) (root_not_mem_bodyOf _), hclimb, hplace]
  exact components_ofComponents_append (.inr rfl) (inner_of_mem_left p)

/-- Levels that are climbed take away as many names, as far as there are any. -/
theorem follow_ascent (dir : List (List Char)) (levels : Nat) (names : List (List Char)) :
    follow dir (ascent levels names) = dir.take (dir.length - levels) ++ names := by
  have hclimb : follow dir (List.replicate levels .parent) = dir.take (dir.length - levels) := by
    induction levels with
    | zero => simp [follow]
    | succ levels ih =>
      rw [List.replicate_succ', follow_concat, ih, stepInto, List.dropLast_eq_take, List.take_take,
        List.length_take]
      congr 1
      omega
  rw [ascent, follow_append, hclimb, follow_map_name]

/-- An ascent has as many `..` as levels, for none of its names is one. -/
theorem count_parent_ascent (levels : Nat) (names : List (List Char)) :
    (ascent levels names).count .parent = levels := by
  have hnone : (names.map Component.name).count .parent = 0 :=
    List.count_eq_zero.mpr fun h => by simp at h
  rw [ascent, List.count_append, List.count_replicate_self, hnone, Nat.add_zero]

/-- **Normalizing keeps what a path denotes exactly if it does not climb too far.** A relative path
becomes as many `..` as it climbs levels, and then names only, and leads from each directory that is
deep enough to where it led before, exactly if it climbs one level at most. An absolute path has no
`..` left and leads to where it led before exactly if it climbs an even number of levels. -/
theorem resolve_keeps_iff (p : Path) :
    (p.isAbsolute = false →
      (((∃ names, p.resolve.components = ascent p.climb names) ∧
          ∀ dir, p.climb ≤ dir.length →
            follow dir p.resolve.components = follow dir p.components) ↔
        p.climb ≤ 1)) ∧
    (p.isAbsolute = true →
      ((Component.parent ∉ p.resolve.components ∧ p.resolve.place = p.place) ↔
        p.climb % 2 = 0)) := by
  constructor
  · intro hrelative
    rw [components_resolve_of_relative hrelative]
    constructor
    · rintro ⟨⟨names, hnames⟩, -⟩
      -- Both sides have as many `..` as are left.
      have hcount := congrArg (List.count Component.parent) hnames
      rw [count_parent_ascent, count_parent_ascent] at hcount
      omega
    · intro hclimb
      rw [Nat.mod_eq_of_lt (by omega)]
      refine ⟨⟨p.place, rfl⟩, fun dir _ => ?_⟩
      rw [follow_ascent]
      exact (follow_eq_take_append dir (root_not_mem_components hrelative)).symm
  · intro habsolute
    have hplace : p.resolve.place = p.place := by
      have htop := follow_ascent [] (p.climb % 2) p.place
      rw [List.take_nil, List.nil_append] at htop
      rwa [place, components_resolve_of_absolute habsolute]
    rw [components_resolve_of_absolute habsolute, ← List.count_eq_zero,
      List.count_cons_of_ne (by simp), count_parent_ascent]
    exact and_iff_left hplace

/-- A path that turns above its start, and one that climbs above the top twice. -/
theorem resolve_keeps_iff_turns :
    ((∃ names, (⟨"a/..//.././b/../c"⟩ : Path).resolve.components = ascent 1 names) ∧
        ∀ dir, 1 ≤ dir.length → follow dir (⟨"a/..//.././b/../c"⟩ : Path).resolve.components
          = follow dir (⟨"a/..//.././b/../c"⟩ : Path).components) ∧
      Component.parent ∉ (⟨"/../../a"⟩ : Path).resolve.components ∧
        (⟨"/../../a"⟩ : Path).resolve.place = (⟨"/../../a"⟩ : Path).place :=
  ⟨((resolve_keeps_iff ⟨"a/..//.././b/../c"⟩).1 (by decide)).mpr (by decide),
    ((resolve_keeps_iff ⟨"/../../a"⟩).2 (by decide)).mpr (by decide)⟩

/-- The second level that a path climbs takes the first one away, and a single level above the top
is left. -/
theorem resolve_keeps_fails :
    (⟨"../../a.js"⟩ : Path).isAbsolute = false ∧ (⟨"../../a.js"⟩ : Path).climb = 2 ∧
      (⟨"../../a.js"⟩ : Path).resolve = ⟨"a.js"⟩ ∧
      (¬∃ names, (⟨"../../a.js"⟩ : Path).resolve.components = ascent 2 names) ∧
      follow [['x'], ['y']] (⟨"../../a.js"⟩ : Path).resolve.components
        ≠ follow [['x'], ['y']] (⟨"../../a.js"⟩ : Path).components ∧
      (⟨"/../a.js"⟩ : Path).isAbsolute = true ∧
        Component.parent ∈ (⟨"/../a.js"⟩ : Path).resolve.components := by
  refine ⟨by decide, by decide, by decide, ?_, by decide, by decide, by decide⟩
  rintro ⟨names, hnames⟩
  have hcount := congrArg (List.count Component.parent) hnames
  rw [count_parent_ascent] at hcount
  exact absurd hcount (by decide)

end CodeAtlas.Path
