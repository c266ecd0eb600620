import CodeAtlas.FileId
import CodeAtlas.Proofs.Text.Pieces

/-!
# `CodeAtlas.Proofs.FileId.Walk`: where a relative text leads

A relative text is followed from a directory one segment after the other (`Leads`): an empty
segment and a `.` stay where they are, a `..` climbs to the directory above, and a name descends.
There is nothing above the root, so some texts lead nowhere. The theorems:

* `walk_eq_some_iff`: walking finds where the segments lead, if they lead anywhere.
* `walk_replicate`, `walk_names`: where a walk ends that climbs some levels, and one through names.
* `walk_append`, `leads_append_iff`, `leads_concat_name_iff`: a walk goes on where its first part
  ends, and a name at the end of the segments is the last name of the place.
* `joinChars?_eq_some_iff`, `joinChars?_of_leads`: the id reached by a relative text is glued from
  the names of the place to which it leads. The root has no id.
-/

set_option autoImplicit false

namespace CodeAtlas.FileId

/-- Whether a segment is the name of something in a directory. The other segments lead to the
directory itself, or to the one above. -/
def IsName (segment : List Char) : Prop :=
  segment ≠ [] ∧ segment ≠ ['.'] ∧ segment ≠ ['.', '.']

instance (segment : List Char) : Decidable (IsName segment) :=
  inferInstanceAs (Decidable (_ ∧ _))

/-- Whether segments lead from one directory to another without climbing above the root.
Directories are given by their names from the root down. -/
inductive Leads : List (List Char) → List (List Char) → List (List Char) → Prop
  | here {dir : List (List Char)} : Leads dir [] dir
  | stay {dir rest goal : List (List Char)} {segment : List Char} :
      segment = [] ∨ segment = ['.'] → Leads dir rest goal → Leads dir (segment :: rest) goal
  | climb {dir rest goal : List (List Char)} {name : List Char} :
      Leads dir rest goal → Leads (dir ++ [name]) (['.', '.'] :: rest) goal
  | descend {dir rest goal : List (List Char)} {name : List Char} :
      IsName name → Leads (dir ++ [name]) rest goal → Leads dir (name :: rest) goal

variable {dir mid goal front rest : List (List Char)} {segment name : List Char}

/-! ### Walks -/

/-- A name descends. -/
theorem walkStep_of_isName (h : IsName segment) (dir : List (List Char)) :
    walkStep segment dir = some (dir ++ [segment]) := by
  rw [walkStep.eq_def, if_neg (not_or.mpr ⟨h.1, h.2.1⟩), if_neg h.2.2]

/-- One step of a walk stays, climbs or descends, as the segment says. -/
theorem walkStep_eq_some_iff :
    walkStep segment dir = some goal ↔
      ((segment = [] ∨ segment = ['.']) ∧ dir = goal) ∨
        (segment = ['.', '.'] ∧ ∃ name, dir = goal ++ [name]) ∨
          (IsName segment ∧ dir ++ [segment] = goal) := by
  by_cases hstay : segment = [] ∨ segment = ['.']
  · -- A segment that stays is neither `..` nor a name, so the other two cases are refuted.
    rw [walkStep.eq_def, if_pos hstay, Option.some.injEq]
    constructor
    · exact fun h => .inl ⟨hstay, h⟩
    · rintro (⟨-, h⟩ | ⟨rfl, -⟩ | ⟨hname, -⟩)
      · exact h
      · exact absurd hstay (by simp)
      · exact absurd hstay (not_or.mpr ⟨hname.1, hname.2.1⟩)
  · by_cases hclimb : segment = ['.', '.']
    · rw [walkStep.eq_def, if_neg hstay]
      -- Climbing takes the last name away, so the directory is read from its end.
      rcases List.eq_nil_or_concat dir with rfl | ⟨above, name, rfl⟩
      · simp [hclimb, IsName]
      · simp [hclimb, IsName]
    · rw [not_or] at hstay
      have hname : IsName segment := ⟨hstay.1, hstay.2, hclimb⟩
      simp [walkStep_of_isName, hstay, hclimb, hname]

/-- A walk finds where the segments lead. The relation says step by step what the function computes,
so the proofs about joining go by its rules. -/
theorem walk_eq_some_iff {segments : List (List Char)} :
    walk dir segments = some goal ↔ Leads dir segments goal := by
  constructor
  · intro h
    -- The walk moves the directory along, so the induction is for every directory.
    induction segments generalizing dir with
    | nil =>
      obtain rfl := Option.some.inj h
      exact .here
    | cons segment rest ih =>
      rw [walk, Option.bind_eq_some_iff] at h
      obtain ⟨next, hstep, hrest⟩ := h
      rcases walkStep_eq_some_iff.mp hstep with ⟨hstay, rfl⟩ | ⟨rfl, name, rfl⟩ | ⟨hname, rfl⟩
      · exact .stay hstay (ih hrest)
      · exact .climb (ih hrest)
      · exact .descend hname (ih hrest)
  · intro h
    induction h with
    | here => rfl
    | stay hstay _ ih =>
      rw [walk, walkStep_eq_some_iff.mpr (.inl ⟨hstay, rfl⟩)]
      exact ih
    | climb _ ih =>
      rw [walk, walkStep_eq_some_iff.mpr (.inr (.inl ⟨rfl, _, rfl⟩))]
      exact ih
    | descend hname _ ih =>
      rw [walk, walkStep_eq_some_iff.mpr (.inr (.inr ⟨hname, rfl⟩))]
      exact ih

instance (dir segments goal : List (List Char)) : Decidable (Leads dir segments goal) :=
  decidable_of_iff _ walk_eq_some_iff

/-- Segments lead to one place at most. -/
theorem Leads.unique (h : Leads dir rest mid) (h' : Leads dir rest goal) : mid = goal := by
  rw [← walk_eq_some_iff] at h h'
  exact Option.some.inj (h.symm.trans h')

/-- Climbing takes as many of the directory's names away, if it has so many. -/
theorem walk_replicate (dir : List (List Char)) (n : Nat) :
    walk dir (List.replicate n ['.', '.'])
      = if n ≤ dir.length then some (dir.take (dir.length - n)) else none := by
  -- The first `..` takes the last name, and the others climb from the directory that is left.
  induction n generalizing dir with
  | zero => simp [walk]
  | succ n ih =>
    rw [List.replicate_succ, walk]
    rcases List.eq_nil_or_concat dir with rfl | ⟨above, name, rfl⟩
    · rfl
    · rw [List.concat_eq_append, walkStep_eq_some_iff.mpr (.inr (.inl ⟨rfl, name, rfl⟩)),
        Option.bind_some, ih, List.length_append, List.length_singleton, Nat.add_sub_add_right,
        List.take_append_of_le_length (Nat.sub_le _ _)]
      simp only [Nat.add_le_add_iff_right]

/-- A walk through names descends through all of them. -/
theorem walk_names (dir : List (List Char)) {names : List (List Char)}
    (h : ∀ name ∈ names, IsName name) : walk dir names = some (dir ++ names) := by
  induction names generalizing dir with
  | nil => rw [walk, List.append_nil]
  | cons name names ih =>
    rw [walk, walkStep_of_isName (h name List.mem_cons_self), Option.bind_some,
      ih _ fun name hmem => h name (List.mem_cons_of_mem _ hmem), List.append_assoc]
    rfl

/-- A walk goes on where its first part ends. -/
theorem walk_append (dir front rest : List (List Char)) :
    walk dir (front ++ rest) = (walk dir front).bind fun mid => walk mid rest := by
  induction front generalizing dir with
  | nil => rfl
  | cons segment front ih => simp only [List.cons_append, walk, ih, Option.bind_assoc]

/-- A walk can be cut anywhere: its second part starts where the first one led. -/
theorem leads_append_iff :
    Leads dir (front ++ rest) goal ↔ ∃ mid, Leads dir front mid ∧ Leads mid rest goal := by
  simp only [← walk_eq_some_iff, walk_append, Option.bind_eq_some_iff]

/-- Where a walk ends is where its last step leads. -/
theorem leads_concat_iff :
    Leads dir (front ++ [segment]) goal ↔
      ∃ mid, Leads dir front mid ∧ walkStep segment mid = some goal := by
  rw [leads_append_iff]
  refine exists_congr fun mid => and_congr_right fun _ => ?_
  rw [← walk_eq_some_iff, walk, Option.bind_eq_some_iff]
  simp [walk]

/-- A name at the end of the segments is the last name of the place. -/
theorem leads_concat_name_iff (hname : IsName name) :
    Leads dir (front ++ [name]) (goal ++ [name]) ↔ Leads dir front goal := by
  rw [leads_concat_iff]
  constructor
  · rintro ⟨mid, hfront, hstep⟩
    rw [walkStep_of_isName hname, Option.some.injEq] at hstep
    rwa [← (List.append_singleton_inj.mp hstep).1]
  · intro hfront
    exact ⟨goal, hfront, walkStep_of_isName hname goal⟩

/-- Segments that lead to the root do not end with a name. -/
theorem not_isName_of_leads_nil (h : Leads dir (front ++ [segment]) []) : ¬IsName segment := by
  obtain ⟨mid, -, hstep⟩ := leads_concat_iff.mp h
  intro hname
  rw [walkStep_of_isName hname] at hstep
  simp at hstep

/-- A last segment that is no name leads no further down. -/
theorem Leads.prefix_of_not_isName (hfront : Leads dir front mid)
    (h : Leads dir (front ++ [segment]) goal) (hname : ¬IsName segment) : goal <+: mid := by
  obtain ⟨mid', hfront', hstep⟩ := leads_concat_iff.mp h
  obtain rfl := hfront'.unique hfront
  rcases walkStep_eq_some_iff.mp hstep with ⟨-, rfl⟩ | ⟨-, name, rfl⟩ | ⟨hname', -⟩
  · exact List.prefix_refl _
  · exact List.prefix_append _ _
  · exact absurd hname' hname

/-- On the way nothing is passed but what the directory's names and the segments satisfy. -/
theorem Leads.forall_mem {p : List Char → Prop} (h : Leads dir rest goal)
    (hdir : ∀ name ∈ dir, p name) (hrest : ∀ segment ∈ rest, IsName segment → p segment) :
    ∀ name ∈ goal, p name := by
  induction h with
  | here => exact hdir
  | stay _ _ ih => exact ih hdir fun s hs => hrest s (List.mem_cons_of_mem _ hs)
  | climb _ ih =>
    exact ih (fun n hn => hdir n (List.mem_append_left _ hn)) fun s hs =>
      hrest s (List.mem_cons_of_mem _ hs)
  | descend hname _ ih =>
    refine ih (fun n hn => ?_) fun s hs => hrest s (List.mem_cons_of_mem _ hs)
    rcases List.mem_append.mp hn with hn | hn
    · exact hdir n hn
    · rw [List.mem_singleton.mp hn]
      exact hrest _ List.mem_cons_self hname

/-! ### Joining -/

section Join

variable {start relative base : List Char}

/-- The names of a place reached from an id are not empty and have no slash. -/
theorem Leads.names (h : Leads (segments start) (Text.pieces '/' relative) goal) :
    ∀ name ∈ goal, name ≠ [] ∧ '/' ∉ name := by
  refine h.forall_mem (fun name hname => ?_) fun segment hsegment hname => ?_
  · obtain ⟨hpiece, hne⟩ := List.mem_filter.mp hname
    exact ⟨of_decide_eq_true hne, Text.not_mem_of_mem_pieces hpiece⟩
  · exact ⟨hname.1, Text.not_mem_of_mem_pieces hsegment⟩

/-- An id is reached exactly if the relative text leads to its names. -/
theorem joinChars?_eq_some_iff :
    joinChars? start relative = some base ↔
      ∃ goal, Leads (segments start) (Text.pieces '/' relative) goal ∧ goal ≠ [] ∧
        base = Text.glue '/' goal := by
  simp only [← walk_eq_some_iff]
  rw [joinChars?]
  cases hwalk : walk (segments start) (Text.pieces '/' relative) with
  | none => simp
  | some goal =>
    cases goal with
    | nil => simp
    | cons first others => simp [eq_comm]

/-- What is reached where a relative text leads to a place: its id, unless it is the root. -/
theorem joinChars?_of_leads (h : Leads (segments start) (Text.pieces '/' relative) goal) :
    joinChars? start relative = if goal = [] then none else some (Text.glue '/' goal) := by
  rw [← walk_eq_some_iff] at h
  rw [joinChars?, h]
  cases goal <;> rfl

end Join

end CodeAtlas.FileId
