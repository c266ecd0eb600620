import CodeAtlas.Proofs.FileId.Walk
import Mathlib.Data.List.Induction
import Mathlib.Data.List.Infix

/-!
# `CodeAtlas.Proofs.FileId.Join`: joining relative texts to directories

A walk fails where a `..` finds no name left to leave. Whether that happens can be counted without
walking: in some first part of the segments `..` outnumber the names of the directory and those of
the part together (`Escapes`). What comes behind that part plays no role, so a walk that comes back
into the tree fails as well. The theorems:

* `Leads.length_add_count`: how deep a walk ends, by counting.
* `not_leads_iff_escapes`: segments lead nowhere exactly if they escape.
* `segments_glue`, `joinChars?_append`: an id that was reached is taken apart into the names from
  which it was glued, so a longer text can be followed in two parts.
* `joinChars?_eq_none_iff`, `isName_of_joinChars?`: when nothing is reached, and what the segments
  of an id are that is reached.
* `join?_escapes_and_composes`: all of this for ids and texts.
-/

set_option autoImplicit false

namespace CodeAtlas.FileId

/-- Whether segments climb above the root on their way from a directory: in some first part of them
there are more `..` than the directory has names and the part has names. -/
def Escapes (dir segments : List (List Char)) : Prop :=
  ∃ front, front <+: segments ∧
    dir.length + front.countP (IsName ·) < front.count ['.', '.']

instance (dir segments : List (List Char)) : Decidable (Escapes dir segments) :=
  decidable_of_iff
    (∃ front ∈ segments.inits, dir.length + front.countP (IsName ·) < front.count ['.', '.'])
    (by simp only [Escapes, List.mem_inits])

variable {dir goal front rest : List (List Char)} {segment : List Char}

/-! ### Escapes -/

/-- The names that are left at the end of a walk and the `..` on the way are as many as the names of
the directory and those on the way. -/
theorem Leads.length_add_count (h : Leads dir rest goal) :
    goal.length + rest.count ['.', '.'] = dir.length + rest.countP (IsName ·) := by
  induction h with
  | here => rw [List.count_nil, List.countP_nil]
  | stay hstay _ ih =>
    -- Neither an empty segment nor a dot is counted on either side.
    have hother : ¬IsName _ := fun hname => hstay.elim hname.1 hname.2.1
    rw [List.count_cons_of_ne (by rcases hstay with rfl | rfl <;> decide),
      List.countP_cons_of_neg (by simpa using hother)]
    exact ih
  | climb _ ih =>
    rw [List.count_cons_self, List.countP_cons_of_neg (by decide), List.length_append,
      List.length_singleton]
    omega
  | descend hname _ ih =>
    rw [List.length_append, List.length_singleton] at ih
    rw [List.count_cons_of_ne hname.2.2, List.countP_cons_of_pos (by simpa using hname)]
    omega

/-- Only a `..` at the root leads nowhere. -/
theorem walkStep_eq_none_iff : walkStep segment dir = none ↔ segment = ['.', '.'] ∧ dir = [] := by
  by_cases hstay : segment = [] ∨ segment = ['.']
  · rw [walkStep.eq_def, if_pos hstay]
    rcases hstay with rfl | rfl <;> simp
  · rw [walkStep.eq_def, if_neg hstay]
    cases dir with
    | nil => by_cases hclimb : segment = ['.', '.'] <;> simp [hclimb]
    | cons name dir => by_cases hclimb : segment = ['.', '.'] <;> simp [hclimb]

/-- What escapes does so whatever comes behind it. -/
theorem Escapes.append (h : Escapes dir front) (rest : List (List Char)) :
    Escapes dir (front ++ rest) := by
  obtain ⟨part, hpart, hlt⟩ := h
  exact ⟨part, hpart.trans (List.prefix_append _ _), hlt⟩

/-- Segments that escape lead nowhere, because a walk would have to pass below the root. -/
theorem Escapes.not_leads (h : Escapes dir rest) (goal : List (List Char)) :
    ¬Leads dir rest goal := by
  intro hleads
  obtain ⟨front, ⟨behind, rfl⟩, hlt⟩ := h
  obtain ⟨mid, hmid, -⟩ := leads_append_iff.mp hleads
  have hcount := hmid.length_add_count
  omega

/-- Segments lead nowhere exactly if they escape. -/
theorem not_leads_iff_escapes : (∀ goal, ¬Leads dir rest goal) ↔ Escapes dir rest := by
  refine ⟨fun hnone => ?_, Escapes.not_leads⟩
  -- From the end: either the segments before the last one escape, or the last one does.
  induction rest using List.reverseRecOn with
  | nil => exact absurd .here (hnone dir)
  | append_singleton front segment ih =>
    by_cases hfront : ∀ mid, ¬Leads dir front mid
    · exact (ih hfront).append [segment]
    · obtain ⟨mid, hmid⟩ := not_forall_not.mp hfront
      have hstep : walkStep segment mid = none := by
        cases hstep : walkStep segment mid with
        | none => rfl
        | some goal => exact absurd (leads_concat_iff.mpr ⟨mid, hmid, hstep⟩) (hnone goal)
      obtain ⟨rfl, rfl⟩ := walkStep_eq_none_iff.mp hstep
      refine ⟨front ++ [['.', '.']], List.prefix_refl _, ?_⟩
      have hcount := hmid.length_add_count
      rw [List.length_nil] at hcount
      rw [List.countP_append, List.count_append, List.count_singleton_self,
        List.countP_cons_of_neg (by decide), List.countP_nil]
      omega

/-! ### Joining -/

section Join

variable {start relative behind base : List Char}

/-- An id that is glued from names has these names as its segments. -/
theorem segments_glue {names : List (List Char)} (h : ∀ name ∈ names, name ≠ [] ∧ '/' ∉ name) :
    segments (Text.glue '/' names) = names := by
  by_cases hnames : names = []
  · subst hnames
    rfl
  · rw [segments, Text.pieces_glue hnames fun name hname => (h name hname).2]
    exact List.filter_eq_self.mpr fun name hname => decide_eq_true (h name hname).1

/-- A text that is followed behind another goes on from where that one leads. -/
theorem joinChars?_append (h : Leads (segments start) (Text.pieces '/' relative) goal)
    (behind : List Char) :
    joinChars? start (relative ++ '/' :: behind) = joinChars? (Text.glue '/' goal) behind := by
  have hwalk : walk (segments start) (Text.pieces '/' relative ++ Text.pieces '/' behind)
      = walk goal (Text.pieces '/' behind) := by
    rw [walk_append, walk_eq_some_iff.mpr h]
    rfl
  rw [joinChars?, joinChars?, Text.pieces_append_sep, hwalk, segments_glue h.names]

/-- Nothing is reached if the segments escape, or if they lead to the root. -/
theorem joinChars?_eq_none_iff :
    joinChars? start relative = none ↔
      Escapes (segments start) (Text.pieces '/' relative) ∨
        Leads (segments start) (Text.pieces '/' relative) [] := by
  -- A walk that ends somewhere has not escaped, so only the place where it ends is in question.
  by_cases hnone : ∀ goal, ¬Leads (segments start) (Text.pieces '/' relative) goal
  · refine iff_of_true ?_ (.inl (not_leads_iff_escapes.mp hnone))
    refine Option.eq_none_iff_forall_ne_some.mpr fun base hbase => ?_
    obtain ⟨goal, hgoal, -⟩ := joinChars?_eq_some_iff.mp hbase
    exact hnone goal hgoal
  · obtain ⟨goal, hgoal⟩ := not_forall_not.mp hnone
    have hstays : ¬Escapes (segments start) (Text.pieces '/' relative) :=
      fun hescapes => hescapes.not_leads goal hgoal
    rw [joinChars?_of_leads hgoal, or_iff_right hstays]
    constructor
    · intro h
      split at h
      · rename_i hroot
        exact hroot ▸ hgoal
      · cases h
    · intro hroot
      rw [if_pos (hgoal.unique hroot)]

/-- From a directory without dots in its id, only names are reached. -/
theorem isName_of_joinChars? (h : joinChars? start relative = some base)
    (hstart : ∀ segment ∈ Text.pieces '/' start, segment ≠ ['.'] ∧ segment ≠ ['.', '.']) :
    ∀ segment ∈ Text.pieces '/' base, IsName segment := by
  obtain ⟨goal, hgoal, hne, rfl⟩ := joinChars?_eq_some_iff.mp h
  rw [Text.pieces_glue hne fun name hname => (hgoal.names name hname).2]
  refine hgoal.forall_mem (fun name hname => ?_) fun _ _ hname => hname
  obtain ⟨hpiece, hne⟩ := List.mem_filter.mp hname
  exact ⟨of_decide_eq_true hne, hstart name hpiece⟩

end Join

/-- **Joining detects every escape, and it composes.** Take any directory id and any relative text.
Joining them gives nothing exactly if in some first part of the text's segments there are more `..`
than segments of the directory and names in that part, or if the walk ends at the root. If it gives
an id, a longer text leads where its rest leads from that id. If the text climbs above the root, no
longer text leads anywhere, even if it comes back. And the segments of an id that is given are
names, unless the directory itself has a `.` or a `..` among its segments. -/
theorem join?_escapes_and_composes (dir : FileId) (relative : String) :
    (dir.join? relative = none ↔
      Escapes (segments dir.toList) (Text.pieces '/' relative.toList) ∨
        Leads (segments dir.toList) (Text.pieces '/' relative.toList) []) ∧
    (∀ base, dir.join? relative = some base →
      ∀ rest, dir.join? (relative ++ "/" ++ rest) = base.join? rest) ∧
    (Escapes (segments dir.toList) (Text.pieces '/' relative.toList) →
      ∀ rest, dir.join? (relative ++ "/" ++ rest) = none) ∧
    ((∀ segment ∈ Text.pieces '/' dir.toList, segment ≠ ['.'] ∧ segment ≠ ['.', '.']) →
      ∀ base, dir.join? relative = some base →
        ∀ segment ∈ Text.pieces '/' base.toList, IsName segment) := by
  have hchars : ∀ rest : String,
      (relative ++ "/" ++ rest).toList = relative.toList ++ '/' :: rest.toList := by
    intro rest
    simp
  refine ⟨?_, ?_, ?_, ?_⟩
  · rw [join?, Option.map_eq_none_iff, joinChars?_eq_none_iff]
  · intro base hbase rest
    obtain ⟨chars, hjoin, rfl⟩ := Option.map_eq_some_iff.mp hbase
    -- The walk over the longer text passes through the end of the first one, whose segments are
    -- those of the id that was given.
    obtain ⟨goal, hgoal, -, rfl⟩ := joinChars?_eq_some_iff.mp hjoin
    rw [join?, join?, hchars, joinChars?_append hgoal, String.toList_ofList]
  · intro hescapes rest
    rw [join?, Option.map_eq_none_iff, joinChars?_eq_none_iff, hchars, Text.pieces_append_sep]
    exact .inl (hescapes.append _)
  · intro hdir base hbase
    obtain ⟨chars, hjoin, rfl⟩ := Option.map_eq_some_iff.mp hbase
    rw [String.toList_ofList]
    exact isName_of_joinChars? hjoin hdir

/-- A text that turns at the top and stays inside, one that climbs above the root and comes back,
and one that ends at the root. -/
theorem join?_escapes_and_composes_turns :
    FileId.join? "src//lib" "../../a/./b" = some "a/b" ∧
      FileId.join? "src//lib" ("../../a/./b" ++ "/" ++ "../c") = FileId.join? "a/b" "../c" ∧
      (∀ segment ∈ Text.pieces '/' "a/b".toList, IsName segment) ∧
      FileId.join? "src//lib" ("../../.." ++ "/" ++ "src/lib/c") = none ∧
      FileId.join? "src//lib" "../a/../.." = none := by
  obtain ⟨-, hcomposes, -, hnames⟩ := join?_escapes_and_composes "src//lib" "../../a/./b"
  have hturn : FileId.join? "src//lib" "../../a/./b" = some "a/b" := by decide
  refine ⟨hturn, hcomposes _ hturn "../c", hnames (by decide) _ hturn, ?_, ?_⟩
  · exact (join?_escapes_and_composes "src//lib" "../../..").2.2.1 (by decide) "src/lib/c"
  · exact (join?_escapes_and_composes "src//lib" "../a/../..").1.mpr (.inr (by decide))

end CodeAtlas.FileId
