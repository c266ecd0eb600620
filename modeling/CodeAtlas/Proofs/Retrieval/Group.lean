import CodeAtlas.Proofs.Keys
import CodeAtlas.Retrieval.Basic

/-!
# `CodeAtlas.Proofs.Retrieval.Group`: matches grouped by file

A retrieval is made by pushing one match after the other into the group of its file. The
theorems:

* `foundIn_pushInto`: one push concerns the group of the file of the match, and no other.
* `foundIn_group`: a group holds the matches of its file, of those with one chunk and one method
  the first.
* `mem_firsts_of_mem`, `exists_mem_firsts`: nothing else gets into a group, and no chunk is lost
  that was found by some method.
* `nodup_map_fileId_group`, `found_of_mem_group`: there is one group for each file.
* `filter_firsts`: what one method found does not depend on the others.
* `firsts_of_nodup`: a list without repeats is kept as it is.
* `firsts_sublist`, `heads_group_sublist`: the matches of a group, and those by which the files were
  first reached, are in the order in which they were pushed.
-/

set_option autoImplicit false

namespace CodeAtlas

/-- The matches that a retrieval holds for a file. -/
def Retrieval.foundIn (r : Retrieval) (id : FileId) : List RetrievalMatch :=
  ((r.file? id).map FileMatches.found).getD []

/-- Whether two matches are of the same chunk number and found in the same way. -/
def RetrievalMatch.Repeats (m n : RetrievalMatch) : Prop :=
  n.chunkIndex = m.chunkIndex ∧ n.method = m.method

namespace FileMatches

/-- The matches of one file with one more, unless it repeats one of them. -/
def keep (found : List RetrievalMatch) (m : RetrievalMatch) : List RetrievalMatch :=
  if found.any fun n => n.chunkIndex = m.chunkIndex && n.method = m.method then found
  else found ++ [m]

/-- The matches of a list without those that repeat an earlier one. -/
def firsts (found : List RetrievalMatch) : List RetrievalMatch :=
  found.foldl keep []

/-- The matches that groups hold for a file. -/
def foundIn (fs : List FileMatches) (id : FileId) : List RetrievalMatch :=
  ((fs.find? fun f => f.fileId = id).map found).getD []

variable {found : List RetrievalMatch} {m n : RetrievalMatch}

/-! ### One match -/

/-- What a push does to the matches does not depend on the file they are of. -/
theorem found_push (f : FileMatches) (m : RetrievalMatch) : (f.push m).found = keep f.found m := by
  rw [push, keep]
  split <;> rfl

/-- A push never moves a group to another file, so groups stay distinct. -/
theorem fileId_push (f : FileMatches) (m : RetrievalMatch) : (f.push m).fileId = f.fileId := by
  rw [push]
  split <;> rfl

/-- A match is pushed into the group of its file, which is made if it is not there. -/
theorem foundIn_pushInto (m : RetrievalMatch) (fs : List FileMatches) (id : FileId) :
    foundIn (pushInto m fs) id
      = if m.fileId = id then keep (foundIn fs id) m else foundIn fs id := by
  -- The first group of the match's file takes it; those before it are of other files.
  induction fs with
  | nil =>
    rw [pushInto, foundIn, List.find?_cons]
    by_cases hid : m.fileId = id
    · simp [hid, foundIn, keep]
    · simp [hid, foundIn]
  | cons f fs ih =>
    rw [pushInto]
    by_cases hf : f.fileId = m.fileId
    · rw [if_pos hf]
      by_cases hid : m.fileId = id
      · have hgroup : f.fileId = id := hf.trans hid
        simp [foundIn, fileId_push, found_push, hid, hgroup]
      · have hgroup : f.fileId ≠ id := fun h => hid (hf.symm.trans h)
        simp [foundIn, fileId_push, hid, hgroup]
    · rw [if_neg hf]
      by_cases hgroup : f.fileId = id
      · -- The group of `id` stands here, and the match goes to another one.
        have hid : m.fileId ≠ id := fun h => hf (hgroup.trans h.symm)
        simp [foundIn, hid, hgroup]
      · have hskip : ∀ gs, foundIn (f :: gs) id = foundIn gs id := by
          intro gs
          simp [foundIn, hgroup]
        rw [hskip, hskip, ih]

/-! ### All matches -/

/-- Groups to which matches are pushed hold what they held, and the matches of their files. -/
theorem foundIn_foldl_pushInto (ms : List RetrievalMatch) (fs : List FileMatches) (id : FileId) :
    foundIn (ms.foldl (fun fs m => pushInto m fs) fs) id
      = (ms.filter fun m => m.fileId = id).foldl keep (foundIn fs id) := by
  induction ms generalizing fs with
  | nil => rfl
  | cons m ms ih =>
    rw [List.foldl_cons, ih, foundIn_pushInto]
    by_cases hid : m.fileId = id
    · rw [if_pos hid, List.filter_cons_of_pos (by simpa using hid), List.foldl_cons]
    · rw [if_neg hid, List.filter_cons_of_neg (by simpa using hid)]

/-- A group holds the first matches of its file, so what is held can be told file by file. -/
theorem foundIn_group (ms : List RetrievalMatch) (id : FileId) :
    foundIn (group ms) id = firsts (ms.filter fun m => m.fileId = id) :=
  foundIn_foldl_pushInto ms [] id

/-- The test the code runs over a group decides whether a match repeats one of it. -/
theorem any_iff_exists_repeats :
    (found.any fun n => n.chunkIndex = m.chunkIndex && n.method = m.method) = true ↔
      ∃ n ∈ found, m.Repeats n := by
  simp [RetrievalMatch.Repeats]

/-- Keeping adds at most the new match. -/
theorem mem_keep (h : n ∈ keep found m) : n ∈ found ∨ n = m := by
  rw [keep] at h
  split at h
  · exact .inl h
  · simpa using h

/-- Keeping matches one after the other keeps what was there. -/
theorem subset_foldl_keep (ms found : List RetrievalMatch) : found ⊆ ms.foldl keep found := by
  induction ms generalizing found with
  | nil => exact List.Subset.refl found
  | cons m ms ih =>
    refine List.Subset.trans ?_ (ih (keep found m))
    rw [keep]
    split
    · exact List.Subset.refl found
    · exact List.subset_append_left found [m]

/-- Nothing is kept but what was there and what is given. -/
theorem mem_of_mem_foldl_keep {ms : List RetrievalMatch} (h : n ∈ ms.foldl keep found) :
    n ∈ found ∨ n ∈ ms := by
  induction ms generalizing found with
  | nil => exact .inl h
  | cons m ms ih =>
    rcases ih h with hkept | hrest
    · rcases mem_keep hkept with hfound | rfl
      · exact .inl hfound
      · exact .inr List.mem_cons_self
    · exact .inr (List.mem_cons_of_mem m hrest)

/-- The first matches of a list are among its matches. -/
theorem mem_firsts_of_mem (h : n ∈ firsts found) : n ∈ found :=
  (mem_of_mem_foldl_keep h).resolve_left List.not_mem_nil

/-- A match that is given is kept, or repeats one that is kept. -/
theorem exists_mem_foldl_keep {ms : List RetrievalMatch} (h : m ∈ ms) :
    ∃ n ∈ ms.foldl keep found, m.Repeats n := by
  induction ms generalizing found with
  | nil => exact absurd h List.not_mem_nil
  | cons a ms ih =>
    rcases List.mem_cons.mp h with rfl | hrest
    · -- Right behind its own turn there is such a match, and it stays.
      have hturn : ∃ n ∈ keep found m, m.Repeats n := by
        rw [keep]
        split
        · rename_i hany
          exact any_iff_exists_repeats.mp hany
        · exact ⟨m, by simp, rfl, rfl⟩
      obtain ⟨n, hn, hrepeats⟩ := hturn
      exact ⟨n, subset_foldl_keep ms _ hn, hrepeats⟩
    · exact ih hrest

/-- Each match of a list is among its first matches or repeats one of them. -/
theorem exists_mem_firsts (h : m ∈ found) : ∃ n ∈ firsts found, m.Repeats n :=
  exists_mem_foldl_keep h

/-! ### Files -/

/-- A push adds the file of the match behind the others, if it is new. -/
theorem map_fileId_pushInto (m : RetrievalMatch) (fs : List FileMatches) :
    (pushInto m fs).map fileId
      = if m.fileId ∈ fs.map fileId then fs.map fileId else fs.map fileId ++ [m.fileId] := by
  induction fs with
  | nil => rfl
  | cons f fs ih =>
    rw [pushInto]
    by_cases hf : f.fileId = m.fileId
    · simp [hf, fileId_push]
    · rw [if_neg hf, List.map_cons, ih]
      by_cases hmem : m.fileId ∈ fs.map fileId
      · simp [hmem]
      · simp [hmem, Ne.symm hf]

/-- No two groups are of the same file. -/
theorem nodup_map_fileId_group (ms : List RetrievalMatch) : ((group ms).map fileId).Nodup := by
  -- The groups made so far are arbitrary, or the induction would only speak of the empty list.
  have hfold : ∀ fs : List FileMatches, (fs.map fileId).Nodup →
      ((ms.foldl (fun fs m => pushInto m fs) fs).map fileId).Nodup := by
    induction ms with
    | nil => exact fun _ h => h
    | cons m ms ih =>
      intro fs h
      refine ih _ ?_
      rw [map_fileId_pushInto]
      split
      · exact h
      · rename_i hnew
        rw [List.nodup_append]
        refine ⟨h, List.nodup_singleton _, ?_⟩
        intro a ha b hb
        rw [List.mem_singleton.mp hb]
        exact fun heq => hnew (heq ▸ ha)
  exact hfold [] List.nodup_nil

/-- A group is what the groups hold for its file. -/
theorem found_of_mem_group {ms : List RetrievalMatch} {f : FileMatches} (h : f ∈ group ms) :
    f.found = firsts (ms.filter fun m => m.fileId = f.fileId) := by
  have hfind : (group ms).find? (fun g => g.fileId = f.fileId) = some f :=
    (find?_eq_some_iff_of_nodup (nodup_map_fileId_group ms)).mpr ⟨h, rfl⟩
  rw [← foundIn_group, foundIn, hfind]
  rfl

/-! ### Methods -/

/-- Keeping a match and looking at some methods only can be exchanged. -/
theorem filter_keep (p : RetrievalMethod → Bool) (found : List RetrievalMatch)
    (m : RetrievalMatch) :
    (keep found m).filter (fun n => p n.method)
      = if p m.method = true then keep (found.filter fun n => p n.method) m
        else found.filter fun n => p n.method := by
  by_cases hp : p m.method = true
  · -- A match that `m` repeats has its method, so it is not filtered out.
    have hany : (found.filter fun n => p n.method).any
        (fun n => n.chunkIndex = m.chunkIndex && n.method = m.method)
        = found.any fun n => n.chunkIndex = m.chunkIndex && n.method = m.method := by
      rw [Bool.eq_iff_iff, any_iff_exists_repeats, any_iff_exists_repeats]
      constructor
      · rintro ⟨n, hn, hrepeats⟩
        exact ⟨n, (List.mem_filter.mp hn).1, hrepeats⟩
      · rintro ⟨n, hn, hrepeats⟩
        exact ⟨n, List.mem_filter.mpr ⟨hn, by rw [hrepeats.2]; exact hp⟩, hrepeats⟩
    rw [if_pos hp, keep, keep, hany]
    split
    · rfl
    · simp [hp]
  · -- The match is filtered out, whether it was kept or not.
    rw [if_neg hp, keep]
    split
    · rfl
    · simp [hp]

/-- The first matches of some methods are those of the matches of these methods: a match is only
dropped for one of its own method. -/
theorem filter_firsts (p : RetrievalMethod → Bool) (ms : List RetrievalMatch) :
    (firsts ms).filter (fun n => p n.method) = firsts (ms.filter fun n => p n.method) := by
  have hfold : ∀ found, (ms.foldl keep found).filter (fun n => p n.method)
      = (ms.filter fun n => p n.method).foldl keep (found.filter fun n => p n.method) := by
    induction ms with
    | nil => exact fun _ => rfl
    | cons m ms ih =>
      intro found
      rw [List.foldl_cons, ih, filter_keep, List.filter_cons]
      by_cases hp : p m.method = true
      · rw [if_pos hp, if_pos hp, List.foldl_cons]
      · rw [if_neg hp, if_neg hp]
  exact hfold []

/-! ### Order -/

/-- What is kept is in the order in which it was there and was given. -/
theorem foldl_keep_sublist (ms found : List RetrievalMatch) :
    (ms.foldl keep found).Sublist (found ++ ms) := by
  induction ms generalizing found with
  | nil => simp
  | cons m ms ih =>
    have hkeep : (keep found m).Sublist (found ++ [m]) := by
      unfold keep
      split
      · exact List.sublist_append_left found [m]
      · exact List.Sublist.refl _
    have hrest := (ih (keep found m)).trans (hkeep.append_right ms)
    simpa using hrest

/-- The first matches of a list are in the order of the list. -/
theorem firsts_sublist (ms : List RetrievalMatch) : (firsts ms).Sublist ms :=
  foldl_keep_sublist ms []

/-- No two of the first matches of a list are of one chunk number and found in one way. -/
theorem nodup_map_firsts (ms : List RetrievalMatch) :
    ((firsts ms).map fun m => (m.chunkIndex, m.method)).Nodup := by
  have hfold : ∀ found : List RetrievalMatch, (found.map fun m => (m.chunkIndex, m.method)).Nodup →
      ((ms.foldl keep found).map fun m => (m.chunkIndex, m.method)).Nodup := by
    induction ms with
    | nil => exact fun _ h => h
    | cons m ms ih =>
      intro found h
      refine ih _ ?_
      unfold keep
      split
      · exact h
      · rename_i hnew
        -- A match is put behind the others only if it repeats none of them.
        have hfresh : (m.chunkIndex, m.method) ∉ found.map fun n => (n.chunkIndex, n.method) := by
          intro hmem
          obtain ⟨n, hn, heq⟩ := List.mem_map.mp hmem
          obtain ⟨hindex, hmethod⟩ := Prod.mk.inj heq
          exact hnew (any_iff_exists_repeats.mpr ⟨n, hn, hindex, hmethod⟩)
        simpa [List.nodup_append] using ⟨h, by simpa using hfresh⟩
  exact hfold [] List.nodup_nil

/-- A list without repeats is kept as it is. -/
theorem firsts_of_nodup {ms : List RetrievalMatch}
    (h : (ms.map fun m => (m.chunkIndex, m.method)).Nodup) : firsts ms = ms := by
  -- What is kept so far and what is still to come have no repeats together.
  have hfold : ∀ found : List RetrievalMatch,
      ((found ++ ms).map fun m => (m.chunkIndex, m.method)).Nodup →
        ms.foldl keep found = found ++ ms := by
    induction ms with
    | nil => simp
    | cons m ms ih =>
      intro found hfound
      have hkeep : keep found m = found ++ [m] := by
        refine if_neg fun hany => ?_
        obtain ⟨n, hn, hindex, hmethod⟩ := any_iff_exists_repeats.mp hany
        rw [List.map_append, List.nodup_append] at hfound
        exact hfound.2.2 _ (List.mem_map_of_mem hn) _ (List.mem_map_of_mem List.mem_cons_self)
          (by rw [hindex, hmethod])
      have hrest := ih (List.Nodup.of_cons h) (found ++ [m]) (by simpa using hfound)
      rw [List.foldl_cons, hkeep, hrest]
      simp
  exact hfold [] (by simpa using h)

/-- The matches by which files were first reached, one for each group. -/
def heads (fs : List FileMatches) : List RetrievalMatch :=
  fs.filterMap fun f => f.found.head?

/-- The first match of a group stays the first, and it is the one that places the group among the
others. -/
theorem head?_push {f : FileMatches} (h : f.found ≠ []) (m : RetrievalMatch) :
    (f.push m).found.head? = f.found.head? := by
  unfold push
  split
  · rfl
  · exact List.head?_append_of_ne_nil _ h

/-- Groups to which a match is pushed stay without an empty one. -/
theorem found_ne_nil_of_mem_pushInto {fs : List FileMatches} (h : ∀ f ∈ fs, f.found ≠ [])
    {f : FileMatches} (hf : f ∈ pushInto m fs) : f.found ≠ [] := by
  induction fs with
  | nil =>
    obtain rfl := List.mem_singleton.mp hf
    simp
  | cons g fs ih =>
    simp only [List.mem_cons, forall_eq_or_imp] at h
    unfold pushInto at hf
    split at hf
    · rcases List.mem_cons.mp hf with rfl | hf
      · -- A push keeps the first match of a group, so the group is not emptied.
        intro hnil
        have hhead := head?_push h.1 m
        rw [hnil, List.head?_nil] at hhead
        exact h.1 (List.head?_eq_none_iff.mp hhead.symm)
      · exact h.2 f hf
    · rcases List.mem_cons.mp hf with rfl | hf
      · exact h.1
      · exact ih h.2 hf

/-- A push is the first that reaches a file only if the file has no group. -/
theorem heads_pushInto {fs : List FileMatches} (h : ∀ f ∈ fs, f.found ≠ [])
    (m : RetrievalMatch) :
    heads (pushInto m fs)
      = if m.fileId ∈ fs.map fileId then heads fs else heads fs ++ [m] := by
  induction fs with
  | nil => rfl
  | cons f fs ih =>
    simp only [List.mem_cons, forall_eq_or_imp] at h
    unfold pushInto
    by_cases hf : f.fileId = m.fileId
    · simp only [heads, if_pos hf, List.filterMap_cons, head?_push h.1]
      simp [hf]
    · have hrest := ih h.2
      unfold heads at hrest ⊢
      rw [if_neg hf, List.filterMap_cons, List.filterMap_cons, hrest]
      -- The head of the first group stands in front in both cases.
      by_cases hmem : m.fileId ∈ fs.map fileId
      · simp [hmem]
      · cases f.found.head? <;> simp [hmem, Ne.symm hf]

/-- Pushing one match after the other leaves no group empty, and reaches files in the order of the
matches. -/
theorem heads_foldl_pushInto (ms : List RetrievalMatch) {fs : List FileMatches}
    (h : ∀ f ∈ fs, f.found ≠ []) :
    (∀ f ∈ ms.foldl (fun fs m => pushInto m fs) fs, f.found ≠ []) ∧
      (heads (ms.foldl (fun fs m => pushInto m fs) fs)).Sublist (heads fs ++ ms) := by
  induction ms generalizing fs with
  | nil => exact ⟨h, by simp⟩
  | cons m ms ih =>
    obtain ⟨hne, hrest⟩ := ih fun f hf => found_ne_nil_of_mem_pushInto h hf
    refine ⟨hne, hrest.trans ?_⟩
    rw [heads_pushInto h]
    split
    · exact (List.sublist_cons_self m ms).append_left (heads fs)
    · simp

/-- A group is only made for a match, so none is empty. -/
theorem found_ne_nil_of_mem_group {ms : List RetrievalMatch} {f : FileMatches}
    (h : f ∈ group ms) : f.found ≠ [] :=
  (heads_foldl_pushInto ms (by simp)).1 f h

/-- The files are in the order in which they were first reached. -/
theorem heads_group_sublist (ms : List RetrievalMatch) : (heads (group ms)).Sublist ms := by
  have hnil : ∀ f ∈ ([] : List FileMatches), f.found ≠ [] := fun _ hf => absurd hf List.not_mem_nil
  exact (heads_foldl_pushInto ms hnil).2

end FileMatches

end CodeAtlas
