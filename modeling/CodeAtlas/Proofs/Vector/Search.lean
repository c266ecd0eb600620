import CodeAtlas.Vector.Basic

/-!
# `CodeAtlas.Proofs.Vector.Search`: the order of a search

A cosine is always a number, so the ranks of two scores tell which of them is the larger one. The
theorems:

* `isNaN_cosine`: where the quotient is no number, the cosine is zero.
* `pairwise_ranked`: a ranking goes from the larger scores to the smaller ones.
* `filter_mergeSort`, `ranked_restrict`: the ranking of some records does not depend on the others,
  since sorting leaves equals in their order.
* `exists_ranking`, `eq_of_ranksBefore`: a ranking is told by the scores and the places of the
  records, whatever way of sorting leads to it.
* `transCmp_compareScores`, `search_best`: since all scores are numbers, the comparison by scores is
  a total preorder on the records of a store, and a search gives the best of them.
-/

set_option autoImplicit false

namespace CodeAtlas

/-- One number is at most another. What is no number is neither more nor less than anything. -/
instance : LE Single :=
  ⟨fun x y => x.isNaN = false ∧ y.isNaN = false ∧ x.rank ≤ y.rank⟩

/-- The order of numbers, by rank; what is not a number is not even below itself. -/
theorem Single.le_iff {x y : Single} :
    x ≤ y ↔ x.isNaN = false ∧ y.isNaN = false ∧ x.rank ≤ y.rank :=
  Iff.rfl

instance (x y : Single) : Decidable (x ≤ y) :=
  inferInstanceAs (Decidable (x.isNaN = false ∧ y.isNaN = false ∧ x.rank ≤ y.rank))

/-- Every similarity is a number, so all of them can be compared. -/
theorem isNaN_cosine (a b : List Single) : (cosine a b).isNaN = false := by
  unfold cosine
  split
  · rfl
  · split
    · rfl
    · -- The last exit is guarded by the very test.
      dsimp only
      split
      · rfl
      · rename_i hquotient
        simpa using hquotient

namespace VectorStore

variable {s : VectorStore} {query : List Single}

/-- The larger score stands before the smaller one. -/
def scoreOrder (a b : EmbeddingRecord × Single) : Bool :=
  b.2.rank ≤ a.2.rank

/-- What sorting needs of the order on scores. -/
theorem scoreOrder_trans (a b c : EmbeddingRecord × Single) (hab : scoreOrder a b = true)
    (hbc : scoreOrder b c = true) : scoreOrder a c = true := by
  simp only [scoreOrder, decide_eq_true_eq] at hab hbc ⊢
  omega

/-- See `scoreOrder_trans`: any two scores are in order one way. -/
theorem scoreOrder_total (a b : EmbeddingRecord × Single) :
    (scoreOrder a b || scoreOrder b a) = true := by
  simp only [scoreOrder, Bool.or_eq_true, decide_eq_true_eq]
  omega

/-- The score of a record is a number. -/
theorem isNaN_of_mem_scored {found : EmbeddingRecord × Single} (h : found ∈ s.scored query) :
    found.2.isNaN = false := by
  obtain ⟨r, -, rfl⟩ := List.mem_map.mp h
  exact isNaN_cosine _ _

/-- Records of the store compare by the ranks of their scores, the larger one first. -/
theorem compareScores_of_mem {a b : EmbeddingRecord × Single} (ha : a ∈ s.scored query)
    (hb : b ∈ s.scored query) : compareScores a b = compare b.2.rank a.2.rank := by
  rw [compareScores, Single.compare?, isNaN_of_mem_scored ha, isNaN_of_mem_scored hb,
    Bool.or_self, if_neg Bool.false_ne_true, Option.getD_some]

/-- A ranking is sorted by the ranks of the scores. -/
theorem ranked_eq (s : VectorStore) (query : List Single) :
    s.ranked query = (s.scored query).mergeSort scoreOrder := by
  have hsame : ∀ a ∈ s.scored query, ∀ b ∈ s.scored query,
      (compareScores a b).isLE = scoreOrder a b := by
    intro a ha b hb
    rw [compareScores_of_mem ha hb, Bool.eq_iff_iff, Int.isLE_compare, scoreOrder,
      decide_eq_true_eq]
  have hsort := List.map_mergeSort (f := id) hsame
  rwa [List.map_id, List.map_id] at hsort

/-- A ranking has all records of the store. -/
theorem perm_ranked (s : VectorStore) (query : List Single) :
    (s.ranked query).Perm (s.scored query) :=
  List.mergeSort_perm _ _

/-- The records of a ranking are scored by their cosines. -/
theorem score_of_mem_ranked {found : EmbeddingRecord × Single} (h : found ∈ s.ranked query) :
    found.2 = cosine query found.1.vector := by
  obtain ⟨r, -, rfl⟩ := List.mem_map.mp ((perm_ranked s query).mem_iff.mp h)
  rfl

/-- A ranking goes from the larger scores to the smaller ones. -/
theorem pairwise_ranked (s : VectorStore) (query : List Single) :
    (s.ranked query).Pairwise fun a b => b.2 ≤ a.2 := by
  have hsorted : (s.ranked query).Pairwise fun a b => scoreOrder a b = true := by
    rw [ranked_eq]
    exact List.pairwise_mergeSort scoreOrder_trans scoreOrder_total _
  refine hsorted.imp_of_mem ?_
  intro a b ha hb hrank
  rw [Single.le_iff, score_of_mem_ranked ha, score_of_mem_ranked hb]
  refine ⟨isNaN_cosine _ _, isNaN_cosine _ _, ?_⟩
  rw [← score_of_mem_ranked ha, ← score_of_mem_ranked hb]
  exact of_decide_eq_true hrank

/-! ### Leaving records out -/

section

variable {α : Type} {le : α → α → Bool}

/-- Where a member of a list stands when the list is sorted: behind those that are smaller, and
before those that are not, since it was the first of them. -/
theorem mergeSort_cons_eq (htrans : ∀ a b c, le a b = true → le b c = true → le a c = true)
    (htotal : ∀ a b, (le a b || le b a) = true) (a : α) (xs : List α) :
    (a :: xs).mergeSort le = (xs.mergeSort le).filter (fun b => !le a b) ++
      a :: (xs.mergeSort le).filter (fun b => le a b) := by
  -- The library gives some cut of the others. That it is the cut by `le a` follows from the order
  -- on both sides of `a`.
  obtain ⟨before, behind, hsorted, hrest, hbefore⟩ := List.mergeSort_cons htrans htotal a xs
  have hpairwise := List.pairwise_mergeSort htrans htotal (a :: xs)
  rw [hsorted, List.pairwise_append, List.pairwise_cons] at hpairwise
  have hbehind : ∀ b ∈ behind, le a b = true := hpairwise.2.1.1
  have hfront : (before ++ behind).filter (fun b => !le a b) = before := by
    rw [List.filter_append, List.filter_eq_self.mpr hbefore,
      List.filter_eq_nil_iff.mpr fun b hb => by simp [hbehind b hb], List.append_nil]
  have hback : (before ++ behind).filter (fun b => le a b) = behind := by
    rw [List.filter_append, List.filter_eq_self.mpr hbehind,
      List.filter_eq_nil_iff.mpr fun b hb => by simpa using hbefore b hb, List.nil_append]
  rw [hsorted, hrest, hfront, hback]

/-- It does not matter whether members of a list are left out before it is sorted or afterwards.
Sorting is stable, or this would fail for members that are equal in the order. -/
theorem filter_mergeSort (htrans : ∀ a b c, le a b = true → le b c = true → le a c = true)
    (htotal : ∀ a b, (le a b || le b a) = true) (p : α → Bool) (xs : List α) :
    (xs.mergeSort le).filter p = (xs.filter p).mergeSort le := by
  induction xs with
  | nil => simp
  | cons a xs ih =>
    by_cases hp : p a = true
    · -- The cut at `a` and the choice of the members can be exchanged.
      rw [mergeSort_cons_eq htrans htotal, List.filter_append, List.filter_cons_of_pos hp,
        List.filter_cons_of_pos hp, mergeSort_cons_eq htrans htotal, ← ih]
      simp only [List.filter_filter, Bool.and_comm]
    · obtain ⟨before, behind, hsorted, hrest, -⟩ := List.mergeSort_cons htrans htotal a xs
      rw [hsorted, List.filter_append, List.filter_cons_of_neg hp, List.filter_cons_of_neg hp, ← ih,
        hrest, List.filter_append]

end

/-- The records of some files. -/
def restrict (s : VectorStore) (keep : FileId → Bool) : VectorStore :=
  ⟨s.records.filter fun r => keep r.fileId⟩

/-- Records that are left out have no part in the ranking of the others, since a score looks at one
record only. -/
theorem ranked_restrict (s : VectorStore) (keep : FileId → Bool) (query : List Single) :
    (s.restrict keep).ranked query
      = (s.ranked query).filter fun found => keep found.1.fileId := by
  have hscored : (s.restrict keep).scored query
      = (s.scored query).filter fun found => keep found.1.fileId := by
    rw [scored, scored, restrict, List.filter_map]
    rfl
  rw [ranked_eq, ranked_eq, hscored]
  exact (filter_mergeSort scoreOrder_trans scoreOrder_total _ _).symm

/-- Whether one record, with its place, stands before another in a ranking: it is not less similar,
and if it is not more similar either, its place is before the other's. -/
def RanksBefore (query : List Single) (a b : EmbeddingRecord × Nat) : Prop :=
  cosine query b.1.vector ≤ cosine query a.1.vector ∧
    (cosine query a.1.vector ≤ cosine query b.1.vector → a.2 < b.2)

instance (query : List Single) (a b : EmbeddingRecord × Nat) :
    Decidable (RanksBefore query a b) :=
  inferInstanceAs (Decidable (_ ∧ (_ → _)))

/-- There is one ranking only: two lists of the same records in the order of the ranks are equal.
The places decide between equal scores, so nothing is left open. -/
theorem eq_of_ranksBefore {xs ys : List (EmbeddingRecord × Nat)} (hperm : xs.Perm ys)
    (hxs : xs.Pairwise (RanksBefore query)) (hys : ys.Pairwise (RanksBefore query)) : xs = ys := by
  refine List.Perm.eq_of_pairwise ?_ hxs hys hperm
  intro a b _ _ hab hba
  have hfirst : a.2 < b.2 := hab.2 hba.1
  have hsecond : b.2 < a.2 := hba.2 hab.1
  omega

/-- A ranking holds each record at its place once, in the order of the ranks. -/
theorem exists_ranking (s : VectorStore) (query : List Single) :
    ∃ ranking : List (EmbeddingRecord × Nat), ranking.Perm s.records.zipIdx ∧
      ranking.Pairwise (RanksBefore query) ∧
        s.ranked query = ranking.map fun a => (a.1, cosine query a.1.vector) := by
  -- The code sorts records with their scores. For the ranking they are sorted with their places,
  -- under the order that the scores give them.
  let score : EmbeddingRecord → EmbeddingRecord × Single := fun r => (r, cosine query r.vector)
  let le : EmbeddingRecord → EmbeddingRecord → Bool := fun a b => scoreOrder (score a) (score b)
  have htrans : ∀ a b c, le a b = true → le b c = true → le a c = true :=
    fun a b c => scoreOrder_trans (score a) (score b) (score c)
  have htotal : ∀ a b, (le a b || le b a) = true :=
    fun a b => scoreOrder_total (score a) (score b)
  have hle : ∀ a b, le a b = true ↔ cosine query b.vector ≤ cosine query a.vector := by
    intro a b
    simp [le, score, scoreOrder, Single.le_iff, isNaN_cosine]
  have hperm := List.mergeSort_perm s.records.zipIdx (List.zipIdxLE le)
  refine ⟨s.records.zipIdx.mergeSort (List.zipIdxLE le), hperm, ?_, ?_⟩
  · -- No two records have one place, so equal scores leave the order of the places.
    have hplaces : (s.records.zipIdx.mergeSort (List.zipIdxLE le)).Pairwise
        fun a b => a.2 ≠ b.2 := by
      have hnodup : (s.records.zipIdx.map Prod.snd).Nodup := by
        rw [List.zipIdx_map_snd]
        exact List.nodup_range'
      exact List.pairwise_map.mp ((hperm.map Prod.snd).nodup_iff.mpr hnodup)
    have hsorted := List.pairwise_mergeSort (List.zipIdxLE_trans htrans)
      (List.zipIdxLE_total htotal) s.records.zipIdx
    refine hsorted.imp₂ ?_ hplaces
    intro a b hab hne
    unfold List.zipIdxLE at hab
    split at hab
    · rename_i hfirst
      refine ⟨(hle _ _).mp hfirst, fun hback => ?_⟩
      rw [if_pos ((hle _ _).mpr hback), decide_eq_true_eq] at hab
      omega
    · cases hab
  · have hmap : (s.records.mergeSort le).map score = (s.scored query).mergeSort scoreOrder :=
      List.map_mergeSort (r := le) (s := scoreOrder) (f := score) fun _ _ _ _ => rfl
    rw [ranked_eq, ← hmap, ← List.mergeSort_zipIdx, List.map_map]
    rfl

/-! ### The best records -/

/-- On the records of a store the comparison by scores is a total preorder. -/
theorem transCmp_compareScores (s : VectorStore) (query : List Single) :
    Std.TransCmp fun a b : { found // found ∈ s.scored query } => compareScores a.1 b.1 where
  eq_swap {a b} := by
    rw [compareScores_of_mem a.2 b.2, compareScores_of_mem b.2 a.2, Int.compare_swap]
  isLE_trans {a b c} hab hbc := by
    rw [compareScores_of_mem a.2 b.2] at hab
    rw [compareScores_of_mem b.2 c.2] at hbc
    rw [compareScores_of_mem a.2 c.2]
    exact Std.TransOrd.isLE_trans hbc hab

/-- Without the test in the cosine this would fail: what is no number counts as equal to scores that
differ. -/
example : compareScores (⟨"a", 0, "", [], ""⟩, .one) (⟨"b", 0, "", [], ""⟩, ⟨0x7fc00000⟩) = .eq ∧
    compareScores (⟨"b", 0, "", [], ""⟩, ⟨0x7fc00000⟩) (⟨"c", 0, "", [], ""⟩, .zero) = .eq ∧
      compareScores (⟨"a", 0, "", [], ""⟩, .one) (⟨"c", 0, "", [], ""⟩, .zero) = .lt := by
  decide

/-- **A search gives the best records.** A cosine is always a number, so the comparison by scores is
a total preorder on the records of the store. The places of the store fall into two parts: those
that a search gives, each with its own score, as many as asked for if there are so many, and those
that it leaves out. In what it gives the larger scores come first, and equal ones in the order of
the places. What is left out scores no more than the last one that it gives, and comes later if it
scores the same. -/
theorem search_best (s : VectorStore) (query : List Single) (k : Nat) :
    (∀ a b : List Single, (cosine a b).isNaN = false) ∧
    (Std.TransCmp fun a b : { found // found ∈ s.scored query } => compareScores a.1 b.1) ∧
    ∃ given left : List (EmbeddingRecord × Nat),
      (given ++ left).Perm s.records.zipIdx ∧
      s.search query k = given.map (fun a => (a.1, cosine query a.1.vector)) ∧
      (s.search query k).length = min k s.size ∧
      given.Pairwise (RanksBefore query) ∧
      ∀ last ∈ given.getLast?, ∀ a ∈ left, RanksBefore query last a := by
  refine ⟨isNaN_cosine, transCmp_compareScores s query, ?_⟩
  obtain ⟨ranking, hperm, hsorted, hranked⟩ := exists_ranking s query
  -- The search gives the front of the ranking and leaves the rest out.
  have hsplit := List.take_append_drop k ranking
  have hsearch : s.search query k
      = (ranking.take k).map fun a => (a.1, cosine query a.1.vector) := by
    rw [search, hranked, List.map_take]
  rw [← hsplit, List.pairwise_append] at hsorted
  obtain ⟨hgiven, -, hacross⟩ := hsorted
  refine ⟨ranking.take k, ranking.drop k, hsplit.symm ▸ hperm, hsearch, ?_, hgiven, ?_⟩
  · have hlength : ranking.length = s.size := by simpa [size] using hperm.length_eq
    rw [hsearch, List.length_map, List.length_take, hlength]
  · intro last hlast a ha
    exact hacross last (List.mem_of_getLast? hlast) a ha

end VectorStore

end CodeAtlas
