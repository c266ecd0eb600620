import CodeAtlas.Proofs.Chunker.Groups

/-!
# `CodeAtlas.Proofs.Chunker.Optimal`: no cut needs fewer chunks

Packing is greedy: a node joins the group in the making whenever the limit allows it. Nothing
is lost by that. However the nodes are cut into runs that may stand together, there are at
least as many runs as groups, and so as many as chunks (`groups_fewest`).

Two packings that differ only in where the group in the making starts never come apart by more
than one group (`length_packFrom_single_le`). The one whose group starts later is ahead: where
the other has to finish its group, it may keep its own, and from then on the two have changed
places. Giving up a group before it is full therefore costs at least as much as it can save
(`length_packFrom_le_pack`), and a run of any cut brings packing forward by one group
(`length_pack_append_le`).
-/

set_option autoImplicit false

namespace CodeAtlas.Chunker

open Text (byteSize)

section Ahead

variable {limit : Nat} {rest : List Span}

/-- What packing does with the next node, by the distance to its end. -/
theorem packFrom_single_cons {span node : Span} (h : Ordered (span :: node :: rest)) :
    packFrom limit (.single span) (node :: rest) =
      if limit < node.stop - span.start then span :: packFrom limit (.single node) rest
      else packFrom limit (.single ⟨span.start, node.stop⟩) rest := by
  have hpair : Ordered [span, node] := h.sublist (by simp)
  rw [packFrom, Group.sizeWith_single hpair, Group.extend_single hpair]
  rfl

/-- **Of two groups in the making that end at one place, the one that starts later is ahead,
by one group at most.** -/
theorem length_packFrom_single_le {nodes : List Span} {early late : Span}
    (hearly : Ordered (early :: nodes)) (hlate : Ordered (late :: nodes))
    (hstart : early.start ≤ late.start) (hstop : early.stop = late.stop) :
    (packFrom limit (.single late) nodes).length ≤ (packFrom limit (.single early) nodes).length ∧
      (packFrom limit (.single early) nodes).length ≤
        (packFrom limit (.single late) nodes).length + 1 := by
  induction nodes generalizing early late with
  | nil => simp [packFrom]
  | cons node rest ih =>
    have hnode : Ordered (node :: rest) := hlate.sublist (List.sublist_cons_self late _)
    have hbehind : late.start ≤ node.start := by
      have hforward := hlate.forward late List.mem_cons_self
      have hgap : late.stop ≤ node.start := hlate.stop_le List.mem_cons_self
      omega
    rw [packFrom_single_cons hearly, packFrom_single_cons hlate]
    by_cases hfull : limit < node.stop - late.start
    · -- Both groups are full, and both packings go on with the node.
      have hfull' : limit < node.stop - early.start := by omega
      rw [if_pos hfull, if_pos hfull']
      simp
    · by_cases hfull' : limit < node.stop - early.start
      · -- Only the early group is full. The packings change places: now the node is a group
        -- that starts late, and the late group with the node starts early.
        have hswap := ih hlate.join hnode hbehind rfl
        rw [if_neg hfull, if_pos hfull', List.length_cons]
        omega
      · -- Both groups take the node, and they still end at one place.
        rw [if_neg hfull, if_neg hfull']
        exact ih hearly.join hlate.join hstart rfl

/-- A group in the making saves at most one group, so starting afresh where a run of the cut ends
costs no more than the run itself. -/
theorem length_packFrom_le_pack {span : Span} {nodes : List Span} (h : Ordered (span :: nodes)) :
    (packFrom limit (.single span) nodes).length ≤ (pack limit nodes).length + 1 := by
  cases nodes with
  | nil => simp [packFrom, pack]
  | cons node rest =>
    rw [packFrom_single_cons h, pack]
    split
    · simp
    · -- The span with the node starts earlier than the node alone, and ends with it.
      have hspan := h.forward span List.mem_cons_self
      have hgap : span.stop ≤ node.start := h.stop_le List.mem_cons_self
      have hnode : Ordered (node :: rest) := h.sublist (List.sublist_cons_self span _)
      exact (length_packFrom_single_le h.join hnode (by simp only; omega) rfl).2

/-- A run within the limit joins one group, since packing only stops where the limit makes it. -/
theorem packFrom_append {first : Span} {others : List Span}
    (h : Ordered (first :: (others ++ rest))) (hfits : (extent (first :: others)).width ≤ limit) :
    packFrom limit (.single first) (others ++ rest) =
      packFrom limit (.single (extent (first :: others))) rest := by
  induction others generalizing first with
  | nil => rfl
  | cons next others ih =>
    rw [List.cons_append] at h ⊢
    have hjoin := h.join
    -- The whole run holds its first two nodes, so these keep within the limit too.
    have hinside := (hjoin.sublist (List.cons_sublist_cons.mpr
      (List.sublist_append_left others rest))).inside_extent List.mem_cons_self
    rw [extent_cons_cons] at hfits ⊢
    rw [Span.width] at hfits
    simp only at hinside
    rw [packFrom_single_cons h, if_neg (by omega)]
    exact ih hjoin hfits

/-- A run that may stand alone takes one group at most. -/
theorem length_pack_append_le {run : List Span} (h : Ordered (run ++ rest))
    (hfits : Fits limit run) :
    (pack limit (run ++ rest)).length ≤ (pack limit rest).length + 1 := by
  obtain ⟨first, others, rfl⟩ := List.exists_cons_of_ne_nil hfits.ne_nil
  have hpack : pack limit (first :: (others ++ rest)) =
      packFrom limit (.single (extent (first :: others))) rest := by
    rw [pack]
    rcases hfits.single_or_width_le with hsingle | hle
    · obtain rfl : others = [] := by simpa using hsingle
      rfl
    · exact packFrom_append h hle
  rw [List.cons_append, hpack]
  exact length_packFrom_le_pack h.join_run

end Ahead

/-! ### Any cut -/

/-- Packing needs no more groups than a cut has runs. -/
theorem length_groups_le_of_isCut {limit : Nat} {nodes : List Span} {cut : List (List Span)}
    (h : Ordered nodes) (hcut : IsCut limit nodes cut) :
    (groups limit nodes).length ≤ cut.length := by
  have hlength : (groups limit nodes).length = (pack limit nodes).length := by
    rw [pack_eq_groups h, List.length_map]
  obtain ⟨rfl, hfits⟩ := hcut
  rw [hlength]
  clear hlength
  -- Induction on the runs of the cut, each of which brings packing forward by one group at most.
  induction cut with
  | nil => simp [pack]
  | cons run cut ih =>
    rw [List.flatten_cons] at h ⊢
    have hrun := length_pack_append_le h (hfits run List.mem_cons_self)
    have hrest := ih (fun later hlater => hfits later (List.mem_cons_of_mem run hlater))
      (h.sublist (List.sublist_append_right _ _))
    rw [List.length_cons]
    omega

/-- Spans whose texts are blank make no chunks. -/
theorem length_chunk_le (limit : Nat) (fileId : FileId) (source : List Char) (nodes : List Span) :
    (chunk limit fileId source nodes).length ≤ (spans limit source nodes).length := by
  rw [chunk, List.length_mapIdx]
  exact List.length_filterMap_le _ _

/-- A packing has no more groups than nodes, for a group begins with each node at most. Nothing is
asked of the order of the nodes. -/
theorem length_packFrom_le_succ (limit : Nat) (g : Group) (nodes : List Span) :
    (packFrom limit g nodes).length ≤ nodes.length + 1 := by
  induction nodes generalizing g with
  | nil => exact Nat.le_refl 1
  | cons node rest ih =>
    rw [packFrom]
    split
    · rw [List.length_cons, List.length_cons]
      exact Nat.succ_le_succ (ih _)
    · exact (ih _).trans (Nat.le_succ _)

/-- A text has no more chunks than nodes, or it is a single chunk. -/
theorem length_chunk_le_max (limit : Nat) (fileId : FileId) (source : List Char)
    (nodes : List Span) : (chunk limit fileId source nodes).length ≤ max 1 nodes.length := by
  refine (length_chunk_le limit fileId source nodes).trans ?_
  rw [spans]
  split
  · exact Nat.zero_le _
  · split
    · exact Nat.le_max_left _ _
    · cases nodes with
      | nil => exact Nat.zero_le _
      | cons node rest =>
        exact (length_packFrom_le_succ limit _ rest).trans (Nat.le_max_right _ _)

/-- A cut has as many runs as there are chunks, or more. -/
theorem length_chunk_le_of_isCut {limit : Nat} {fileId : FileId} {source : List Char}
    {nodes : List Span} {cut : List (List Span)} (h : Ordered nodes)
    (hlong : limit < byteSize source) (hcut : IsCut limit nodes cut) :
    (chunk limit fileId source nodes).length ≤ cut.length := by
  have hle := length_chunk_le limit fileId source nodes
  cases hblank : isBlank source with
  | true =>
    have hnone : spans limit source nodes = [] := by simp [spans, hblank]
    rw [hnone, List.length_nil] at hle
    omega
  | false =>
    rw [spans_eq_groups h hlong hblank, List.length_map] at hle
    exact hle.trans (length_groups_le_of_isCut h hcut)

/-- **No cut of the nodes has fewer runs than there are groups, or chunks.** The text is too long
for one chunk, and the runs of a cut are single nodes or keep within the limit from the start of
their first to the end of their last node. The groups are such a cut themselves, so the bound
cannot be improved. -/
theorem groups_fewest {limit : Nat} (fileId : FileId) {source : List Char} {nodes : List Span}
    (h : Ordered nodes) (hlong : limit < byteSize source) :
    (isBlank source = false → spans limit source nodes = (groups limit nodes).map extent) ∧
      IsCut limit nodes (groups limit nodes) ∧
      ∀ cut, IsCut limit nodes cut →
        (groups limit nodes).length ≤ cut.length ∧
          (chunk limit fileId source nodes).length ≤ cut.length := by
  refine ⟨spans_eq_groups h hlong, isCut_groups limit h, ?_⟩
  intro cut hcut
  exact ⟨length_groups_le_of_isCut h hcut, length_chunk_le_of_isCut h hlong hcut⟩

/-- Three short nodes, one that is too long, and an empty one behind it. The cut puts the first
node apart; packing puts it with the second, and the empty node makes no chunk. -/
theorem groups_fewest_late_cut :
    Ordered [⟨0, 2⟩, ⟨3, 5⟩, ⟨6, 8⟩, ⟨9, 15⟩, ⟨15, 15⟩] ∧ 5 < byteSize "ab cd ef\nlonger".toList ∧
      IsCut 5 [⟨0, 2⟩, ⟨3, 5⟩, ⟨6, 8⟩, ⟨9, 15⟩, ⟨15, 15⟩]
        [[⟨0, 2⟩], [⟨3, 5⟩, ⟨6, 8⟩], [⟨9, 15⟩], [⟨15, 15⟩]] ∧
      (chunk 5 "a.js" "ab cd ef\nlonger".toList
        [⟨0, 2⟩, ⟨3, 5⟩, ⟨6, 8⟩, ⟨9, 15⟩, ⟨15, 15⟩]).length ≤ 4 := by
  have hordered : Ordered [⟨0, 2⟩, ⟨3, 5⟩, ⟨6, 8⟩, ⟨9, 15⟩, ⟨15, 15⟩] := ⟨by decide, by decide⟩
  have hlong : 5 < byteSize "ab cd ef\nlonger".toList := by decide
  have hcut : IsCut 5 [⟨0, 2⟩, ⟨3, 5⟩, ⟨6, 8⟩, ⟨9, 15⟩, ⟨15, 15⟩]
      [[⟨0, 2⟩], [⟨3, 5⟩, ⟨6, 8⟩], [⟨9, 15⟩], [⟨15, 15⟩]] := ⟨rfl, by decide⟩
  obtain ⟨-, -, hfewest⟩ := groups_fewest "a.js" hordered hlong
  exact ⟨hordered, hlong, hcut, (hfewest _ hcut).2⟩

end CodeAtlas.Chunker
