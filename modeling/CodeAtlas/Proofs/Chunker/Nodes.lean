import CodeAtlas.Proofs.Chunker.Content

/-!
# `CodeAtlas.Proofs.Chunker.Nodes`: nodes in order, and the spans over them

The nodes of a text stand in order and do not overlap (`Ordered`), and they begin and end on
character boundaries (`Placed`). Nothing is asked of what stands between them.

Neighbouring nodes are looked at as one span, from the start of the first to the end of the
last (`extent`). Such a span takes the place of its nodes in the order (`Ordered.join_run`) and
holds each of them (`Ordered.inside_extent`).
-/

set_option autoImplicit false

namespace CodeAtlas.Chunker

open Text (byteSize)

/-- The number of bytes from the start to the end of a span. -/
def Span.width (span : Span) : Nat :=
  span.stop - span.start

/-- Nodes that stand in order and do not overlap; a node may be empty. -/
structure Ordered (nodes : List Span) : Prop where
  forward : ∀ node ∈ nodes, node.start ≤ node.stop
  ordered : nodes.IsChain fun a b => a.stop ≤ b.start

/-- Nodes in order that begin and end on character boundaries of a text. -/
structure Placed (source : List Char) (nodes : List Span) : Prop extends Ordered nodes where
  boundaries : ∀ node ∈ nodes,
    Text.IsBoundary source node.start ∧ Text.IsBoundary source node.stop

instance (source : List Char) (nodes : List Span) : Decidable (Placed source nodes) :=
  decidable_of_iff
    ((∀ node ∈ nodes, node.start ≤ node.stop) ∧ (nodes.IsChain fun a b => a.stop ≤ b.start) ∧
      ∀ node ∈ nodes, Text.IsBoundary source node.start ∧ Text.IsBoundary source node.stop)
    ⟨fun ⟨h₁, h₂, h₃⟩ => ⟨⟨h₁, h₂⟩, h₃⟩, fun h => ⟨h.forward, h.ordered, h.boundaries⟩⟩

/-- The span from the start of the first node to the end of the last one. -/
def extent : List Span → Span
  | [] => ⟨0, 0⟩
  | first :: rest => ⟨first.start, (rest.getLastD first).stop⟩

namespace Ordered

/-- Of two nodes the earlier one ends before the later one starts. -/
theorem pairwise {nodes : List Span} (h : Ordered nodes) :
    nodes.Pairwise fun a b => a.stop ≤ b.start := by
  obtain ⟨hforward, hordered⟩ := h
  -- The order of neighbours is an order of all nodes, because no node goes backwards.
  induction nodes with
  | nil => exact List.Pairwise.nil
  | cons node rest ih =>
    have hrest : ∀ later ∈ rest, later.start ≤ later.stop :=
      fun later hlater => hforward later (List.mem_cons_of_mem _ hlater)
    exact List.pairwise_cons.mpr
      ⟨stop_le_start_of_isChain hordered hrest, ih hrest hordered.tail⟩

/-- Nodes are in order if each of them lies before all later ones, which is more than is asked of
neighbours. It is what a cut into groups gives, where neighbours come from different groups. -/
theorem of_pairwise {nodes : List Span} (hforward : ∀ node ∈ nodes, node.start ≤ node.stop)
    (hpairwise : nodes.Pairwise fun a b => a.stop ≤ b.start) : Ordered nodes :=
  ⟨hforward, hpairwise.isChain⟩

/-- Some of the nodes stand in order too. -/
theorem sublist {nodes all : List Span} (h : Ordered all) (hsub : nodes.Sublist all) :
    Ordered nodes :=
  of_pairwise (fun node hnode => h.forward node (hsub.subset hnode)) (h.pairwise.sublist hsub)

/-- The first span ends before any later one starts. -/
theorem stop_le {first : Span} {nodes : List Span} (h : Ordered (first :: nodes)) {node : Span}
    (hnode : node ∈ nodes) : first.stop ≤ node.start :=
  (List.pairwise_cons.mp h.pairwise).1 node hnode

end Ordered

/-! ### Spans over several nodes -/

/-- Another node at the end moves the end of the span. -/
theorem extent_append_singleton {run : List Span} (hne : run ≠ []) (node : Span) :
    extent (run ++ [node]) = ⟨(extent run).start, node.stop⟩ := by
  obtain ⟨first, rest, rfl⟩ := List.exists_cons_of_ne_nil hne
  simp [extent]

/-- Nodes can be joined to one span step by step. -/
theorem extent_cons_cons (a b : Span) (rest : List Span) :
    extent (a :: b :: rest) = extent (⟨a.start, b.stop⟩ :: rest) := by
  cases rest with
  | nil => rfl
  | cons c rest => rfl

/-- The span over several nodes begins where one of them begins and ends where one of them
ends. -/
theorem exists_extent_eq {run : List Span} (hne : run ≠ []) :
    ∃ first ∈ run, ∃ last ∈ run, extent run = ⟨first.start, last.stop⟩ := by
  obtain ⟨first, rest, rfl⟩ := List.exists_cons_of_ne_nil hne
  exact ⟨first, List.mem_cons_self, rest.getLastD first, List.getLastD_mem_cons, rfl⟩

namespace Ordered

/-- A span can take the place of the first two nodes. -/
theorem join {a b : Span} {rest : List Span} (h : Ordered (a :: b :: rest)) :
    Ordered (⟨a.start, b.stop⟩ :: rest) := by
  have ha := h.forward a (by simp)
  have hb := h.forward b (by simp)
  have hab : a.stop ≤ b.start := h.stop_le List.mem_cons_self
  have htail : Ordered (b :: rest) := h.sublist (List.sublist_cons_self a _)
  refine of_pairwise ?_ (List.pairwise_cons.mpr ⟨fun node hnode => htail.stop_le hnode, ?_⟩)
  · intro node hnode
    rcases List.mem_cons.mp hnode with rfl | hnode
    · show a.start ≤ b.stop
      omega
    · exact htail.forward node (List.mem_cons_of_mem b hnode)
  · exact (List.pairwise_cons.mp htail.pairwise).2

/-- A span can take the place of several neighbouring nodes. -/
theorem join_run {first : Span} {others rest : List Span}
    (h : Ordered (first :: (others ++ rest))) :
    Ordered (extent (first :: others) :: rest) := by
  induction others generalizing first with
  | nil => exact h
  | cons next others ih =>
    rw [extent_cons_cons]
    exact ih h.join

/-- The span over some nodes holds each of them. -/
theorem inside_extent {first : Span} {others : List Span} (h : Ordered (first :: others))
    {node : Span} (hnode : node ∈ first :: others) :
    (extent (first :: others)).start ≤ node.start ∧
      node.stop ≤ (extent (first :: others)).stop := by
  induction others generalizing first node with
  | nil =>
    rw [List.mem_singleton.mp hnode]
    exact ⟨Nat.le_refl _, Nat.le_refl _⟩
  | cons next others ih =>
    have hfirst := h.forward first (by simp)
    have hnext := h.forward next (by simp)
    have hgap : first.stop ≤ next.start := h.stop_le List.mem_cons_self
    rw [extent_cons_cons]
    -- The joined span of the first two holds both, and the whole span holds the joined one.
    have hmem : Span.mk first.start next.stop ∈ Span.mk first.start next.stop :: others :=
      List.mem_cons_self
    have hjoined := ih h.join hmem
    simp only at hjoined
    rcases List.mem_cons.mp hnode with rfl | hnode
    · omega
    · rcases List.mem_cons.mp hnode with rfl | hnode
      · omega
      · exact ih h.join (List.mem_cons_of_mem _ hnode)

/-- The spans over the runs into which nodes are cut stand in order like the nodes, and so do the
chunks made of them. -/
theorem extents {cut : List (List Span)} (h : Ordered cut.flatten)
    (hne : ∀ run ∈ cut, run ≠ []) : Ordered (cut.map extent) := by
  refine of_pairwise ?_ (List.pairwise_map.mpr ?_)
  · intro span hspan
    obtain ⟨run, hrun, rfl⟩ := List.mem_map.mp hspan
    obtain ⟨first, others, rfl⟩ := List.exists_cons_of_ne_nil (hne run hrun)
    -- The run in the form the joining of runs is stated for: one with nothing behind it.
    have hordered : Ordered (first :: (others ++ [])) := by
      rw [List.append_nil]
      exact h.sublist (List.sublist_flatten_of_mem hrun)
    exact hordered.join_run.forward _ List.mem_cons_self
  · -- The last node of a run stands before the first node of a later run.
    have hruns := (List.pairwise_flatten.mp h.pairwise).2
    refine hruns.imp_of_mem ?_
    intro a b ha hb hab
    obtain ⟨_, _, last, hlast, ha⟩ := exists_extent_eq (hne a ha)
    obtain ⟨first, hfirst, _, _, hb⟩ := exists_extent_eq (hne b hb)
    rw [ha, hb]
    exact hab last hlast first hfirst

end Ordered

/-- The spans over the runs into which nodes are cut are placed like the nodes. -/
theorem Placed.extents {source : List Char} {cut : List (List Span)}
    (h : Placed source cut.flatten) (hne : ∀ run ∈ cut, run ≠ []) :
    Placed source (cut.map extent) where
  toOrdered := h.toOrdered.extents hne
  boundaries := by
    intro span hspan
    obtain ⟨run, hrun, rfl⟩ := List.mem_map.mp hspan
    obtain ⟨first, hfirst, last, hlast, hextent⟩ := exists_extent_eq (hne run hrun)
    rw [hextent]
    exact ⟨(h.boundaries first (List.mem_flatten_of_mem hrun hfirst)).1,
      (h.boundaries last (List.mem_flatten_of_mem hrun hlast)).2⟩

/-! ### The text of a span -/

/-- Two boundaries in order are the ends of a slice. -/
theorem Placed.exists_slice {source : List Char} {nodes : List Span} (h : Placed source nodes)
    {node : Span} (hnode : node ∈ nodes) :
    ∃ raw, Text.slice? source node.start node.stop = some raw := by
  obtain ⟨hstart, hstop⟩ := h.boundaries node hnode
  -- The start splits the source, and the end splits what is behind the start.
  obtain ⟨a, b, rfl, ha⟩ := Text.isBoundary_iff.mp hstart
  have hle : byteSize a ≤ node.stop := ha ▸ h.forward node hnode
  obtain ⟨raw, rest, rfl, hsize⟩ := Text.exists_append_of_isBoundary hstop hle
  exact ⟨raw, Text.slice?_eq_some_iff.mpr ⟨a, rest, rfl, ha, by omega⟩⟩

/-- Nothing of a text lies behind its end. -/
theorem Placed.stop_le_byteSize {source : List Char} {nodes : List Span} (h : Placed source nodes)
    {node : Span} (hnode : node ∈ nodes) : node.stop ≤ byteSize source := by
  obtain ⟨a, b, rfl, ha⟩ := Text.isBoundary_iff.mp (h.boundaries node hnode).2
  rw [Text.byteSize_append]
  omega

/-- The text that is found for a span stands between blanks in the text of the span. -/
theorem trimmed?_spec {source text : List Char} {span : Span} {start : Nat}
    (h : trimmed? source span = some (start, text)) :
    ∃ raw lead trail, Text.slice? source span.start span.stop = some raw ∧
      Text.TrimsTo raw lead text trail ∧ text = Text.trim raw ∧
      start = span.start + byteSize lead := by
  rw [trimmed?] at h
  split at h
  · simp at h
  · rename_i raw hraw
    simp only at h
    split at h
    · simp at h
    · rename_i hne
      obtain ⟨lead, trail, htrims, hstart⟩ := Text.exists_trimsTo hne
      obtain ⟨hsize, rfl⟩ := Prod.mk.inj (Option.some.inj h)
      -- What trimming the front takes away is as long as the blanks before the text.
      have hlength : byteSize raw = byteSize lead + byteSize (Text.trimStart raw) := by
        rw [hstart, ← Text.byteSize_append, ← htrims.eq]
      exact ⟨raw, lead, trail, hraw, htrims, rfl, by omega⟩

/-- A text is found for every span whose text is not all blank. -/
theorem exists_trimmed? {source raw : List Char} {span : Span}
    (h : Text.slice? source span.start span.stop = some raw) (hne : Text.trim raw ≠ []) :
    ∃ start text, trimmed? source span = some (start, text) := by
  rw [trimmed?, h]
  simp [hne]

/-- The text that is found for a span is the slice of the source where it was found, and lies
inside the span. -/
theorem slice?_trimmed? {source text : List Char} {span : Span} {start : Nat}
    (h : trimmed? source span = some (start, text)) :
    Text.slice? source start (start + byteSize text) = some text ∧
      span.start ≤ start ∧ start + byteSize text ≤ span.stop := by
  obtain ⟨raw, lead, trail, hslice, htrims, -, rfl⟩ := trimmed?_spec h
  obtain ⟨before, behind, rfl, hbefore, hstop⟩ := Text.slice?_eq_some_iff.mp hslice
  rw [htrims.eq] at hstop ⊢
  simp only [Text.byteSize_append] at hstop
  refine ⟨Text.slice?_eq_some_iff.mpr ⟨before ++ lead, trail ++ behind, ?_, ?_, rfl⟩, ?_, ?_⟩
  -- The blanks at the front are a part of what stands before the text.
  · simp
  · rw [Text.byteSize_append, hbefore]
  · omega
  · omega

/-! ### The chunks of spans -/

/-- The chunk with an index is the one of the span with that index among those that have a
text. -/
theorem getElem?_chunk (limit : Nat) (fileId : FileId) (source : List Char) (nodes : List Span)
    (i : Nat) :
    (chunk limit fileId source nodes)[i]? =
      ((spans limit source nodes).filterMap (trimmed? source))[i]?.map (toChunk fileId i) := by
  rw [chunk, List.getElem?_mapIdx]

/-- Every chunk is the trimmed text of a span. -/
theorem exists_span_of_mem {limit : Nat} {fileId : FileId} {source : List Char}
    {nodes : List Span} {c : Chunk} (hc : c ∈ chunk limit fileId source nodes) :
    ∃ span ∈ spans limit source nodes,
      trimmed? source span = some (c.startByte, c.text.toList) := by
  obtain ⟨i, hi⟩ := List.mem_iff_getElem?.mp hc
  rw [getElem?_chunk] at hi
  obtain ⟨⟨start, text⟩, hfound, rfl⟩ := Option.map_eq_some_iff.mp hi
  obtain ⟨span, hspan, htrimmed⟩ := List.mem_filterMap.mp (List.mem_of_getElem? hfound)
  refine ⟨span, hspan, ?_⟩
  rw [htrimmed, toChunk, String.toList_ofList]

end CodeAtlas.Chunker
