import CodeAtlas.Proofs.Chunker.Groups

/-!
# `CodeAtlas.Proofs.Chunker.Spans`: where the chunks of a text lie

For every text, limit and nodes in order:

* `slice?_of_getElem?_chunk`: a chunk is the part of the text that its offsets name, and it
  begins and ends with no blank.
* `pairwise_chunk`: a chunk ends before the next one begins.
* `existsUnique_chunk_of_node`: what a node has between blanks lies inside one chunk and no other.

The spans whose trimmed texts are the chunks are placed like nodes (`placed_spans`), whether the
text is one span or packed, and one of them holds each node (`exists_span_of_node`). What a node
has between blanks survives the trimming of the span, because the blanks of the span can only
stand before and behind it (`exists_trimmed?_of_inside`).
-/

set_option autoImplicit false

namespace CodeAtlas.Chunker

open Text (byteSize)

/-! ### The spans of a text -/

/-- The spans of a text stand in order and begin and end on character boundaries. -/
theorem placed_spans (limit : Nat) {source : List Char} {nodes : List Span}
    (h : Placed source nodes) : Placed source (spans limit source nodes) := by
  rw [spans]
  split
  · exact ⟨⟨by simp, by simp⟩, by simp⟩
  · split
    · -- The whole text is one span.
      refine ⟨⟨by simp, by simp⟩, ?_⟩
      intro span hspan
      obtain rfl := List.mem_singleton.mp hspan
      exact ⟨Text.isBoundary_iff.mpr ⟨[], source, rfl, rfl⟩,
        Text.isBoundary_iff.mpr ⟨source, [], by simp, rfl⟩⟩
    · -- The span of a group runs from its first node to its last, and these are placed.
      have hcut := isCut_groups limit h.toOrdered
      rw [pack_eq_groups h.toOrdered]
      refine Placed.extents ?_ fun run hrun => (hcut.fits run hrun).ne_nil
      rw [hcut.flatten_eq]
      exact h

/-- One of the spans of a text that is not blank holds a given node. -/
theorem exists_span_of_node (limit : Nat) {source : List Char} {nodes : List Span}
    (h : Placed source nodes) (hblank : isBlank source = false) {node : Span}
    (hnode : node ∈ nodes) :
    ∃ span ∈ spans limit source nodes, span.start ≤ node.start ∧ node.stop ≤ span.stop := by
  rw [spans, hblank, if_neg (by simp)]
  split
  · exact ⟨_, List.mem_singleton.mpr rfl, Nat.zero_le _, h.stop_le_byteSize hnode⟩
  · have hcut := isCut_groups limit h.toOrdered
    rw [← hcut.flatten_eq] at hnode
    -- No node is lost in the cut, so it is in one of the groups, and its span holds it.
    obtain ⟨run, hrun, hmem⟩ := List.mem_flatten.mp hnode
    have hordered : Ordered run := by
      refine h.toOrdered.sublist ?_
      rw [← hcut.flatten_eq]
      exact List.sublist_flatten_of_mem hrun
    obtain ⟨first, others, rfl⟩ := List.exists_cons_of_ne_nil (hcut.fits run hrun).ne_nil
    rw [pack_eq_groups h.toOrdered]
    exact ⟨_, List.mem_map_of_mem hrun, hordered.inside_extent hmem⟩

/-- What stands between blanks in a part of a span is not trimmed from the span: trimming would have
to pass a character that is no blank. -/
theorem exists_trimmed?_of_inside {source raw lead text trail whole : List Char}
    {inner outer : Span} (hraw : Text.slice? source inner.start inner.stop = some raw)
    (htrims : Text.TrimsTo raw lead text trail)
    (hwhole : Text.slice? source outer.start outer.stop = some whole)
    (hstart : outer.start ≤ inner.start) (hstop : inner.stop ≤ outer.stop) :
    ∃ start found, trimmed? source outer = some (start, found) ∧
      start ≤ inner.start + byteSize lead ∧
      inner.start + byteSize lead + byteSize text ≤ start + byteSize found := by
  obtain ⟨front, rest, rfl, hfront⟩ := Text.exists_append_of_slice? hraw hwhole hstart hstop
  have hpart : front ++ (raw ++ rest) = (front ++ lead) ++ (text ++ (trail ++ rest)) := by
    simp [htrims.eq]
  -- The text of the inner span has a character that is no blank, so trimming leaves something.
  have hne : Text.trim (front ++ (raw ++ rest)) ≠ [] := by
    intro hnil
    obtain ⟨c, hc, hsolid⟩ := htrims.trimmed.exists_mem
    have hblank := Text.trim_eq_nil_iff.mp hnil c (by simp [htrims.eq, hc])
    simp [hsolid] at hblank
  obtain ⟨start, found, hfound⟩ := exists_trimmed? hwhole hne
  refine ⟨start, found, hfound, ?_⟩
  obtain ⟨whole, lead', trail', hslice, htrims', -, rfl⟩ := trimmed?_spec hfound
  obtain rfl := Option.some.inj (hslice.symm.trans hwhole)
  -- The blanks that are trimmed lie before and behind the text of the inner span.
  obtain ⟨m, hm⟩ := htrims'.exists_lead htrims.trimmed hpart
  obtain ⟨m', hm'⟩ := htrims'.exists_trail htrims.trimmed hpart
  have hsize := congrArg byteSize (htrims'.eq.symm.trans hpart)
  have hsize_front := congrArg byteSize hm
  have hsize_behind := congrArg byteSize hm'
  simp only [Text.byteSize_append] at hsize hsize_front hsize_behind
  omega

/-! ### The chunks of a text -/

section Chunks

variable {limit : Nat} {fileId : FileId} {source : List Char} {nodes : List Span}

/-- A chunk has its place in the list as index, is the part of the text that its offsets name,
and begins and ends with no blank. -/
theorem slice?_of_getElem?_chunk {i : Nat} {c : Chunk}
    (hc : (chunk limit fileId source nodes)[i]? = some c) :
    c.index = i ∧ Text.slice? source c.startByte c.endByte = some c.text.toList ∧
      Text.Trimmed c.text.toList := by
  rw [getElem?_chunk] at hc
  obtain ⟨⟨start, text⟩, hfound, rfl⟩ := Option.map_eq_some_iff.mp hc
  obtain ⟨span, -, htrimmed⟩ := List.mem_filterMap.mp (List.mem_of_getElem? hfound)
  obtain ⟨_, _, _, _, htrims, _⟩ := trimmed?_spec htrimmed
  simp only [toChunk, String.toList_ofList]
  exact ⟨trivial, (slice?_trimmed? htrimmed).1, htrims.trimmed⟩

/-- The places of the chunks are those of the texts that are found for the spans. -/
theorem map_place_chunk :
    (chunk limit fileId source nodes).map (fun c => Span.mk c.startByte c.endByte) =
      ((spans limit source nodes).filterMap (trimmed? source)).map
        fun found => ⟨found.1, found.1 + byteSize found.2⟩ := by
  refine List.ext_getElem? fun i => ?_
  rw [List.getElem?_map, getElem?_chunk, Option.map_map, List.getElem?_map]
  rfl

/-- A chunk ends before any later one begins. -/
theorem pairwise_chunk (limit : Nat) (fileId : FileId) (h : Placed source nodes) :
    (chunk limit fileId source nodes).Pairwise fun a b => a.endByte ≤ b.startByte := by
  have hspans := (placed_spans limit h).pairwise
  have hplaces : ((chunk limit fileId source nodes).map fun c =>
      Span.mk c.startByte c.endByte).Pairwise fun a b => a.stop ≤ b.start := by
    rw [map_place_chunk, List.pairwise_map, List.pairwise_filterMap]
    refine hspans.imp fun {a b} hab found hfound later hlater => ?_
    have hstop := (slice?_trimmed? hfound).2.2
    have hstart := (slice?_trimmed? hlater).2.1
    simp only
    omega
  exact List.pairwise_map.mp hplaces

/-- Chunks that share a byte are the same, which makes the chunk of a node unique. -/
theorem eq_of_common_byte (h : Placed source nodes) {a b : Chunk}
    (ha : a ∈ chunk limit fileId source nodes) (hb : b ∈ chunk limit fileId source nodes) {n : Nat}
    (han : a.startByte ≤ n ∧ n < a.endByte) (hbn : b.startByte ≤ n ∧ n < b.endByte) : a = b := by
  have hpairwise := List.pairwise_iff_getElem.mp (pairwise_chunk limit fileId h)
  obtain ⟨i, hi, rfl⟩ := List.getElem_of_mem ha
  obtain ⟨j, hj, rfl⟩ := List.getElem_of_mem hb
  rcases Nat.lt_trichotomy i j with hij | rfl | hij
  · have happart := hpairwise i j hi hj hij
    omega
  · rfl
  · have happart := hpairwise j i hj hi hij
    omega

/-- The text that is found for a span makes a chunk. -/
theorem exists_chunk_of_trimmed? (fileId : FileId) {span : Span}
    (hspan : span ∈ spans limit source nodes)
    {start : Nat} {text : List Char} (hfound : trimmed? source span = some (start, text)) :
    ∃ c ∈ chunk limit fileId source nodes, c.startByte = start ∧
      c.endByte = start + byteSize text := by
  have hmem : (start, text) ∈ (spans limit source nodes).filterMap (trimmed? source) :=
    List.mem_filterMap.mpr ⟨span, hspan, hfound⟩
  obtain ⟨i, hi⟩ := List.mem_iff_getElem?.mp hmem
  refine ⟨toChunk fileId i (start, text), List.mem_iff_getElem?.mpr ⟨i, ?_⟩, rfl, rfl⟩
  rw [getElem?_chunk, hi]
  rfl

/-- What a node has between blanks lies inside exactly one chunk. -/
theorem existsUnique_chunk_of_node (h : Placed source nodes) {node : Span} (hnode : node ∈ nodes)
    {raw lead text trail : List Char}
    (hraw : Text.slice? source node.start node.stop = some raw)
    (htrims : Text.TrimsTo raw lead text trail) :
    ∃! c, c ∈ chunk limit fileId source nodes ∧ c.startByte ≤ node.start + byteSize lead ∧
      node.start + byteSize lead + byteSize text ≤ c.endByte := by
  have hblank : isBlank source = false := by
    obtain ⟨before, behind, hsource, -, -⟩ := Text.slice?_eq_some_iff.mp hraw
    obtain ⟨d, hd, hsolid⟩ := htrims.trimmed.exists_mem
    have hmem : d ∈ source := by simp [hsource, htrims.eq, hd]
    rw [isBlank, List.all_eq_false]
    exact ⟨d, hmem, by simp [hsolid]⟩
  obtain ⟨span, hspan, hstart, hstop⟩ := exists_span_of_node limit h hblank hnode
  obtain ⟨whole, hwhole⟩ := (placed_spans limit h).exists_slice hspan
  obtain ⟨start, found, hfound, hfirst, hlast⟩ :=
    exists_trimmed?_of_inside hraw htrims hwhole hstart hstop
  obtain ⟨c, hc, hcstart, hcstop⟩ := exists_chunk_of_trimmed? fileId hspan hfound
  refine ⟨c, ⟨hc, by omega, by omega⟩, ?_⟩
  rintro other ⟨hother, hfirst', hlast'⟩
  -- The first byte of the text lies in both chunks.
  have hsize : byteSize text ≠ 0 := fun hzero =>
    htrims.trimmed.ne_nil (Text.eq_nil_of_byteSize_eq_zero hzero)
  exact eq_of_common_byte h hother hc (n := node.start + byteSize lead)
    ⟨hfirst', by omega⟩ ⟨by omega, by omega⟩

end Chunks

/-- **The chunks of a text are parts of it in order, and no node is split.** For every limit a
chunk has its place in the list as index, its text is the part of the source that its offsets
name, and it begins and ends with no blank. Each chunk ends before the next one begins. Of a
node whose text is not all blank, what stands between the blanks lies inside exactly one
chunk. -/
theorem chunk_places_exact (limit : Nat) (fileId : FileId) {source : List Char}
    {nodes : List Span} (h : Placed source nodes) :
    (∀ (i : Nat) (c : Chunk), (chunk limit fileId source nodes)[i]? = some c →
        c.index = i ∧ Text.slice? source c.startByte c.endByte = some c.text.toList ∧
          Text.Trimmed c.text.toList) ∧
      (chunk limit fileId source nodes).Pairwise (fun a b => a.endByte ≤ b.startByte) ∧
      ∀ node ∈ nodes, ∃ raw, Text.slice? source node.start node.stop = some raw ∧
        (isBlank raw = false → ∃ lead text trail, Text.TrimsTo raw lead text trail ∧
          ∃! c, c ∈ chunk limit fileId source nodes ∧
            c.startByte ≤ node.start + byteSize lead ∧
            node.start + byteSize lead + byteSize text ≤ c.endByte) := by
  refine ⟨fun i c => slice?_of_getElem?_chunk, pairwise_chunk limit fileId h, ?_⟩
  intro node hnode
  obtain ⟨raw, hraw⟩ := h.exists_slice hnode
  refine ⟨raw, hraw, fun hblank => ?_⟩
  have hne : Text.trim raw ≠ [] := by
    intro hnil
    have hall : isBlank raw = true := by
      simpa [isBlank] using Text.trim_eq_nil_iff.mp hnil
    rw [hall] at hblank
    simp at hblank
  -- A node that is not all blank has a trimmed text, which is what the chunks keep of it.
  obtain ⟨lead, trail, htrims, -⟩ := Text.exists_trimsTo hne
  exact ⟨lead, Text.trim raw, trail, htrims, existsUnique_chunk_of_node h hnode hraw htrims⟩

/-- Two nodes with blanks of their own at the front and at the end, of one and of three bytes.
The limit keeps them apart. -/
theorem chunk_places_exact_wide_blanks :
    Placed ['\u3000', 'f', 'é', '\u2003', 'g', 'h', '\n'] [⟨0, 6⟩, ⟨9, 12⟩] ∧
      Text.slice? ['\u3000', 'f', 'é', '\u2003', 'g', 'h', '\n'] 9 11 = some ['g', 'h'] ∧
      Text.Trimmed ['g', 'h'] ∧
      ∃ lead text trail, Text.TrimsTo ['g', 'h', '\n'] lead text trail ∧
        ∃! c, c ∈ chunk 5 "a.js" ['\u3000', 'f', 'é', '\u2003', 'g', 'h', '\n']
            [⟨0, 6⟩, ⟨9, 12⟩] ∧
          c.startByte ≤ 9 + byteSize lead ∧ 9 + byteSize lead + byteSize text ≤ c.endByte := by
  have hplaced : Placed ['\u3000', 'f', 'é', '\u2003', 'g', 'h', '\n'] [⟨0, 6⟩, ⟨9, 12⟩] := by
    decide
  obtain ⟨hchunks, -, hnodes⟩ := chunk_places_exact 5 "a.js" hplaced
  obtain ⟨-, hslice, htrimmed⟩ := hchunks 1 ⟨"a.js", 1, "gh", 9, 11⟩ (by decide +kernel)
  obtain ⟨raw, hraw, hnode⟩ := hnodes ⟨9, 12⟩ (by decide)
  have hgh : Text.slice? ['\u3000', 'f', 'é', '\u2003', 'g', 'h', '\n'] 9 12 =
      some ['g', 'h', '\n'] := by decide +kernel
  obtain rfl := Option.some.inj (hraw.symm.trans hgh)
  exact ⟨hplaced, hslice, htrimmed, hnode (by decide)⟩

end CodeAtlas.Chunker
