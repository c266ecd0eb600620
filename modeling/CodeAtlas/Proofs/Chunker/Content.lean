import CodeAtlas.Analysis.Chunker
import CodeAtlas.Proofs.Text.Blank
import CodeAtlas.Proofs.Text.Utf8
import Mathlib.Data.List.Chain

/-!
# `CodeAtlas.Proofs.Chunker.Content`: chunks lose nothing but blanks

The nodes of a text stand in order and do not overlap, and what stands between them is blank
(`Covers`). Packing them into groups then keeps everything else: the texts of the chunks, one
behind the other and without their blanks, are the text without its blanks.

`Laid` is the same situation read from left to right: a gap, the text of a node, and the rest
of the text with the rest of the nodes. `Covers.laid` cuts the text at the offsets of the
nodes, and `flatMap_content_packFrom` is an induction on the nodes that are left, with the
text of the group in the making and the text behind it as its two parts. What a span
contributes is its `content`, whatever is trimmed from it (`unblank_texts_chunk`).
-/

set_option autoImplicit false

namespace CodeAtlas.Chunker

open Text (byteSize unblank)

/-- The nodes of a text from an offset on: each has its start before its end, they stand in
order and do not overlap, they begin and end on character boundaries, and every character
that is no blank lies inside one of them. -/
structure Covers (source : List Char) (n : Nat) (nodes : List Span) : Prop where
  forward : ∀ node ∈ nodes, node.start ≤ node.stop
  behind : ∀ node ∈ nodes, n ≤ node.start
  ordered : nodes.IsChain fun a b => a.stop ≤ b.start
  boundaries : ∀ node ∈ nodes,
    Text.IsBoundary source node.start ∧ Text.IsBoundary source node.stop
  covered : ∀ i (h : i < source.length), n ≤ Text.offset source i →
    Text.isBlank source[i] = false →
      ∃ node ∈ nodes, node.start ≤ Text.offset source i ∧
        Text.offset source (i + 1) ≤ node.stop

instance (source : List Char) (n : Nat) (nodes : List Span) : Decidable (Covers source n nodes) :=
  decidable_of_iff
    ((∀ node ∈ nodes, node.start ≤ node.stop) ∧ (∀ node ∈ nodes, n ≤ node.start) ∧
      (nodes.IsChain fun a b => a.stop ≤ b.start) ∧
      (∀ node ∈ nodes, Text.IsBoundary source node.start ∧ Text.IsBoundary source node.stop) ∧
      ∀ i (h : i < source.length), n ≤ Text.offset source i → Text.isBlank source[i] = false →
        ∃ node ∈ nodes, node.start ≤ Text.offset source i ∧
          Text.offset source (i + 1) ≤ node.stop)
    ⟨fun ⟨h₁, h₂, h₃, h₄, h₅⟩ => ⟨h₁, h₂, h₃, h₄, h₅⟩, fun h => ⟨h.1, h.2, h.3, h.4, h.5⟩⟩

/-- A text that begins at an offset, with the nodes that are laid out over it: only blanks
stand before, between and behind the nodes. -/
inductive Laid : Nat → List Char → List Span → Prop where
  | nil {n : Nat} {cs : List Char} (blank : unblank cs = []) : Laid n cs []
  | cons {n : Nat} {gap text rest : List Char} {nodes : List Span} (blank : unblank gap = [])
      (laid : Laid (n + byteSize gap + byteSize text) rest nodes) :
      Laid n (gap ++ (text ++ rest))
        (⟨n + byteSize gap, n + byteSize gap + byteSize text⟩ :: nodes)

/-- What a span of a text holds besides blanks. -/
def content (source : List Char) (span : Span) : List Char :=
  unblank ((Text.slice? source span.start span.stop).getD [])

/-- The texts of chunks, one behind the other. -/
def texts (chunks : List Chunk) : List Char :=
  chunks.flatMap fun c => c.text.toList

/-! ### From offsets to parts of the text -/

/-- The node that holds a character which is no blank. -/
theorem Covers.exists_mem {a b : List Char} {c : Char} {n : Nat} {nodes : List Span}
    (h : Covers (a ++ c :: b) n nodes) (hn : n ≤ byteSize a) (hc : Text.isBlank c = false) :
    ∃ node ∈ nodes, node.start ≤ byteSize a ∧ byteSize a + c.utf8Size ≤ node.stop := by
  have hlt : a.length < (a ++ c :: b).length := by simp
  have hget : (a ++ c :: b)[a.length] = c := by simp
  have hoffset := Text.offset_append_length a (c :: b)
  have hcovered := h.covered a.length hlt
  rw [Text.offset_succ hlt, hoffset, hget] at hcovered
  exact hcovered hn hc

/-- Every later node starts behind the end of the first. The order of neighbours carries over since
no node ends before it starts. -/
theorem stop_le_start_of_isChain {node : Span} {nodes : List Span}
    (hordered : (node :: nodes).IsChain fun a b => a.stop ≤ b.start)
    (hforward : ∀ later ∈ nodes, later.start ≤ later.stop) :
    ∀ later ∈ nodes, node.stop ≤ later.start := by
  induction nodes generalizing node with
  | nil => simp
  | cons next rest ih =>
    rw [List.isChain_cons_cons] at hordered
    obtain ⟨hfirst, hrest⟩ := hordered
    intro later hlater
    rcases List.mem_cons.mp hlater with rfl | hlater
    · exact hfirst
    · -- A later node stands behind the next one, and that one is no wider than nothing.
      have hnext := hforward next List.mem_cons_self
      have hstop := ih hrest (fun l hl => hforward l (List.mem_cons_of_mem _ hl)) later hlater
      omega

/-- Behind the first node the others are left, which is what the induction over the nodes goes on
with. -/
theorem Covers.tail {source : List Char} {n : Nat} {node : Span} {nodes : List Span}
    (h : Covers source n (node :: nodes)) : Covers source node.stop nodes where
  forward later hlater := h.forward later (List.mem_cons_of_mem _ hlater)
  behind := stop_le_start_of_isChain h.ordered
    fun later hlater => h.forward later (List.mem_cons_of_mem _ hlater)
  ordered := h.ordered.tail
  boundaries later hlater := h.boundaries later (List.mem_cons_of_mem _ hlater)
  covered i hi hn hc := by
    have hfirst := h.behind node List.mem_cons_self
    have hforward := h.forward node List.mem_cons_self
    obtain ⟨holder, hholder, hstart, hstop⟩ := h.covered i hi (by omega) hc
    rcases List.mem_cons.mp hholder with rfl | hrest
    · -- The character begins behind the end of the first node.
      have hsize := Char.utf8Size_pos source[i]
      rw [Text.offset_succ hi] at hstop
      omega
    · exact ⟨holder, hrest, hstart, hstop⟩

/-- Characters that come before every node are blanks, so nothing is lost in the gap between two
groups. -/
theorem Covers.unblank_eq_nil {source a gap b : List Char} {nodes : List Span}
    (h : Covers source (byteSize a) nodes) (hsource : source = a ++ (gap ++ b))
    (hgap : ∀ node ∈ nodes, byteSize a + byteSize gap ≤ node.start) :
    unblank gap = [] := by
  rw [Text.unblank_eq_nil_iff]
  intro c hc
  obtain ⟨p, q, rfl⟩ := List.append_of_mem hc
  by_contra hblank
  subst hsource
  rw [List.append_assoc, ← List.append_assoc] at h
  -- A character that is no blank is inside a node, but the nodes begin behind the gap.
  obtain ⟨node, hnode, hstart, -⟩ := h.exists_mem (by rw [Text.byteSize_append]; omega)
    (by simpa using hblank)
  have hlate := hgap node hnode
  have hsize := Char.utf8Size_pos c
  simp only [Text.byteSize_append, byteSize] at hstart hlate
  omega

/-- Nodes that cover a text from an offset on are laid out over what stands behind the
offset. -/
theorem Covers.laid {source a b : List Char} {nodes : List Span}
    (h : Covers source (byteSize a) nodes) (hsource : source = a ++ b) :
    Laid (byteSize a) b nodes := by
  induction nodes generalizing a b with
  | nil => exact .nil (h.unblank_eq_nil (b := []) (by simpa using hsource) (by simp))
  | cons node nodes ih =>
    obtain ⟨start, stop⟩ := node
    obtain ⟨hstart, hstop⟩ := h.boundaries ⟨start, stop⟩ List.mem_cons_self
    have hforward : start ≤ stop := h.forward ⟨start, stop⟩ List.mem_cons_self
    rw [hsource] at hstart hstop
    -- The start of the node ends the gap before it, and its end the text of the node.
    obtain ⟨gap, b, rfl, rfl⟩ :=
      Text.exists_append_of_isBoundary hstart (h.behind ⟨start, stop⟩ List.mem_cons_self)
    rw [← List.append_assoc, ← Text.byteSize_append] at *
    obtain ⟨text, b, rfl, rfl⟩ := Text.exists_append_of_isBoundary hstop hforward
    have hblank : unblank gap = [] := h.unblank_eq_nil (by simpa using hsource)
      fun later hlater => by
        rcases List.mem_cons.mp hlater with rfl | hlater
        · rw [Text.byteSize_append]
        · have hlate : byteSize (a ++ gap) + byteSize text ≤ later.start :=
            h.tail.behind later hlater
          rw [Text.byteSize_append] at hlate
          omega
    have hrest := ih (a := a ++ gap ++ text) (by
      rw [Text.byteSize_append]
      exact h.tail) (by simpa using hsource)
    rw [Text.byteSize_append, Text.byteSize_append] at hrest
    rw [Text.byteSize_append]
    exact .cons hblank hrest

/-! ### What spans contribute -/

/-- The span of a middle part of a text holds what that part holds. -/
theorem content_append (a b c : List Char) :
    content (a ++ (b ++ c)) ⟨byteSize a, byteSize a + byteSize b⟩ = unblank b := by
  rw [content, Text.slice?_append, Option.getD_some]

/-- A span's trimmed text is what the span holds, as far as it is no blanks; a span without
one holds nothing. -/
theorem unblank_trimmed? (source : List Char) (span : Span) :
    unblank (((trimmed? source span).map Prod.snd).getD []) = content source span := by
  rw [trimmed?, content]
  cases Text.slice? source span.start span.stop with
  | none => rfl
  | some raw =>
    simp only [Option.getD_some]
    rw [← Text.unblank_trim raw]
    split
    · rename_i hnil
      rw [hnil]
      rfl
    · rfl

/-- The texts of numbered chunks are the texts that were found. -/
theorem texts_mapIdx_toChunk (fileId : FileId) (found : List (Nat × List Char)) :
    texts (found.mapIdx (toChunk fileId)) = found.flatMap Prod.snd := by
  have hmap : found.mapIdx (toChunk fileId) =
      found.zipIdx.map fun p => toChunk fileId p.2 p.1 := by
    rw [List.mapIdx_eq_zipIdx_map]
  rw [hmap, texts, List.flatMap_map]
  simp only [toChunk, String.toList_ofList]
  conv_rhs => rw [← List.zipIdx_map_fst 0 found]
  rw [List.flatMap_map]

/-- The chunks of a text hold what their spans hold. -/
theorem unblank_texts_chunk_eq_flatMap (limit : Nat) (fileId : FileId) (source : List Char)
    (nodes : List Span) :
    unblank (texts (chunk limit fileId source nodes)) =
      (spans limit source nodes).flatMap (content source) := by
  rw [chunk, texts_mapIdx_toChunk]
  induction spans limit source nodes with
  | nil => rfl
  | cons span rest ih =>
    rw [List.flatMap_cons, ← ih, ← unblank_trimmed?, List.filterMap_cons]
    -- A span that is all blank gives no chunk, and none of its characters is missed.
    cases trimmed? source span with
    | none => rfl
    | some found =>
      rw [List.flatMap_cons, Text.unblank_append]
      rfl

/-! ### Packing -/

/-- Packing keeps what the group in the making and the text behind it hold. The text is read as what
stands before the group, the text of the group, and the rest. They are three variables because the
group may grow into the rest, and what it leaves behind grows with each group that is done. -/
theorem flatMap_content_packFrom {limit : Nat} {source a m b : List Char}
    {nodes : List Span} {g : Group} (hsource : source = a ++ (m ++ b))
    (hspan : g.span = ⟨byteSize a, byteSize a + byteSize m⟩)
    (h : Laid (byteSize a + byteSize m) b nodes) :
    (packFrom limit g nodes).flatMap (content source) = unblank (m ++ b) := by
  -- The induction follows `packFrom`: either the group in the making is a span, and its text moves
  -- to `a`, or it takes the node in, and the gap and the node move to `m`.
  induction nodes generalizing a m b g with
  | nil =>
    cases h with
    | nil blank =>
      rw [packFrom, List.flatMap_singleton, hspan, hsource, content_append,
        Text.unblank_append, blank, List.append_nil]
  | cons node nodes ih =>
    cases h with
    | @cons n gap text b nodes blank laid =>
      have hmid : unblank (m ++ (gap ++ (text ++ b))) =
          unblank m ++ unblank (text ++ b) := by
        rw [Text.unblank_append, Text.unblank_append gap, blank, List.nil_append]
      rw [packFrom]
      split
      · -- The group is full: its text is a span, and the node begins the next group.
        have hhead : content source g.span = unblank m := by
          rw [hspan, hsource, content_append]
        rw [List.flatMap_cons, hhead, hmid]
        congr 1
        refine ih (a := a ++ (m ++ gap)) (by simpa using hsource) ?_ ?_
        · simp [Group.single, Text.byteSize_append, Nat.add_assoc]
        · simpa [Text.byteSize_append, Nat.add_assoc] using laid
      · -- The node joins the group, and so does the gap before it.
        rw [← List.append_assoc gap, ← List.append_assoc m]
        refine ih (a := a) (by simpa using hsource) ?_ ?_
        · simp only [Group.extend, hspan, Text.byteSize_append, Span.mk.injEq, true_and]
          omega
        · simpa [Text.byteSize_append, Nat.add_assoc] using laid

/-- Packing the nodes of a text keeps what the text holds. -/
theorem flatMap_content_pack {limit : Nat} {source : List Char} {nodes : List Span}
    (h : Laid 0 source nodes) :
    (pack limit nodes).flatMap (content source) = unblank source := by
  cases h with
  | nil blank =>
    rw [blank]
    rfl
  | @cons _ gap text rest nodes blank laid =>
    rw [pack, Text.unblank_append, blank, List.nil_append]
    exact flatMap_content_packFrom rfl (by simp [Group.single]) (by simpa using laid)

/-- The spans of a text hold all of it but blanks: it may be blank itself, one span, or
packed. -/
theorem flatMap_content_spans {limit : Nat} {source : List Char} {nodes : List Span}
    (h : Covers source 0 nodes) :
    (spans limit source nodes).flatMap (content source) = unblank source := by
  rw [spans]
  split
  · rename_i hblank
    have hnil : unblank source = [] :=
      Text.unblank_eq_nil_iff.mpr (by simpa [isBlank] using hblank)
    rw [hnil]
    rfl
  · split
    · have hwhole := content_append [] source []
      rw [List.nil_append, List.append_nil] at hwhole
      simpa [byteSize] using hwhole
    · exact flatMap_content_pack (Covers.laid (a := []) h rfl)

/-! ### The chunks of a text -/

/-- **The texts of the chunks, one behind the other, are the text up to blanks.** Nothing
else is lost, repeated or moved, whatever the limit is. -/
theorem unblank_texts_chunk {limit : Nat} {fileId : FileId} {source : List Char}
    {nodes : List Span} (h : Covers source 0 nodes) :
    unblank (texts (chunk limit fileId source nodes)) = unblank source := by
  rw [unblank_texts_chunk_eq_flatMap, flatMap_content_spans h]

/-- Two functions between blanks of three bytes, and an empty node between the functions. The
limit allows the empty node beside the first function, and nothing more. -/
theorem unblank_texts_chunk_wide_blanks :
    Covers ['\u3000', 'f', 'é', ' ', ' ', '\u2003', 'g', '\n'] 0 [⟨3, 6⟩, ⟨7, 7⟩, ⟨11, 12⟩] ∧
      unblank (texts (chunk 4 "a.js" ['\u3000', 'f', 'é', ' ', ' ', '\u2003', 'g', '\n']
        [⟨3, 6⟩, ⟨7, 7⟩, ⟨11, 12⟩])) = ['f', 'é', 'g'] := by
  have hcovers :
      Covers ['\u3000', 'f', 'é', ' ', ' ', '\u2003', 'g', '\n'] 0
        [⟨3, 6⟩, ⟨7, 7⟩, ⟨11, 12⟩] := by decide
  exact ⟨hcovers, (unblank_texts_chunk hcovers).trans (by decide)⟩

end CodeAtlas.Chunker
