import CodeAtlas.Proofs.Chunker.Nodes

/-!
# `CodeAtlas.Proofs.Chunker.Groups`: the groups behind the spans

Packing keeps a span and a size, not the nodes they stand for. `Packing` keeps the nodes too:
what has been read is `finished` groups and the `members` of the group in the making.

* `Packing.Sound.read`: one node more keeps the size of the group in the making equal to the
  distance from its first to its last node, and every group within the limit unless it is a
  single node.
* `packing_sound`, `pack_eq_packing`: so it is wherever packing has come to, and what
  `packFrom` still has to do there is what is left to do with that group.
* `pack_eq_groups`, `isCut_groups`: the spans are those of the groups, and the groups cut the
  list of nodes into runs that may stand together.
-/

set_option autoImplicit false

namespace CodeAtlas.Chunker

open Text (byteSize)

/-! ### Groups of nodes -/

/-- Whether neighbouring nodes may be one group: there is only one of them, or they keep within
the limit from the start of the first to the end of the last. -/
structure Fits (limit : Nat) (run : List Span) : Prop where
  ne_nil : run ≠ []
  single_or_width_le : run.length = 1 ∨ (extent run).width ≤ limit

instance (limit : Nat) (run : List Span) : Decidable (Fits limit run) :=
  decidable_of_iff (run ≠ [] ∧ (run.length = 1 ∨ (extent run).width ≤ limit))
    ⟨fun ⟨h₁, h₂⟩ => ⟨h₁, h₂⟩, fun h => ⟨h.ne_nil, h.single_or_width_le⟩⟩

/-- A way to cut a list of nodes into groups. -/
structure IsCut (limit : Nat) (nodes : List Span) (cut : List (List Span)) : Prop where
  flatten_eq : cut.flatten = nodes
  fits : ∀ run ∈ cut, Fits limit run

/-- A node may always stand alone, however wide it is. -/
theorem Fits.singleton (limit : Nat) (node : Span) : Fits limit [node] :=
  ⟨by simp, .inl rfl⟩

/-- Another group at the end cuts a longer list. -/
theorem IsCut.append_singleton {limit : Nat} {nodes run : List Span} {cut : List (List Span)}
    (h : IsCut limit nodes cut) (hrun : Fits limit run) :
    IsCut limit (nodes ++ run) (cut ++ [run]) where
  flatten_eq := by simp [h.flatten_eq]
  fits r hr := by
    rcases List.mem_append.mp hr with hr | hr
    · exact h.fits r hr
    · exact List.mem_singleton.mp hr ▸ hrun

/-! ### One node more -/

/-- The size counted for a span with another node is the distance from the start of the span to
the end of the node. -/
theorem Group.sizeWith_single {span node : Span} (h : Ordered [span, node]) :
    (Group.single span).sizeWith node = node.stop - span.start := by
  have hspan := h.forward span (by simp)
  have hnode := h.forward node (by simp)
  have hgap : span.stop ≤ node.start := h.stop_le List.mem_cons_self
  simp only [Group.sizeWith, Group.single]
  omega

/-- A span with another node is again a span of its own. -/
theorem Group.extend_single {span node : Span} (h : Ordered [span, node]) :
    (Group.single span).extend node = Group.single ⟨span.start, node.stop⟩ := by
  have hnode := h.forward node (by simp)
  have hgap : span.stop ≤ node.start := h.stop_le List.mem_cons_self
  have hmax : max node.stop span.stop = node.stop := by omega
  rw [Group.extend, Group.sizeWith_single h]
  simp only [Group.single, hmax]

/-! ### Packing with the nodes -/

/-- How far packing has come: the groups that are finished, the nodes of the group in the
making, and that group. -/
structure Packing where
  finished : List (List Span)
  members : List Span
  group : Group

namespace Packing

/-- The first node begins the first group. -/
def start (first : Span) : Packing :=
  ⟨[], [first], Group.single first⟩

/-- One node more is read. -/
def read (limit : Nat) (p : Packing) (node : Span) : Packing :=
  if limit < p.group.sizeWith node then
    ⟨p.finished ++ [p.members], [node], Group.single node⟩
  else ⟨p.finished, p.members ++ [node], p.group.extend node⟩

/-- All groups, if no node follows. -/
def groups (p : Packing) : List (List Span) :=
  p.finished ++ [p.members]

/-- The group in the making is the span of its members with its own size, and the groups cut
what has been read. -/
structure Sound (limit : Nat) (nodes : List Span) (p : Packing) : Prop where
  group_eq : p.group = Group.single (extent p.members)
  isCut : IsCut limit nodes p.groups

end Packing

/-- How far packing has come when it has read the first node and some more. -/
def packing (limit : Nat) (first : Span) (nodes : List Span) : Packing :=
  nodes.foldl (Packing.read limit) (Packing.start first)

/-- The groups into which nodes are packed. -/
def groups (limit : Nat) : List Span → List (List Span)
  | [] => []
  | first :: rest => (packing limit first rest).groups

namespace Packing

variable {limit : Nat} {nodes : List Span} {p : Packing} {node : Span}

/-- Packing begins with a sound state: the first node is a group of its own. -/
theorem Sound.start (limit : Nat) (first : Span) : Sound limit [first] (Packing.start first) where
  group_eq := rfl
  isCut := ⟨rfl, by simpa [groups, Packing.start] using Fits.singleton limit first⟩

/-- The members of the group in the making were read last. -/
theorem Sound.append_members (h : Sound limit nodes p) :
    p.finished.flatten ++ p.members = nodes := by
  simpa [groups] using h.isCut.flatten_eq

/-- The group in the making is one of the groups, so its nodes may stand together. -/
theorem Sound.fits_members (h : Sound limit nodes p) : Fits limit p.members :=
  h.isCut.fits p.members (by simp [groups])

/-- The finished groups cut what came before. -/
theorem Sound.isCut_finished (h : Sound limit nodes p) :
    IsCut limit p.finished.flatten p.finished :=
  ⟨rfl, fun run hrun => h.isCut.fits run (List.mem_append_left _ hrun)⟩

/-- The members of the group in the making stand in order before the next node. -/
theorem Sound.ordered (h : Sound limit nodes p) (hnodes : Ordered (nodes ++ [node])) :
    Ordered (p.members ++ [node]) := by
  rw [← h.append_members, List.append_assoc] at hnodes
  exact hnodes.sublist (List.sublist_append_right _ _)

/-- A node that comes next lies behind the span of the group in the making, as it lies behind its
nodes. -/
theorem Sound.ordered_extent (h : Sound limit nodes p) (hnodes : Ordered (nodes ++ [node])) :
    Ordered [extent p.members, node] := by
  have hordered := h.ordered hnodes
  obtain ⟨first, others, hcons⟩ := List.exists_cons_of_ne_nil h.fits_members.ne_nil
  rw [hcons] at hordered ⊢
  exact hordered.join_run

/-- The size that is compared with the limit is the distance from the first member to the end of the
next node. The code adds up sizes as it goes; that this is a distance is what makes the limit a
limit on the text. -/
theorem Sound.sizeWith_eq (h : Sound limit nodes p) (hnodes : Ordered (nodes ++ [node])) :
    p.group.sizeWith node = (extent (p.members ++ [node])).width := by
  rw [h.group_eq, Group.sizeWith_single (h.ordered_extent hnodes),
    extent_append_singleton h.fits_members.ne_nil]
  rfl

/-- **One node more keeps the account of the sizes.** -/
theorem Sound.read (h : Sound limit nodes p) (hnodes : Ordered (nodes ++ [node])) :
    Sound limit (nodes ++ [node]) (p.read limit node) := by
  have hsize := h.sizeWith_eq hnodes
  rw [Packing.read]
  split
  · -- The group is finished as it is, and the node is a group of its own.
    exact ⟨rfl, h.isCut.append_singleton (Fits.singleton limit node)⟩
  · -- The node joins the group, which keeps within the limit with it.
    have hwidth : (extent (p.members ++ [node])).width ≤ limit := by omega
    refine ⟨?_, ?_⟩
    · rw [h.group_eq, Group.extend_single (h.ordered_extent hnodes),
        extent_append_singleton h.fits_members.ne_nil]
    · rw [← h.append_members, List.append_assoc]
      exact h.isCut_finished.append_singleton ⟨by simp, .inr hwidth⟩

/-- What is left to do with the group in the making stays the same when one node is read. So a run
may be stopped anywhere and taken up again. -/
theorem Sound.packFrom_cons (h : Sound limit nodes p) (rest : List Span) :
    p.finished.map extent ++ packFrom limit p.group (node :: rest) =
      (p.read limit node).finished.map extent ++ packFrom limit (p.read limit node).group rest := by
  rw [packFrom, Packing.read]
  split
  · rw [h.group_eq]
    simp [Group.single]
  · rfl

end Packing

/-! ### Packing all nodes -/

section Packing

variable {limit : Nat} {first : Span} {nodes rest : List Span}

/-- A packing reads its nodes from the left, so the last one is read by one more step. This makes
induction from the end of the list possible. -/
theorem packing_append_singleton (node : Span) :
    packing limit first (nodes ++ [node]) = (packing limit first nodes).read limit node := by
  rw [packing, List.foldl_append]
  rfl

/-- Wherever packing has come to, the account of the sizes holds. -/
theorem packing_sound (h : Ordered (first :: nodes)) :
    (packing limit first nodes).Sound limit (first :: nodes) := by
  induction nodes using List.reverseRecOn with
  | nil => exact .start limit first
  | append_singleton nodes node ih =>
    rw [packing_append_singleton]
    exact (ih (h.sublist (by simp))).read h

/-- Wherever packing has come to, the spans are those of the finished groups and the ones that
the group in the making and the nodes behind it still give. -/
theorem pack_eq_packing (h : Ordered (first :: (nodes ++ rest))) :
    pack limit (first :: (nodes ++ rest)) =
      (packing limit first nodes).finished.map extent ++
        packFrom limit (packing limit first nodes).group rest := by
  -- Induction from the end: the node that was read last was the first one left before.
  induction nodes using List.reverseRecOn generalizing rest with
  | nil => rfl
  | append_singleton nodes node ih =>
    have hsound : (packing limit first nodes).Sound limit (first :: nodes) :=
      packing_sound (h.sublist (by simp))
    rw [packing_append_singleton, ← hsound.packFrom_cons, ← ih (by simpa using h)]
    simp

/-- The spans are those of the groups. -/
theorem pack_eq_groups (h : Ordered nodes) :
    pack limit nodes = (groups limit nodes).map extent := by
  cases nodes with
  | nil => rfl
  | cons first rest =>
    have hpack : pack limit (first :: (rest ++ [])) =
        (packing limit first rest).finished.map extent ++
          packFrom limit (packing limit first rest).group [] :=
      pack_eq_packing (by simpa using h)
    rw [List.append_nil] at hpack
    rw [hpack, (packing_sound h).group_eq, groups, Packing.groups, List.map_append]
    rfl

/-- The groups cut the list of nodes. -/
theorem isCut_groups (limit : Nat) (h : Ordered nodes) :
    IsCut limit nodes (groups limit nodes) := by
  cases nodes with
  | nil => exact ⟨rfl, by simp [groups]⟩
  | cons first rest => exact (packing_sound h).isCut

end Packing

/-! ### The sizes of groups and chunks -/

/-- What the sizes are where packing has come to some nodes that are left: the size counted for
the group in the making, and the one that is compared with the limit for the next node, are
distances in the text. -/
structure Packing.Accounts (source : List Char) (p : Packing) (rest : List Span) : Prop where
  size_eq : p.group.size = (extent p.members).width
  size_le : p.group.size ≤ byteSize source
  sizeWith_eq : ∀ node ∈ rest.head?, p.group.sizeWith node = (extent (p.members ++ [node])).width
  sizeWith_le : ∀ node ∈ rest.head?, p.group.sizeWith node ≤ byteSize source

/-- The span over some nodes of a text is no wider than the text. -/
theorem Placed.width_extent_le {source : List Char} {nodes run : List Span}
    (h : Placed source nodes) (hsub : run ⊆ nodes) : (extent run).width ≤ byteSize source := by
  cases run with
  | nil => simp [extent, Span.width]
  | cons first others =>
    obtain ⟨_, _, last, hlast, hextent⟩ := exists_extent_eq (List.cons_ne_nil first others)
    have hstop := h.stop_le_byteSize (hsub hlast)
    rw [hextent, Span.width]
    simp only
    omega

/-- The size that packing counts for a group is the distance between the ends of the group, for
every state that packing can come to. -/
theorem packing_accounts {limit : Nat} {source : List Char} {first : Span}
    {nodes rest : List Span} (h : Placed source (first :: (nodes ++ rest))) :
    (packing limit first nodes).Accounts source rest := by
  have hsound : (packing limit first nodes).Sound limit (first :: nodes) :=
    packing_sound (h.sublist (by simp))
  -- The members have been read, so the span over them lies in the text.
  have hmembers : (packing limit first nodes).members ⊆ first :: nodes := by
    rw [← hsound.append_members]
    exact List.subset_append_right _ _
  have hsize : (packing limit first nodes).group.size =
      (extent (packing limit first nodes).members).width := by
    rw [hsound.group_eq]
    rfl
  have hnext : ∀ node ∈ rest.head?, (packing limit first nodes).group.sizeWith node =
      (extent ((packing limit first nodes).members ++ [node])).width := by
    intro node hnode
    obtain ⟨later, rfl⟩ := List.head?_eq_some_iff.mp hnode
    exact hsound.sizeWith_eq (h.sublist (by simp))
  have hread : (packing limit first nodes).members ⊆ first :: (nodes ++ rest) :=
    List.Subset.trans hmembers (List.cons_subset_cons first (List.subset_append_left nodes rest))
  refine ⟨hsize, ?_, hnext, ?_⟩
  · rw [hsize]
    exact h.width_extent_le hread
  · intro node hnode
    have hmem : node ∈ rest := List.mem_of_mem_head? hnode
    rw [hnext node hnode]
    exact h.width_extent_le (List.append_subset.mpr ⟨hread, by simp [hmem]⟩)

/-- The spans of a text that is too long for one chunk are those of its groups. -/
theorem spans_eq_groups {limit : Nat} {source : List Char} {nodes : List Span}
    (h : Ordered nodes) (hlong : limit < byteSize source) (hblank : isBlank source = false) :
    spans limit source nodes = (groups limit nodes).map extent := by
  have hle : ¬ byteSize source ≤ limit := by omega
  rw [spans, hblank, if_neg (by simp), if_neg hle, pack_eq_groups h]

/-- A chunk that is too long is the text of a single node that is too long. -/
theorem exists_node_of_long {limit : Nat} {fileId : FileId} {source : List Char}
    {nodes : List Span} (h : Ordered nodes) (hlong : limit < byteSize source) {c : Chunk}
    (hc : c ∈ chunk limit fileId source nodes) (hsize : limit < byteSize c.text.toList) :
    ∃ node ∈ nodes, limit < node.width ∧
      (Text.slice? source node.start node.stop).map Text.trim = some c.text.toList := by
  obtain ⟨span, hspan, htrimmed⟩ := exists_span_of_mem hc
  have hblank : isBlank source = false := by
    -- A blank text has no spans.
    by_contra hblank
    simp [spans, hblank] at hspan
  rw [spans_eq_groups h hlong hblank] at hspan
  obtain ⟨run, hrun, rfl⟩ := List.mem_map.mp hspan
  have hcut := isCut_groups limit h
  have hwidth : limit < (extent run).width := by
    obtain ⟨-, hstart, hstop⟩ := slice?_trimmed? htrimmed
    rw [Span.width]
    omega
  -- Several nodes would be a group that keeps within the limit.
  have hsingle : run.length = 1 := by
    rcases (hcut.fits run hrun).single_or_width_le with hsingle | hle
    · exact hsingle
    · omega
  obtain ⟨node, rfl⟩ := List.length_eq_one_iff.mp hsingle
  have hmem : node ∈ nodes := by
    rw [← hcut.flatten_eq]
    exact List.mem_flatten_of_mem hrun (by simp)
  obtain ⟨raw, -, -, hslice, -, htext, -⟩ := trimmed?_spec htrimmed
  refine ⟨node, hmem, hwidth, ?_⟩
  rw [htext]
  exact congrArg (Option.map Text.trim) hslice

/-- **The limit bounds every group of several nodes.** In a text that is too long for one chunk
the size that is counted is a distance in the text wherever packing has come to. The groups
whose spans become chunks therefore keep within the limit unless they are single nodes, and a
chunk that is longer than the limit is the trimmed text of one node that is longer. -/
theorem packing_within_limit {limit : Nat} (fileId : FileId) {source : List Char}
    {nodes : List Span} (h : Placed source nodes) (hlong : limit < byteSize source) :
    (∀ first read rest, nodes = first :: (read ++ rest) →
      pack limit nodes =
          (packing limit first read).finished.map extent ++
            packFrom limit (packing limit first read).group rest ∧
        (packing limit first read).Accounts source rest) ∧
      (isBlank source = false → spans limit source nodes = (groups limit nodes).map extent) ∧
      (groups limit nodes).flatten = nodes ∧
      (∀ run ∈ groups limit nodes, run ≠ [] ∧ (2 ≤ run.length → (extent run).width ≤ limit)) ∧
      ∀ c ∈ chunk limit fileId source nodes, limit < byteSize c.text.toList →
        ∃ node ∈ nodes, limit < node.width ∧
          (Text.slice? source node.start node.stop).map Text.trim = some c.text.toList := by
  have hcut := isCut_groups limit h.toOrdered
  refine ⟨?_, spans_eq_groups h.toOrdered hlong, hcut.flatten_eq, ?_, fun c hc hsize =>
    exists_node_of_long h.toOrdered hlong hc hsize⟩
  · intro first read rest hsplit
    subst hsplit
    exact ⟨pack_eq_packing h.toOrdered, packing_accounts h⟩
  · -- A group of several nodes was made by adding one to it, and was tested then.
    intro run hrun
    have hfits := hcut.fits run hrun
    refine ⟨hfits.ne_nil, fun hseveral => ?_⟩
    rcases hfits.single_or_width_le with hsingle | hle
    · omega
    · exact hle

/-- A node of six bytes and, behind blanks of several bytes, an empty node and one of a single
byte. The limit of five bytes keeps the first node apart, whole as it is, and the other two
together with the four bytes between them. -/
theorem packing_within_limit_wide_node :
    Placed ['\u3000', 'f', 'g', 'h', 'é', 'i', ' ', '\u2003', 'g', '\n']
        [⟨3, 9⟩, ⟨10, 10⟩, ⟨13, 14⟩] ∧
      5 < byteSize ['\u3000', 'f', 'g', 'h', 'é', 'i', ' ', '\u2003', 'g', '\n'] ∧
      groups 5 [⟨3, 9⟩, ⟨10, 10⟩, ⟨13, 14⟩] = [[⟨3, 9⟩], [⟨10, 10⟩, ⟨13, 14⟩]] ∧
      (packing 5 ⟨3, 9⟩ [⟨10, 10⟩]).group.sizeWith ⟨13, 14⟩ = 4 ∧
      ∃ node ∈ [⟨3, 9⟩, ⟨10, 10⟩, ⟨13, 14⟩], 5 < Span.width node ∧
        (Text.slice? ['\u3000', 'f', 'g', 'h', 'é', 'i', ' ', '\u2003', 'g', '\n']
          node.start node.stop).map Text.trim = some ['f', 'g', 'h', 'é', 'i'] := by
  have hplaced : Placed ['\u3000', 'f', 'g', 'h', 'é', 'i', ' ', '\u2003', 'g', '\n']
      [⟨3, 9⟩, ⟨10, 10⟩, ⟨13, 14⟩] := by decide
  have hlong : 5 < byteSize ['\u3000', 'f', 'g', 'h', 'é', 'i', ' ', '\u2003', 'g', '\n'] := by
    decide
  obtain ⟨hpacking, -, -, -, hchunks⟩ :=
    packing_within_limit "a.js" hplaced hlong
  have hsize := (hpacking ⟨3, 9⟩ [⟨10, 10⟩] [⟨13, 14⟩] rfl).2.sizeWith_eq ⟨13, 14⟩ rfl
  exact ⟨hplaced, hlong, by decide, hsize.trans (by decide),
    hchunks ⟨"a.js", 0, "fghéi", 3, 9⟩ (by decide +kernel) (by decide)⟩

end CodeAtlas.Chunker
