import CodeAtlas.Proofs.Graph.Edges
import CodeAtlas.Proofs.Text.Hyphen
import Mathlib.Data.List.Nodup
import Mathlib.Data.List.Sigma

/-!
# `CodeAtlas.Proofs.Graph.EdgeIds`: when edges can be told by their ids

The id of an edge is glued with hyphens from its link: the ids of the two files, the place of
the import or call in its file, and the line of the declaration. Two edges have the same id if
they have the same link, or if their links overlap at a hyphen in the names of the files. The
theorems:

* `ImportLink.id_eq_iff`, `CallLink.id_eq_iff`: which links give the same id.
* `nodup_importLinks`, `nodup_callLinks_iff`: no import is linked twice. A call is, if its name
  is declared twice on a line of another file.
* `nodup_edge_ids_iff`: all edges of a graph have different ids exactly if its links are
  separable. Without hyphens in the names of files, they are if no name that is called is
  declared twice on a line (`separable_iff_of_no_hyphen`).
-/

set_option autoImplicit false

namespace CodeAtlas

/-! ### Links -/

/-- What tells an import from all others, and the file that it means. -/
structure ImportLink where
  source : FileId
  /-- The place among the imports of its file. -/
  index : Nat
  target : FileId
deriving DecidableEq, Repr

/-- What tells a call from all others, and the place of a declaration that it may reach. -/
structure CallLink where
  source : FileId
  /-- The place among the calls of its file. -/
  index : Nat
  target : FileId
  /-- The line of the declaration. -/
  line : Nat
deriving DecidableEq, Repr

namespace EdgeContext

/-- The links of all imports that mean a file. -/
def importLinks (ctx : EdgeContext) : List ImportLink :=
  ctx.files.flatMap fun file => file.imports.zipIdx.flatMap fun i =>
    ((Resolve.resolve i.1.modulePath file.id ctx.fileIds).map fun target =>
      ⟨file.id, i.2, target⟩).toList

/-- The links of a call to the declarations of its name in a file, unless it is its own. -/
def linksTo (source : FileId) (call : CallSite) (index : Nat) (other : FileAnalysis) :
    List CallLink :=
  if other.id = source then []
  else (other.symbols.filter fun s => s.name = call.name).map fun s =>
    ⟨source, index, other.id, s.line⟩

/-- The links of all calls. -/
def callLinks (ctx : EdgeContext) : List CallLink :=
  ctx.files.flatMap fun file => file.calls.zipIdx.flatMap fun call =>
    ctx.files.flatMap (linksTo file.id call.1 call.2)

end EdgeContext

namespace EdgeContext

variable {ctx : EdgeContext}

/-- An import is linked to what it means. -/
theorem mem_importLinks_iff {l : ImportLink} :
    l ∈ ctx.importLinks ↔ ∃ file ∈ ctx.files, file.id = l.source ∧
      ∃ i, file.imports[l.index]? = some i ∧
        Resolve.resolve i.modulePath l.source ctx.fileIds = some l.target := by
  rw [importLinks, List.mem_flatMap]
  refine exists_congr fun file => and_congr_right fun _ => ?_
  rw [List.mem_flatMap]
  constructor
  · rintro ⟨⟨i, index⟩, hi, hl⟩
    -- The number of an import is its place in its file, which `zipIdx` gives it.
    obtain ⟨target, htarget, rfl⟩ := Option.map_eq_some_iff.mp (Option.mem_toList.mp hl)
    exact ⟨rfl, i, List.mk_mem_zipIdx_iff_getElem?.mp hi, htarget⟩
  · rintro ⟨hid, i, hi, htarget⟩
    refine ⟨(i, l.index), List.mk_mem_zipIdx_iff_getElem?.mpr hi, ?_⟩
    rw [hid, htarget]
    simp

/-- A call is linked to the declarations of its name in other files. -/
theorem mem_callLinks_iff {l : CallLink} :
    l ∈ ctx.callLinks ↔ ∃ file ∈ ctx.files, file.id = l.source ∧
      ∃ call, file.calls[l.index]? = some call ∧
        ∃ other ∈ ctx.files, other.id = l.target ∧ l.target ≠ l.source ∧
          ∃ s ∈ other.symbols, s.name = call.name ∧ s.line = l.line := by
  rw [callLinks, List.mem_flatMap]
  refine exists_congr fun file => and_congr_right fun _ => ?_
  rw [List.mem_flatMap]
  constructor
  · rintro ⟨⟨call, index⟩, hcall, hl⟩
    obtain ⟨other, hother, hl⟩ := List.mem_flatMap.mp hl
    -- A file is not linked to itself, so the link comes from the other branch.
    rw [linksTo] at hl
    split at hl
    · exact absurd hl List.not_mem_nil
    · rename_i hne
      obtain ⟨s, hs, rfl⟩ := List.mem_map.mp hl
      obtain ⟨hs, hname⟩ := List.mem_filter.mp hs
      exact ⟨rfl, call, List.mk_mem_zipIdx_iff_getElem?.mp hcall, other, hother, rfl, hne, s, hs,
        of_decide_eq_true hname, rfl⟩
  · rintro ⟨hid, call, hcall, other, hother, htarget, hne, s, hs, hname, hline⟩
    refine ⟨(call, l.index), List.mk_mem_zipIdx_iff_getElem?.mpr hcall,
      List.mem_flatMap.mpr ⟨other, hother, ?_⟩⟩
    rw [linksTo, if_neg (by rw [htarget, hid]; exact hne)]
    refine List.mem_map.mpr ⟨s, List.mem_filter.mpr ⟨hs, decide_eq_true hname⟩, ?_⟩
    rw [hid, htarget, hline]

end EdgeContext

/-! ### Ids of imports -/

namespace ImportLink

/-- The id of the edge of an import. -/
def id (l : ImportLink) : String :=
  "import-" ++ l.source ++ "-" ++ l.target ++ "-" ++ toString l.index

/-- Whether two imports at the same place of two files give the same id: the source of one and
the target of the other overlap at a hyphen. -/
def Overlaps (a b : ImportLink) : Prop :=
  a.index = b.index ∧
    ∃ m, b.source = a.source ++ "-" ++ m ∧ a.target = m ++ "-" ++ b.target

/-- Two imports have the same id if they are linked alike or overlap. -/
theorem id_eq_iff {a b : ImportLink} :
    a.id = b.id ↔ a = b ∨ a.Overlaps b ∨ b.Overlaps a := by
  obtain ⟨s, i, t⟩ := a
  obtain ⟨s', i', t'⟩ := b
  -- The place can be told, since it stands behind the last hyphen. The names may overlap.
  rw [id, id, Text.hyphen_toString_inj, Text.beginning_hyphen_eq_iff, Text.hyphen_eq_iff]
  constructor
  · rintro ⟨⟨rfl, rfl⟩ | hover | hover, rfl⟩
    · exact .inl rfl
    · exact .inr (.inl ⟨rfl, hover⟩)
    · exact .inr (.inr ⟨rfl, hover⟩)
  · rintro (heq | ⟨hindex, hover⟩ | ⟨hindex, hover⟩)
    · obtain ⟨rfl, rfl, rfl⟩ := ImportLink.mk.inj heq
      exact ⟨.inl ⟨rfl, rfl⟩, rfl⟩
    · exact ⟨.inr (.inl hover), hindex⟩
    · exact ⟨.inr (.inr hover), hindex.symm⟩

/-- Overlapping imports are of different files. -/
theorem Overlaps.ne {a b : ImportLink} (h : a.Overlaps b) : a ≠ b := by
  rintro rfl
  obtain ⟨-, m, hsource, -⟩ := h
  exact Text.ne_hyphen a.source m hsource

end ImportLink

/-! ### Ids of calls -/

namespace CallLink

/-- The id of the edge of a call. -/
def id (l : CallLink) : String :=
  "call-" ++ l.source ++ "-" ++ toString l.index ++ "-" ++ l.target ++ "-" ++ toString l.line

/-- Whether two calls to declarations on lines of the same number give the same id: the source
of one and the target of the other overlap at a hyphen, with the place of one call before the
overlap and that of the other behind it. -/
def Overlaps (a b : CallLink) : Prop :=
  a.line = b.line ∧
    ((b.source = a.source ++ "-" ++ toString a.index ∧
        a.target = toString b.index ++ "-" ++ b.target) ∨
      ∃ m, b.source = a.source ++ "-" ++ (toString a.index ++ "-" ++ m) ∧
        a.target = m ++ "-" ++ (toString b.index ++ "-" ++ b.target))

/-- What lies between the sources of two calls begins with the place of the first. -/
theorem overlaps_iff {a b : CallLink} :
    a.Overlaps b ↔ a.line = b.line ∧ ∃ m, b.source = a.source ++ "-" ++ m ∧
      toString a.index ++ "-" ++ a.target
        = m ++ "-" ++ (toString b.index ++ "-" ++ b.target) := by
  refine and_congr_right fun _ => ?_
  simp only [Text.toString_hyphen_eq_iff]
  constructor
  · rintro (⟨hsource, htarget⟩ | ⟨m, hsource, htarget⟩)
    · exact ⟨_, hsource, .inl ⟨rfl, htarget⟩⟩
    · exact ⟨_, hsource, .inr ⟨m, rfl, htarget⟩⟩
  · rintro ⟨_, hsource, ⟨rfl, htarget⟩ | ⟨m, rfl, htarget⟩⟩
    · exact .inl ⟨hsource, htarget⟩
    · exact .inr ⟨m, hsource, htarget⟩

/-- Two calls have the same id if they are linked alike or overlap. -/
theorem id_eq_iff {a b : CallLink} :
    a.id = b.id ↔ a = b ∨ a.Overlaps b ∨ b.Overlaps a := by
  rw [overlaps_iff, overlaps_iff]
  obtain ⟨s, i, t, l⟩ := a
  obtain ⟨s', i', t', l'⟩ := b
  -- The line can be told. Between the source and the place of the call there is a hyphen that
  -- may be taken for another one. If it is not, then the place can be told as well.
  rw [id, id, Text.hyphen_toString_inj, Text.hyphen_assoc, Text.hyphen_assoc,
    Text.beginning_hyphen_eq_iff, Text.hyphen_eq_iff, Text.toString_hyphen_inj]
  constructor
  · rintro ⟨⟨rfl, rfl, rfl⟩ | hover | hover, rfl⟩
    · exact .inl rfl
    · exact .inr (.inl ⟨rfl, hover⟩)
    · exact .inr (.inr ⟨rfl, hover⟩)
  · rintro (heq | ⟨hline, hover⟩ | ⟨hline, hover⟩)
    · obtain ⟨rfl, rfl, rfl, rfl⟩ := CallLink.mk.inj heq
      exact ⟨.inl ⟨rfl, rfl, rfl⟩, rfl⟩
    · exact ⟨.inr (.inl hover), hline⟩
    · exact ⟨.inr (.inr hover), hline.symm⟩

/-- Overlapping calls are in different files. -/
theorem Overlaps.ne {a b : CallLink} (h : a.Overlaps b) : a ≠ b := by
  rintro rfl
  obtain ⟨-, m, hsource, -⟩ := overlaps_iff.mp h
  exact Text.ne_hyphen a.source m hsource

end CallLink

/-! ### Repeated links -/

/-- Lists that can be told by a key of their members are free of repeats together if each of them
is. It takes the links of a graph apart, first by their files and then by their numbers. -/
theorem nodup_flatMap_iff_of_key {α β κ : Type} (k : α → κ) (key : β → κ) {xs : List α}
    {f : α → List β} (hkey : ∀ a ∈ xs, ∀ b ∈ f a, key b = k a) (hxs : (xs.map k).Nodup) :
    (xs.flatMap f).Nodup ↔ ∀ a ∈ xs, (f a).Nodup := by
  rw [List.nodup_flatMap]
  refine and_iff_left ?_
  refine (List.pairwise_map.mp hxs).imp_of_mem ?_
  intro a a' ha ha' hne b hb hb'
  exact hne ((hkey a ha b hb).symm.trans (hkey a' ha' b hb'))

/-- Texts made from the members of a list differ if the members do and no two of them clash,
where clashing is the only way in which different members give the same text. -/
theorem nodup_map_iff_of_clash {α : Type} {f : α → String} {clash : α → α → Prop}
    (hiff : ∀ a b, f a = f b ↔ a = b ∨ clash a b ∨ clash b a)
    (hne : ∀ a b, clash a b → a ≠ b) (xs : List α) :
    (xs.map f).Nodup ↔ xs.Nodup ∧ ∀ a ∈ xs, ∀ b ∈ xs, ¬ clash a b := by
  constructor
  · intro h
    refine ⟨h.of_map f, ?_⟩
    intro a ha b hb hclash
    -- Members that clash differ but have one text.
    have heq := (hiff a b).mpr (.inr (.inl hclash))
    exact hne a b hclash (List.inj_on_of_nodup_map h ha hb heq)
  · rintro ⟨hnodup, hfree⟩
    refine hnodup.map_on ?_
    intro a ha b hb heq
    rcases (hiff a b).mp heq with hab | hclash | hclash
    · exact hab
    · exact absurd hclash (hfree a ha b hb)
    · exact absurd hclash (hfree b hb a ha)

namespace EdgeContext

variable {ctx : EdgeContext}

/-- Whether no name that is called is declared twice on a line of another file. -/
def DeclaredOnce (ctx : EdgeContext) : Prop :=
  ∀ file ∈ ctx.files, ∀ call ∈ file.calls, ∀ other ∈ ctx.files, other.id ≠ file.id →
    ((other.symbols.filter fun s => s.name = call.name).map Symbol.line).Nodup

/-- No import is linked twice if no two records have the same id. -/
theorem nodup_importLinks (hids : (ctx.files.map FileAnalysis.id).Nodup) :
    ctx.importLinks.Nodup := by
  refine (nodup_flatMap_iff_of_key FileAnalysis.id ImportLink.source ?_ hids).mpr ?_
  · intro file _ l hl
    obtain ⟨i, -, hl⟩ := List.mem_flatMap.mp hl
    obtain ⟨target, -, rfl⟩ := Option.map_eq_some_iff.mp (Option.mem_toList.mp hl)
    rfl
  -- Inside of a file the number of the import tells its link.
  intro file _
  refine (nodup_flatMap_iff_of_key Prod.snd ImportLink.index ?_
    (List.nodup_zipIdx_map_snd _)).mpr ?_
  · intro i _ l hl
    obtain ⟨target, -, rfl⟩ := Option.map_eq_some_iff.mp (Option.mem_toList.mp hl)
    rfl
  intro i _
  cases Resolve.resolve i.1.modulePath file.id ctx.fileIds with
  | none => exact List.nodup_nil
  | some target => exact List.nodup_singleton _

/-- The link of a call to a declaration starts at the call and ends at the file. -/
theorem source_index_target_of_mem_linksTo {source : FileId} {call : CallSite} {index : Nat}
    {other : FileAnalysis} {l : CallLink} (h : l ∈ linksTo source call index other) :
    l.source = source ∧ l.index = index ∧ l.target = other.id := by
  rw [linksTo] at h
  split at h
  · exact absurd h List.not_mem_nil
  · obtain ⟨s, -, rfl⟩ := List.mem_map.mp h
    exact ⟨rfl, rfl, rfl⟩

/-- The links of a call to one file repeat if the file declares the name twice on a line. -/
theorem nodup_linksTo_iff {source : FileId} {call : CallSite} {index : Nat}
    {other : FileAnalysis} :
    (linksTo source call index other).Nodup ↔ (other.id ≠ source →
      ((other.symbols.filter fun s => s.name = call.name).map Symbol.line).Nodup) := by
  rw [linksTo]
  split
  · rename_i hown
    simp [hown]
  · rename_i hother
    have hinj : Function.Injective fun line => CallLink.mk source index other.id line :=
      fun line line' h => (CallLink.mk.inj h).2.2.2
    rw [← List.nodup_map_iff hinj, List.map_map]
    exact ⟨fun h _ => h, fun h => h hother⟩

/-- No call is linked twice exactly if no name that is called is declared twice on a line of
another file. -/
theorem nodup_callLinks_iff (hids : (ctx.files.map FileAnalysis.id).Nodup) :
    ctx.callLinks.Nodup ↔ ctx.DeclaredOnce := by
  -- The links stand in three loops: over the files, their calls, and the files called.
  have hlinks : ∀ file call index, (ctx.files.flatMap (linksTo file call index)).Nodup ↔
      ∀ other ∈ ctx.files, (linksTo file call index other).Nodup := fun file call index =>
    nodup_flatMap_iff_of_key FileAnalysis.id CallLink.target
      (fun _ _ _ hl => (source_index_target_of_mem_linksTo hl).2.2) hids
  have hcalls : ∀ file : FileAnalysis, (file.calls.zipIdx.flatMap fun call =>
        ctx.files.flatMap (linksTo file.id call.1 call.2)).Nodup ↔
      ∀ call ∈ file.calls.zipIdx, (ctx.files.flatMap (linksTo file.id call.1 call.2)).Nodup := by
    intro file
    refine nodup_flatMap_iff_of_key Prod.snd CallLink.index ?_ (List.nodup_zipIdx_map_snd _)
    intro call _ l hl
    obtain ⟨other, -, hl⟩ := List.mem_flatMap.mp hl
    exact (source_index_target_of_mem_linksTo hl).2.1
  rw [callLinks, nodup_flatMap_iff_of_key FileAnalysis.id CallLink.source ?_ hids]
  · simp only [hcalls, hlinks, nodup_linksTo_iff, DeclaredOnce]
    refine forall₂_congr fun file _ => ?_
    constructor
    · intro h call hcall
      obtain ⟨index, hindex⟩ := List.mem_iff_getElem?.mp hcall
      exact h (call, index) (List.mk_mem_zipIdx_iff_getElem?.mpr hindex)
    · intro h call hcall
      exact h call.1 (List.fst_mem_of_mem_zipIdx hcall)
  · intro file _ l hl
    obtain ⟨call, -, hl⟩ := List.mem_flatMap.mp hl
    obtain ⟨other, -, hl⟩ := List.mem_flatMap.mp hl
    exact (source_index_target_of_mem_linksTo hl).1

/-! ### Ids of edges -/

/-- The ids of the imports' edges are made from the links of the imports. -/
theorem map_id_imports (ctx : EdgeContext) :
    (EdgeBuilder.imports ctx).edges.map GraphEdge.id = ctx.importLinks.map ImportLink.id := by
  show (ctx.files.flatMap _).map GraphEdge.id = _
  rw [importLinks, List.map_flatMap, List.map_flatMap]
  refine List.flatMap_congr fun file _ => ?_
  show (file.imports.zipIdx.flatMap _).map GraphEdge.id = _
  rw [List.map_flatMap, List.map_flatMap]
  refine List.flatMap_congr ?_
  rintro ⟨i, index⟩ -
  simp only [EdgeBuilder.linkImport]
  cases Resolve.resolve i.modulePath file.id ctx.fileIds with
  | none => rfl
  | some target => rfl

/-- A call is linked to the declarations of its name, file by file. -/
theorem map_id_linkCall (files : List FileAnalysis) (source : FileId) (call : CallSite)
    (index : Nat) :
    (EdgeBuilder.linkCall (.ofFiles files) source call index).map GraphEdge.id
      = (files.flatMap (linksTo source call index)).map CallLink.id := by
  rw [EdgeBuilder.linkCall_ofFiles, List.map_flatMap, List.map_flatMap]
  induction files with
  | nil => rfl
  | cons other rest ih =>
    rw [List.flatMap_cons, ← ih, linksTo]
    -- On one side the file itself is filtered out, on the other it has no links.
    by_cases hown : other.id = source
    · simp [hown]
    · simp only [hown, ne_eq, not_false_eq_true, decide_true, List.filter_cons_of_pos,
        List.flatMap_cons, if_false, List.map_map]
      rfl

/-- The ids of the calls' edges are made from the links of the calls. -/
theorem map_id_calls (ctx : EdgeContext) :
    (EdgeBuilder.calls ctx).edges.map GraphEdge.id = ctx.callLinks.map CallLink.id := by
  show (ctx.files.flatMap _).map GraphEdge.id = _
  rw [callLinks, List.map_flatMap, List.map_flatMap]
  refine List.flatMap_congr fun file _ => ?_
  rw [List.map_flatMap, List.map_flatMap]
  refine List.flatMap_congr ?_
  rintro ⟨call, index⟩ -
  exact map_id_linkCall ctx.files file.id call index

/-- No import has the id of a call: their ids begin with different words. -/
theorem importLink_id_ne_callLink_id (a : ImportLink) (b : CallLink) : a.id ≠ b.id := by
  intro h
  have hfirst := congrArg (fun text : String => text.toList.head?) h
  simp [ImportLink.id, CallLink.id] at hfirst

end EdgeContext

/-- Whether the links of a project can be told by what is glued from them. -/
structure EdgeContext.Separable (ctx : EdgeContext) : Prop where
  declared_once : ctx.DeclaredOnce
  /-- No two imports overlap. -/
  imports_apart : ∀ a ∈ ctx.importLinks, ∀ b ∈ ctx.importLinks, ¬ a.Overlaps b
  /-- No two calls overlap. -/
  calls_apart : ∀ a ∈ ctx.callLinks, ∀ b ∈ ctx.callLinks, ¬ a.Overlaps b

/-- In a project without hyphens in its file names, only repeated declarations are a problem. -/
theorem EdgeContext.separable_iff_of_no_hyphen {ctx : EdgeContext}
    (hfiles : ∀ file ∈ ctx.files, '-' ∉ file.id.toList) : ctx.Separable ↔ ctx.DeclaredOnce := by
  refine ⟨Separable.declared_once, fun honce => ⟨honce, ?_, ?_⟩⟩
  -- Of two links that overlap, the source of the second has a hyphen.
  · rintro a - b hb ⟨-, m, hsource, -⟩
    obtain ⟨file, hfile, hid, -⟩ := mem_importLinks_iff.mp hb
    have hno := hfiles file hfile
    rw [hid, hsource] at hno
    exact hno (Text.hyphen_mem a.source m)
  · intro a _ b hb hover
    obtain ⟨-, m, hsource, -⟩ := CallLink.overlaps_iff.mp hover
    obtain ⟨file, hfile, hid, -⟩ := mem_callLinks_iff.mp hb
    have hno := hfiles file hfile
    rw [hid, hsource] at hno
    exact hno (Text.hyphen_mem a.source m)

/-- **The edges of a graph have different ids exactly if its links are separable.** -/
theorem nodup_edge_ids_iff (root : Path) (analyses : List FileAnalysis) (paths : List Path) :
    ((buildGraph root analyses paths).graph.edges.map GraphEdge.id).Nodup ↔
      (buildGraph root analyses paths).graph.context.Separable := by
  have hids : ((buildGraph root analyses paths).graph.context.files.map FileAnalysis.id).Nodup :=
    GraphBuild.nodup_id_files_context _ _ _ _
  rw [GraphBuild.edges_buildGraph]
  generalize (buildGraph root analyses paths).graph.context = ctx at hids ⊢
  rw [List.map_append, EdgeContext.map_id_imports, EdgeContext.map_id_calls, List.nodup_append,
    nodup_map_iff_of_clash (fun _ _ => ImportLink.id_eq_iff) (fun _ _ => ImportLink.Overlaps.ne),
    nodup_map_iff_of_clash (fun _ _ => CallLink.id_eq_iff) (fun _ _ => CallLink.Overlaps.ne),
    EdgeContext.nodup_callLinks_iff hids]
  constructor
  · rintro ⟨⟨-, himports⟩, ⟨honce, hcalls⟩, -⟩
    exact ⟨honce, himports, hcalls⟩
  · rintro ⟨honce, himports, hcalls⟩
    refine ⟨⟨EdgeContext.nodup_importLinks hids, himports⟩, ⟨honce, hcalls⟩, ?_⟩
    -- An import and a call are told by the words that their ids begin with.
    intro x hx y hy
    obtain ⟨a, -, rfl⟩ := List.mem_map.mp hx
    obtain ⟨b, -, rfl⟩ := List.mem_map.mp hy
    exact EdgeContext.importLink_id_ne_callLink_id a b

/-- Two declarations of a called name on one line of another file give two edges with one id. -/
theorem nodup_edge_ids_fails :
    let a : FileAnalysis :=
      { GraphBuild.placeholder ⟨"/repo/a.js"⟩ "a.js" with
        symbols := [⟨"run", "a.js", 1⟩, ⟨"run", "a.js", 1⟩] }
    let b : FileAnalysis :=
      { GraphBuild.placeholder ⟨"/repo/b.js"⟩ "b.js" with calls := [⟨"run", 1, "b.js"⟩] }
    ¬ ((buildGraph ⟨"/repo"⟩ [a, b] [⟨"/repo/a.js"⟩, ⟨"/repo/b.js"⟩]).graph.edges.map
      GraphEdge.id).Nodup := by
  intro a b hnodup
  -- Only the records are needed to see the links of the calls.
  have hfiles : (buildGraph ⟨"/repo"⟩ [a, b] [⟨"/repo/a.js"⟩, ⟨"/repo/b.js"⟩]).graph.context.files
      = [a, b] := by
    rw [buildGraph, GraphBuild.files_context]
    decide
  rw [GraphBuild.edges_buildGraph, List.map_append, EdgeContext.map_id_calls,
    EdgeContext.callLinks, hfiles] at hnodup
  exact absurd (List.nodup_append.mp hnodup).2.1 (by decide)

end CodeAtlas
