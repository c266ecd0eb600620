import CodeAtlas.Analysis.Analyzer
import CodeAtlas.Proofs.FileId.OfPath
import CodeAtlas.Proofs.FileId.Spelling
import CodeAtlas.Proofs.Path.Resolve

/-!
# `CodeAtlas.Proofs.Analysis.Candidate`: the path that an import names

A relative text is followed from a file's directory in two ways: by the segments of ids, to find the
file that is meant, and by the components of paths, to record the path that is named. The two agree
step by step as long as the first does not climb above the project's root
(`Leads.foldl_resolveStep`): an empty segment and a `.` are no components, a `..` takes the name
away that the walk leaves, and never one of the root's, and a name is put behind the others.

The theorem is `candidateOf_eq`.
-/

set_option autoImplicit false

namespace CodeAtlas

namespace FileId

variable {dir rest goal : List (List Char)} {name : List Char}

/-- A name is a component of a path. -/
theorem IsName.ofPiece?_eq (h : IsName name) :
    Path.Component.ofPiece? name = some (.name name) := by
  rw [Path.Component.ofPiece?, if_neg (not_or.mpr ⟨h.1, h.2.1⟩), if_neg h.2.2]

/-- A walk that does not climb above its root leaves the same names when the components of its
segments are resolved behind others. -/
theorem Leads.foldl_resolveStep (h : Leads dir rest goal) (front : List Path.Component) :
    (rest.filterMap Path.Component.ofPiece?).foldl Path.resolveStep (front ++ dir.map .name)
      = front ++ goal.map .name := by
  -- Each way to go on keeps the names of the walk behind the front, so a `..` meets one of them.
  induction h with
  | here => rfl
  | stay hstay _ ih =>
    rw [List.filterMap_cons, Path.Component.ofPiece?, if_pos hstay]
    exact ih
  | climb _ ih =>
    rw [List.filterMap_cons]
    show List.foldl Path.resolveStep (Path.resolveStep _ .parent) _ = _
    rw [List.map_append, List.map_singleton, ← List.append_assoc,
      Path.resolveStep_concat_parent (by simp), ih]
  | descend hname _ ih =>
    rw [List.filterMap_cons, hname.ofPiece?_eq]
    show List.foldl Path.resolveStep ((front ++ _) ++ [.name _]) _ = _
    rw [← ih, List.map_append, List.map_singleton, List.append_assoc]

/-- The pieces of an id are the segments of its directory and the last name. -/
theorem pieces_eq_segments_concat {id : List Char} (h : ∀ name ∈ Text.pieces '/' id, name ≠ []) :
    Text.pieces '/' id = segments (parentChars id) ++ [nameChars id] := by
  by_cases hslash : '/' ∈ id
  · have hpieces := pieces_eq_pieces_parentChars hslash
    have hall : segments (parentChars id) = Text.pieces '/' (parentChars id) :=
      List.filter_eq_self.mpr fun name hmem =>
        decide_eq_true (h name (hpieces ▸ List.mem_append_left _ hmem))
    rw [hall, hpieces]
  · obtain ⟨hparent, hname⟩ := parentChars_of_not_mem hslash
    rw [hparent, hname, Text.pieces_of_not_mem hslash]
    rfl

/-- The directory of an id is made of names if the id is. -/
theorem isName_of_mem_segments {id : List Char} (hid : ∀ name ∈ Text.pieces '/' id, IsName name)
    (hname : name ∈ segments (parentChars id)) : IsName name := by
  refine hid name ?_
  rw [pieces_eq_segments_concat fun name hname => (hid name hname).1]
  exact List.mem_append_left _ hname

/-- A name without a slash can be a component of a path. -/
theorem IsName.inner (h : IsName name) (hslash : '/' ∉ name) :
    (Path.Component.name name).Inner :=
  ⟨h.1, h.2.1, h.2.2, hslash⟩

/-- The path of an id is the root with the id's names behind it. -/
theorem components_join_of_names {root : Path} (habs : root.isAbsolute = true) {id : FileId}
    (hid : ∀ name ∈ Text.pieces '/' id.toList, IsName name) :
    (root.join ⟨id⟩).components = root.components ++ (Text.pieces '/' id.toList).map .name := by
  have hjoin := Path.components_join_glue (Path.text_ne_of_isAbsolute habs) fun name hname =>
    (hid name hname).inner (Text.not_mem_of_mem_pieces hname)
  rwa [Text.glue_pieces, String.ofList_toList] at hjoin

/-- A walk from names leads to names. -/
theorem Leads.inner {start relative : List Char}
    (h : Leads (segments start) (Text.pieces '/' relative) goal)
    (hstart : ∀ name ∈ segments start, IsName name) :
    ∀ name ∈ goal, (Path.Component.name name).Inner := by
  intro name hname
  have hgoal : IsName name := h.forall_mem hstart (fun _ _ hsegment => hsegment) name hname
  exact hgoal.inner (h.names name hname).2

end FileId

namespace Path

/-- Names that were made components are read back, so an id is told by the components of its
path. -/
theorem namesOf_map_name (names : List (List Char)) : namesOf (names.map .name) = names := by
  rw [namesOf, List.filterMap_map]
  exact List.filterMap_some

/-- Names are put behind what is left already. -/
theorem foldl_resolveStep_of_isName {cs : List Component} (h : ∀ c ∈ cs, c.isName = true)
    (done : List Component) : cs.foldl resolveStep done = done ++ cs := by
  induction cs generalizing done with
  | nil => exact (List.append_nil done).symm
  | cons c cs ih =>
    have hc := h c List.mem_cons_self
    cases c with
    | root => cases hc
    | current => cases hc
    | parent => cases hc
    | name text =>
      rw [List.foldl_cons, ih fun c hc => h c (List.mem_cons_of_mem _ hc), resolveStep,
        List.append_assoc, List.singleton_append]

/-- Resolving goes on with what is left of the components before; this is how a module path is
resolved behind a directory. -/
theorem resolveComponents_append (a b : List Component) :
    resolveComponents (a ++ b) = b.foldl resolveStep (resolveComponents a) :=
  List.foldl_append

/-- A root without `..` is left as it is. -/
theorem resolveComponents_of_absolute {root : Path} (habs : root.isAbsolute = true)
    (hroot : Component.parent ∉ root.components) :
    resolveComponents root.components = root.components := by
  rw [components_of_isAbsolute habs] at hroot ⊢
  refine foldl_resolveStep_of_isName (fun c hc => ?_) [.root]
  have hinner := inner_of_mem_bodyOf hc
  cases c with
  | root => exact hinner.elim
  | current => exact hinner.elim
  | parent => exact absurd (List.mem_cons_of_mem _ hc) hroot
  | name text => rfl

end Path

namespace Analyzer

open FileId (IsName Leads segments parentChars nameChars)

/-- The path that a module path names from the directory of a file, taken literally. -/
def candidateOf (path : Path) (modulePath : String) : Path :=
  ((importBase path).join ⟨modulePath⟩).resolve

/-- The analysis records the candidate of an import. -/
theorem candidate_of_importOf? {style : SpecifierStyle} {file : SourceFile} {literal : String}
    {i : RawImport} (h : importOf? style file literal = some i) :
    i.candidate = candidateOf file.path i.modulePath := by
  rw [importOf?] at h
  split at h
  · cases h
  · obtain rfl := Option.some.inj h
    rfl

/-- The directory of a file in a project is the root with the names of the directory's id. -/
theorem components_importBase {root : Path} (habs : root.isAbsolute = true) {id : FileId}
    (hid : ∀ name ∈ Text.pieces '/' id.toList, IsName name) :
    (importBase (root.join ⟨id⟩)).components
      = root.components ++ (segments (parentChars id.toList)).map .name := by
  have hpath := FileId.components_join_of_names habs hid
  rw [FileId.pieces_eq_segments_concat fun name hname => (hid name hname).1, List.map_append,
    List.map_singleton, ← List.append_assoc] at hpath
  -- The directory is what stands before the last name of the file.
  have hbase : importBase (root.join ⟨id⟩) =
      Path.ofComponents (root.components ++ (segments (parentChars id.toList)).map .name) := by
    rw [importBase, Path.parent?, hpath, List.getLast?_concat, List.dropLast_concat]
    rfl
  have hinner : ∀ c ∈ Path.bodyOf root.text.toList ++
      (segments (parentChars id.toList)).map Path.Component.name, c.Inner := by
    intro c hc
    rcases List.mem_append.mp hc with hc | hc
    · exact Path.inner_of_mem_bodyOf hc
    · obtain ⟨name, -, rfl⟩ := List.mem_map.mp hc
      refine Path.inner_of_name_mem (p := root.join ⟨id⟩) ?_
      rw [hpath]
      exact List.mem_append_left _ (List.mem_append_right _ hc)
  have hread := Path.components_ofComponents_append (.inr rfl) hinner
  rw [hbase, Path.components_of_isAbsolute habs]
  exact hread

/-- The candidate of an import consists of the root and the names to which the module path leads. -/
theorem candidateOf_eq_of_leads {root : Path} (habs : root.isAbsolute = true)
    (hroot : Path.Component.parent ∉ root.components) {id : FileId}
    (hid : ∀ name ∈ Text.pieces '/' id.toList, IsName name) {modulePath : String}
    (hrelative : (⟨modulePath⟩ : Path).isAbsolute = false) {goal : List (List Char)}
    (hleads : Leads (segments (parentChars id.toList)) (Text.pieces '/' modulePath.toList) goal) :
    candidateOf (root.join ⟨id⟩) modulePath
      = Path.ofComponents (root.components ++ goal.map .name) := by
  have hbase := components_importBase habs hid
  have htext : (importBase (root.join ⟨id⟩)).text ≠ "" := by
    intro hempty
    rw [Path.components, hempty, Path.components_of_isAbsolute habs] at hbase
    have hnone : Path.componentsOf "".toList = [] := by decide
    rw [hnone] at hbase
    exact absurd hbase (by simp)
  have hdir : ∀ c ∈ (segments (parentChars id.toList)).map Path.Component.name,
      c.isName = true := by
    intro c hc
    obtain ⟨name, -, rfl⟩ := List.mem_map.mp hc
    rfl
  -- Resolving goes over the root first, which it leaves as it is, then over the directory, which
  -- has names only, and what is left to follow is the module path.
  rw [candidateOf, Path.resolve, Path.components_join htext hrelative, hbase,
    Path.resolveComponents_append, Path.resolveComponents_append,
    Path.resolveComponents_of_absolute habs hroot, Path.foldl_resolveStep_of_isName hdir]
  exact congrArg Path.ofComponents (hleads.foldl_resolveStep root.components)

/-- **The two ways to follow a module path agree.** Take an absolute root without `..`, a file that
is known by an id whose segments are names, and a relative module path. If an id is reached from the
file's directory by the module path, then the candidate of the import is the path of that id,
written with single slashes, and the id is read back from it. The analysis records the candidates of
all imports in this way. -/
theorem candidateOf_eq (root : Path) (id : FileId) (habs : root.isAbsolute = true)
    (hroot : Path.Component.parent ∉ root.components)
    (hid : ∀ name ∈ Text.pieces '/' id.toList, IsName name) :
    (∀ (modulePath : String) (base : FileId), (⟨modulePath⟩ : Path).isAbsolute = false →
      FileId.join? (FileId.parent id) modulePath = some base →
        (candidateOf (root.join ⟨id⟩) modulePath).components = (root.join ⟨base⟩).components ∧
        candidateOf (root.join ⟨id⟩) modulePath
          = Path.ofComponents (root.join ⟨base⟩).components ∧
        FileId.ofPath? root (candidateOf (root.join ⟨id⟩) modulePath) = some base) ∧
    ∀ (chunkSize : Nat) (file : SourceFile) (kit : Toolkit),
      (analyzeWith chunkSize file kit).analysis.imports.map RawImport.candidate
        = (analyzeWith chunkSize file kit).analysis.imports.map fun i =>
            candidateOf file.path i.modulePath := by
  refine ⟨fun modulePath base hrelative hjoin => ?_, fun chunkSize file kit => ?_⟩
  · rw [FileId.join?, FileId.parent, String.toList_ofList, Option.map_eq_some_iff] at hjoin
    obtain ⟨chars, hchars, rfl⟩ := hjoin
    obtain ⟨goal, hleads, hne, rfl⟩ := FileId.joinChars?_eq_some_iff.mp hchars
    -- Both the path of the id and the candidate are the root with the names that are reached.
    have hbase := Path.components_join_glue (Path.text_ne_of_isAbsolute habs)
      (hleads.inner fun _ hname => FileId.isName_of_mem_segments hid hname)
    have hcandidate := candidateOf_eq_of_leads habs hroot hid hrelative hleads
    rw [← hbase] at hcandidate
    have hcomponents := congrArg Path.components hcandidate
    rw [Path.components_ofComponents] at hcomponents
    refine ⟨hcomponents, hcandidate, FileId.ofPath?_eq_some_iff.mpr ⟨goal.map .name, ?_, ?_, ?_⟩⟩
    · rw [hcomponents, hbase]
    · rwa [Path.namesOf_map_name]
    · rw [Path.namesOf_map_name]
  · rw [analyzeWith]
    -- A text without a tree has no imports.
    cases kit.parse file.text with
    | error fault => rfl
    | ok node =>
      refine List.map_congr_left fun i hi => ?_
      obtain ⟨_, -, himport⟩ := List.mem_filterMap.mp hi
      exact candidate_of_importOf? himport

/-- A root that is not written in the shortest way, and a module path that turns and comes back from
the root. -/
theorem candidateOf_eq_detour :
    FileId.join? (FileId.parent "src/ui/app.js") "../..//lib/./x/../y.js" = some "lib/y.js" ∧
      candidateOf ((⟨"/srv//./repo"⟩ : Path).join ⟨"src/ui/app.js"⟩) "../..//lib/./x/../y.js"
        = ⟨"/srv/repo/lib/y.js"⟩ ∧
      FileId.ofPath? ⟨"/srv//./repo"⟩
        (candidateOf ((⟨"/srv//./repo"⟩ : Path).join ⟨"src/ui/app.js"⟩) "../..//lib/./x/../y.js")
          = some "lib/y.js" := by
  have hjoin : FileId.join? (FileId.parent "src/ui/app.js") "../..//lib/./x/../y.js"
      = some "lib/y.js" := by decide
  obtain ⟨-, hcandidate, hid⟩ := (candidateOf_eq ⟨"/srv//./repo"⟩ "src/ui/app.js" (by decide)
    (by decide) (by decide)).1 "../..//lib/./x/../y.js" "lib/y.js" (by decide) hjoin
  exact ⟨hjoin, hcandidate.trans (by decide), hid⟩

end Analyzer

end CodeAtlas
