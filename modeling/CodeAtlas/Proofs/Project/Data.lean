import CodeAtlas.Project.Data
import CodeAtlas.Proofs.Files.Tree
import CodeAtlas.Proofs.Graph.Document

/-!
# `CodeAtlas.Proofs.Project.Data`: documents of a project are kept

The theorems:

* `document?_eq_of_content`: a document is read by the text that it holds.
* `document?_of_write`: a document that was written is there, and is read as the value whose text
  was written.
* `exists_writeDocument`: a document can be written if the tree has a place for it (`HasPlace`).
  Once a document was written, there is a place for the next one (`hasPlace_of_write`).
* `loadGraph_saveGraph`: a graph that was saved is loaded.
-/

set_option autoImplicit false

namespace CodeAtlas

/-! ### Paths of documents -/

namespace Layout

/-- Joining one plain name appends one component. The empty path stands apart, since joining it puts
no separator before the name. -/
theorem components_join_name {p q : Path} {name : List Char} (hq : q.isAbsolute = false)
    (hname : q.components = [.name name]) (hbody : Path.bodyOf q.text.toList = [.name name]) :
    (p.join q).components = p.components ++ [.name name] := by
  by_cases hp : p.text = ""
  · obtain ⟨text⟩ := p
    subst hp
    have hnil : (Path.mk "").components = [] := by
      rw [Path.components, String.toList_empty]
      rfl
    rw [hnil, Path.join, String.toList_empty]
    exact hname
  · rw [Path.components_join hp hq, hbody]

/-- The data directory is one step below the root. -/
theorem components_dataDirectory (root : Path) :
    (dataDirectory root).components = root.components ++ [.name ".repolens".toList] :=
  components_join_name rfl rfl rfl

/-- So it is no empty path, which creating directories would refuse. -/
theorem components_dataDirectory_ne_nil (root : Path) : (dataDirectory root).components ≠ [] := by
  rw [components_dataDirectory]
  exact List.append_ne_nil_of_right_ne_nil _ (List.cons_ne_nil _ _)

/-- The graph document stands in the data directory. -/
theorem components_graphFile (root : Path) :
    (graphFile root).components
      = (dataDirectory root).components ++ [.name "graph.json".toList] :=
  components_join_name rfl rfl rfl

/-- The table of vectors stands in the data directory. -/
theorem components_tableFile (root : Path) :
    (tableFile root).components
      = (dataDirectory root).components ++ [.name "index.db".toList] :=
  components_join_name rfl rfl rfl

end Layout

/-! ### Changes of a tree -/

namespace TreeChange

variable {t t' : FileTree} {α β : Type}

/-- One change after another succeeds if both do. -/
theorem apply_bind_eq_ok_iff {first : TreeChange α} {next : α → TreeChange β} {b : β} :
    (first >>= next).apply t = (.ok b, t') ↔
      ∃ a between, first.apply t = (.ok a, between) ∧ (next a).apply between = (.ok b, t') := by
  show ExceptT.bindCont next (first.apply t).1 (first.apply t).2 = (.ok b, t') ↔ _
  obtain ⟨f | a, between⟩ := first.apply t
  · exact ⟨fun h => absurd (congrArg Prod.fst h) (fun h => nomatch h),
      fun ⟨_, _, h, _⟩ => absurd (congrArg Prod.fst h) (fun h => nomatch h)⟩
  · refine ⟨fun h => ⟨a, between, rfl, h⟩, ?_⟩
    rintro ⟨_, _, h, hnext⟩
    cases h
    exact hnext

/-- One change after another fails if the first one does, or the second one behind it. -/
theorem apply_bind_eq_error_iff {first : TreeChange α} {next : α → TreeChange β}
    {fault : DataFault} :
    (first >>= next).apply t = (.error fault, t') ↔ first.apply t = (.error fault, t') ∨
      ∃ a between, first.apply t = (.ok a, between) ∧
        (next a).apply between = (.error fault, t') := by
  show ExceptT.bindCont next (first.apply t).1 (first.apply t).2 = (.error fault, t') ↔ _
  -- Whether the first change fails decides which of the two ways it can be.
  obtain ⟨f | a, between⟩ := first.apply t
  · refine ⟨fun h => .inl ?_, ?_⟩
    · cases h
      rfl
    · rintro (h | ⟨_, _, h, _⟩)
      · cases h
        rfl
      · exact absurd (congrArg Prod.fst h) (fun h => nomatch h)
  · refine ⟨fun h => .inr ⟨a, between, rfl, h⟩, ?_⟩
    rintro (h | ⟨_, _, h, hnext⟩)
    · exact absurd (congrArg Prod.fst h) (fun h => nomatch h)
    · cases h
      exact hnext

/-- An update succeeds exactly when the change it wraps does, and leaves the tree that one makes. -/
theorem apply_update_eq_ok_iff {f : FileTree → Except FileFault FileTree} :
    (update f).apply t = (.ok (), t') ↔ f t = .ok t' := by
  rw [apply, ExceptT.run, StateT.run, update]
  cases f t with
  | ok t => simp
  | error fault => simp

/-- An update that fails leaves the tree it was given, and its fault is that of the change. -/
theorem apply_update_eq_error_iff {f : FileTree → Except FileFault FileTree} {fault : DataFault} :
    (update f).apply t = (.error fault, t') ↔
      ∃ cause, f t = .error cause ∧ fault = .file cause ∧ t' = t := by
  rw [apply, ExceptT.run, StateT.run, update]
  cases f t with
  | ok t => simp
  | error cause => simp [eq_comm]

end TreeChange

namespace FileTree

variable {root p : Path} {t t' : FileTree} {text : String} {α : Type} {a : α}
  {read : String → Except Json.Fault α}

/-! ### Documents -/

/-- A document is written once the directory of the data is there. -/
theorem apply_writeDocument_iff :
    (writeDocument root p text).apply t = (.ok (), t') ↔
      ∃ between, t.makeDirectories (Layout.dataDirectory root) = .ok between ∧
        between.write p (.ofText text) = .ok t' := by
  rw [writeDocument, TreeChange.apply_bind_eq_ok_iff]
  exact ⟨fun ⟨_, between, hmake, hwrite⟩ => ⟨between, TreeChange.apply_update_eq_ok_iff.mp hmake,
      TreeChange.apply_update_eq_ok_iff.mp hwrite⟩,
    fun ⟨between, hmake, hwrite⟩ => ⟨(), between, TreeChange.apply_update_eq_ok_iff.mpr hmake,
      TreeChange.apply_update_eq_ok_iff.mpr hwrite⟩⟩

/-- A document is read from its text alone. -/
theorem document?_eq_of_content (h : t.content p = .ok (.ofText text)) :
    t.document? p read = match read text with
      | .error fault => .error (.document fault)
      | .ok a => .ok (some a) := by
  obtain ⟨place, hlocate⟩ := content_eq_ok_iff.mp h
  have htext : t.text p = .ok text := by
    rw [FileTree.text, h]
    exact text_ofText text
  rw [document?, if_pos (contains_of_found hlocate)]
  cases hread : read text with
  | error fault => simp only [htext, hread]
  | ok a => simp only [htext, hread]

/-- A text file is read as what its text says. -/
theorem document?_of_content (h : t.content p = .ok (.ofText text)) (hread : read text = .ok a) :
    t.document? p read = .ok (some a) := by
  rw [document?_eq_of_content h, hread]

/-- What was just written is what is read back, whatever stood there before. -/
theorem document?_of_write (h : t.write p (.ofText text) = .ok t') (hread : read text = .ok a) :
    t'.document? p read = .ok (some a) :=
  document?_of_content (content_write h) hread

/-- Where nothing stands there is no document, which is not a fault: a project that was never
indexed has no graph. -/
theorem document?_of_free {q : Place} (h : t.locate true p = .ok (.free q)) :
    t.document? p read = .ok none := by
  have hmissing : t.contains p = false := by
    rw [contains, entry, h]
    rfl
  rw [document?, hmissing]
  rfl

/-- Whether a tree has a place for a document of a project. -/
inductive HasPlace (t : FileTree) (root p : Path) : Prop where
  /-- Nothing has the name of the directory of the data. -/
  | noDirectory (q : Place) (h : t.locate false (Layout.dataDirectory root) = .ok (.free q))
  /-- The directory is there, but not the document. -/
  | noDocument (q : Place) (h : t.locate true p = .ok (.free q))
  /-- The document is there and may be read. -/
  | document (q : Place) (old : Content) (h : t.locate true p = .ok (.found q (.file old)))
      (hold : ∀ size, old ≠ .locked size)

/-- A write leaves a place for the next one, so the hypothesis of the first save carries over to all
later ones. -/
theorem hasPlace_of_write (h : t.write p (.ofText text) = .ok t') : t'.HasPlace root p := by
  obtain ⟨q, hlocate⟩ := locate_write h
  exact .document q _ hlocate fun _ h => nomatch h

section Place

variable {name : EntryName}
  (hp : p.components = (Layout.dataDirectory root).components ++ [.name name])

include hp

/-- If a document can be followed to its place, the directory of the data is there. -/
theorem makeDirectories_of_locate {s : Spot} (h : t.locate true p = .ok s) :
    t.makeDirectories (Layout.dataDirectory root) = .ok t := by
  have hcomponents := Layout.components_dataDirectory_ne_nil root
  obtain ⟨-, hw⟩ := locate_eq_ok_iff.mp h
  rw [hp] at hw
  obtain ⟨q, entries, hdir⟩ := exists_directory_of_walk_concat hw
  exact makeDirectories_directory hcomponents
    (locate_eq_ok_iff.mpr ⟨text_ne_empty hcomponents, hdir⟩)

/-- In the directory that is made there is a place for the document. -/
theorem locate_putAt_dataDirectory {q : Place}
    (h : t.locate false (Layout.dataDirectory root) = .ok (.free q)) :
    (t.putAt q (.directory [])).locate true p = .ok (.free (q ++ [name])) := by
  have hchanged := changed_free (.directory []) (fun _ _ => rfl)
    (fun _ => Entry.noConfusion) (locate_eq_ok_iff.mp h).2
  -- The path that led to the free place leads to the new directory, which has no members.
  obtain ⟨s, hs, hmoved⟩ := locate_putAt hchanged h
  rw [Spot.Moved, if_pos rfl] at hmoved
  subst hmoved
  obtain ⟨left, hleft⟩ := walk_append [.name name] (List.cons_ne_nil _ _)
    (locate_eq_ok_iff.mp hs).2 (fun _ => Entry.noConfusion)
  have hfree : (Entry.put (.directory []) t.top q).at? (q ++ [name]) = none := by
    rw [Entry.at?_concat hchanged.at_self]
    rfl
  refine locate_eq_ok_iff.mpr ⟨text_ne_empty ?_, ?_⟩
  · rw [hp]
    exact List.append_ne_nil_of_right_ne_nil _ (List.cons_ne_nil _ _)
  · rw [hp, hleft]
    exact walk_free hchanged.at_self hfree

/-- A document can be written where there is a place for it. -/
theorem exists_writeDocument (h : t.HasPlace root p) (text : String) :
    ∃ t', (writeDocument root p text).apply t = (.ok (), t') := by
  cases h with
  | noDirectory q h =>
    have hcomponents := Layout.components_dataDirectory_ne_nil root
    exact ⟨_, apply_writeDocument_iff.mpr ⟨_, makeDirectories_free hcomponents h,
      write_free (locate_putAt_dataDirectory hp h) _⟩⟩
  | noDocument q h =>
    exact ⟨_, apply_writeDocument_iff.mpr ⟨t, makeDirectories_of_locate hp h, write_free h _⟩⟩
  | document q old h hold =>
    exact ⟨_, apply_writeDocument_iff.mpr ⟨t, makeDirectories_of_locate hp h, write_file h hold _⟩⟩

/-- If a document can be followed to its place, the project was set up. -/
theorem isDirectory_of_locate {s : Spot} (h : t.locate true p = .ok s) :
    t.isDirectory (Layout.dataDirectory root) = true := by
  obtain ⟨-, hw⟩ := locate_eq_ok_iff.mp h
  rw [hp] at hw
  obtain ⟨q, entries, hdir⟩ := exists_directory_of_walk_concat hw
  have hcomponents := Layout.components_dataDirectory_ne_nil root
  rw [isDirectory, entry, locate_eq_ok_iff.mpr ⟨text_ne_empty hcomponents, hdir⟩]
  rfl

end Place

/-! ### The graph -/

/-- **Loading undoes saving.** Take any graph whose numbers have 64 bits, any root and any tree of
files. Once the graph was saved, it is what is loaded, and the tree has a place for the next
graph. A graph is saved wherever there is a place for it. -/
theorem loadGraph_saveGraph {g : ProjectGraph} (hg : g.Fits) (root : Path) (t : FileTree) :
    (∀ t', (saveGraph root g).apply t = (.ok (), t') →
      t'.loadGraph root = .ok (some g) ∧ t'.HasPlace root (Layout.graphFile root)) ∧
    (t.HasPlace root (Layout.graphFile root) →
      ∃ t', (saveGraph root g).apply t = (.ok (), t')) := by
  constructor
  · intro t' hsave
    obtain ⟨between, -, hwrite⟩ := apply_writeDocument_iff.mp hsave
    exact ⟨document?_of_write hwrite (ProjectGraph.read_write hg), hasPlace_of_write hwrite⟩
  · intro hplace
    exact exists_writeDocument (Layout.components_graphFile root) hplace g.write

/-- A directory and a file with a call to itself, in texts that need every kind of escape, are saved
below a directory that is empty. -/
theorem loadGraph_saveGraph_escaped :
    let id := "src/a\"b\\c.rs"
    let chunk : Chunk := ⟨id, 0, "\x01\t\n\r\x08\x0c\x1f\x7f é 𝄞 😀", 0, 0xffffffffffffffff⟩
    let file : FileAnalysis :=
      ⟨⟨"/p/src/a\"b\\c.rs"⟩, id, "rs", [chunk], [⟨"f", id, 1⟩], [⟨"f", 0xffffffffffffffff, id⟩],
        [⟨"./x", "x", id, ⟨"/p/src/x"⟩⟩], 3, "00ff", chunk.text⟩
    let g : ProjectGraph :=
      ⟨[⟨"src", .directory, "src", none, none⟩, ⟨id, .file, "a\"b\\c.rs", some "src", some file⟩],
        [⟨"e0", id, id, .importing, .importing "./x"⟩,
          ⟨"e1", id, id, .calling, .calling "f" (0xffffffffffffffff) 1 "s" "d"⟩]⟩
    let t : FileTree := ⟨.directory [(['p'], .directory [])], []⟩
    ∃ t', (saveGraph ⟨"/p"⟩ g).apply t = (.ok (), t') ∧ t'.loadGraph ⟨"/p"⟩ = .ok (some g) := by
  intro id chunk file g t
  have hfile : file.Fits :=
    ⟨by simp only [file, List.forall_mem_singleton]; exact ⟨by decide, by decide, by decide⟩,
      by simp only [file, List.forall_mem_singleton]; decide,
      by simp only [file, List.forall_mem_singleton]; decide, by decide⟩
  have hg : g.Fits := by
    constructor
    · simp [g, GraphNode.Fits, hfile]
    · simp [g, EdgeMetadata.Fits, Json.Has64Bits]
  -- There is no data directory yet, and the root can take one.
  have hplace : t.HasPlace ⟨"/p"⟩ (Layout.graphFile ⟨"/p"⟩) := by
    refine .noDirectory [['p'], ".repolens".toList] (locate_eq_ok_iff.mpr ⟨by decide, ?_⟩)
    rw [Layout.components_dataDirectory]
    show walk t.top false linkLimit [] [.root, .name ['p'], .name ".repolens".toList] = _
    have htop : t.top.at? [] = some (.directory [(['p'], .directory [])]) := rfl
    have hroot : t.top.at? [['p']] = some (.directory []) := rfl
    rw [walk, walk_name htop hroot (fun _ => Entry.noConfusion)]
    exact walk_free hroot rfl
  obtain ⟨hload, hsave⟩ := loadGraph_saveGraph hg ⟨"/p"⟩ t
  obtain ⟨t', ht'⟩ := hsave hplace
  exact ⟨t', ht', (hload t' ht').1⟩

end FileTree

end CodeAtlas
