import CodeAtlas.Proofs.Files.Proper
import CodeAtlas.Proofs.Project.Table

/-!
# `CodeAtlas.Proofs.Project.Sources`: what is written of a project lies beside its files

The data of a project lies in one directory at its root. The theorems:

* `HasRoot.makeDirectories`, `HasRoot.write`: making the directory of the data and writing a
  document in it leaves the files of the project alone, and the other documents.
* `preserves_saveGraph`, `preserves_replaceVectors`: so does everything that an index pass writes,
  whether it succeeds or not.
-/

set_option autoImplicit false

namespace CodeAtlas

/-- The name of the directory of the data. -/
def Layout.dataName : EntryName := ".repolens".toList

/-- The names of the documents that an index pass writes. -/
def Layout.indexNames : List EntryName := ["graph.json".toList, "index.db".toList]

/-- The names that lead from the root to a document of the data. -/
theorem Layout.components_document {root p : Path} {name : EntryName}
    (hp : p.components = (dataDirectory root).components ++ [.name name]) :
    p.components = root.components ++ ([dataName] ++ [name]).map .name := by
  rw [hp, components_dataDirectory, List.append_assoc]
  rfl

namespace FileTree

open Layout (dataName indexNames)

/-- Whether a path leads to a directory with given entries whose data, if there are any, lie in a
directory, so that the documents of an index are no links. -/
structure HasRoot (t : FileTree) (root : Path) (base : Place) (entries : List (EntryName × Entry)) :
    Prop where
  locate : t.locate true root = .ok (.found base (.directory entries))
  proper : (Entry.directory entries).Proper
  plain : ∀ x, entries.lookup dataName = some x → ∃ data, x = .directory data ∧
    ∀ name ∈ indexNames, ∀ target, data.lookup name ≠ some (.link target)

/-- Whether two directories differ in their data alone, and there not in given documents. -/
structure SameBeside (kept : List EntryName) (entries entries' : List (EntryName × Entry)) :
    Prop where
  files : ∀ name rest, name ≠ dataName →
    (Entry.directory entries).at? (name :: rest) = (Entry.directory entries').at? (name :: rest)
  documents : ∀ name ∈ kept,
    (Entry.directory entries).at? [dataName, name] = (Entry.directory entries').at? [dataName, name]

/-- Two changes beside the same names are one such change, so a command may write several times. -/
theorem SameBeside.trans {kept : List EntryName} {a b c : List (EntryName × Entry)}
    (h : SameBeside kept a b) (h' : SameBeside kept b c) : SameBeside kept a c :=
  ⟨fun name rest hne => (h.files name rest hne).trans (h'.files name rest hne),
    fun name hname => (h.documents name hname).trans (h'.documents name hname)⟩

variable {t t' : FileTree} {root p : Path} {base names : Place} {name : EntryName} {new : Entry}
  {entries entries' : List (EntryName × Entry)} {kept : List EntryName} {c : Content}

namespace HasRoot

/-- A root is still there after a change below it. -/
theorem putAt (h : t.HasRoot root base entries)
    (hchanged : Entry.Changed t.top (Entry.put new t.top (base ++ names)) (base ++ names) new)
    (hput : Entry.put new (.directory entries) names = .directory entries')
    (hnew : new.Proper) (hnames : ∀ name ∈ names, EntryName.Proper name)
    (hplain : ∀ x, entries'.lookup dataName = some x → ∃ data, x = .directory data ∧
      ∀ name ∈ indexNames, ∀ target, data.lookup name ≠ some (.link target)) :
    (t.putAt (base ++ names) new).HasRoot root base entries' := by
  refine ⟨?_, hput ▸ h.proper.put hnew hnames, hplain⟩
  obtain ⟨s, hs, x, hx, rfl⟩ := locate_putAt hchanged h.locate
  have hroot := at?_of_walk_found (locate_eq_ok_iff.mp h.locate).2
  rw [Entry.at?_put_append hroot, hput] at hx
  rw [hs, Option.some.inj hx]

/-- The data directory's name is one a path can hold, so its place is found by its path. -/
theorem proper_dataName : EntryName.Proper dataName := by
  show EntryName.Proper ".repolens".toList
  simp [EntryName.Proper, Path.Component.Inner]

/-- The same for the two files an indexing writes into it. -/
theorem proper_of_mem_indexNames (h : name ∈ indexNames) : EntryName.Proper name := by
  simp only [indexNames, List.mem_cons, List.not_mem_nil, or_false] at h
  obtain rfl | rfl := h <;> simp [EntryName.Proper, Path.Component.Inner]

/-- A data directory that is there is found right below the root. -/
theorem locate_dataDirectory {data : List (EntryName × Entry)} (h : t.HasRoot root base entries)
    (hdata : entries.lookup dataName = some (.directory data)) :
    t.locate true (Layout.dataDirectory root)
      = .ok (.found (base ++ [dataName]) (.directory data)) := by
  refine locate_below h.locate true (Layout.components_dataDirectory root) (List.cons_ne_nil _ _) ?_
    fun _ => Entry.noConfusion
  rw [Entry.at?_directory_cons, hdata, Option.bind_some, Entry.at?_nil]

/-- One that is not there leaves its place free, which is where creating it puts it. -/
theorem locate_dataDirectory_free (h : t.HasRoot root base entries)
    (hdata : entries.lookup dataName = none) (followLast : Bool) :
    t.locate followLast (Layout.dataDirectory root) = .ok (.free (base ++ [dataName])) := by
  have hhere : (Entry.directory entries).at? [] = some (.directory entries) := Entry.at?_nil _
  refine locate_below_free h.locate followLast ?_ hhere hdata
  exact Layout.components_dataDirectory root

/-- The directory of the data can be made. -/
theorem makeDirectories (h : t.HasRoot root base entries) (kept : List EntryName)
    (hmake : t.makeDirectories (Layout.dataDirectory root) = .ok t') :
    ∃ entries', t'.HasRoot root base entries' ∧ SameBeside kept entries entries' := by
  have hcomponents := Layout.components_dataDirectory_ne_nil root
  -- A directory that is there is left as it is; a new one is empty, and hides no document.
  cases hdata : entries.lookup dataName with
  | some x =>
    obtain ⟨data, rfl, -⟩ := h.plain x hdata
    have hthere := makeDirectories_directory hcomponents (h.locate_dataDirectory hdata)
    obtain rfl := Except.ok.inj (hmake.symm.trans hthere)
    exact ⟨entries, h, fun _ _ _ => rfl, fun _ _ => rfl⟩
  | none =>
    have hfree := h.locate_dataDirectory_free hdata false
    obtain rfl := Except.ok.inj (hmake.symm.trans (makeDirectories_free hcomponents hfree))
    refine ⟨Entry.putName dataName (.directory []) entries, h.putAt ?_ ?_ ?_ ?_ ?_, ?_, ?_⟩
    · exact changed_free _ (fun _ _ => rfl) (fun _ => Entry.noConfusion)
        (locate_eq_ok_iff.mp hfree).2
    · rw [Entry.put, Entry.put]
    · exact Entry.Proper.directory_iff.mpr (by simp)
    · exact fun name hname => List.mem_singleton.mp hname ▸ proper_dataName
    · intro x hx
      rw [Entry.lookup_putName_self] at hx
      exact ⟨[], (Option.some.inj hx).symm, fun _ _ _ => by simp⟩
    · intro name rest hne
      rw [Entry.at?_directory_cons, Entry.at?_directory_cons, Entry.lookup_putName_of_ne hne]
    · intro name _
      rw [Entry.at?_directory_cons, Entry.at?_directory_cons, Entry.lookup_putName_self, hdata]
      rfl

/-- A document can be written only if the directory of the data is there. -/
theorem exists_data (h : t.HasRoot root base entries)
    (hp : p.components = (Layout.dataDirectory root).components ++ [.name name])
    {s : Spot} (hs : t.locate true p = .ok s) :
    ∃ data, entries.lookup dataName = some (.directory data) ∧
      ∀ name ∈ indexNames, ∀ target, data.lookup name ≠ some (.link target) := by
  cases hdata : entries.lookup dataName with
  | some x =>
    obtain ⟨data, rfl, hlinks⟩ := h.plain x hdata
    exact ⟨data, rfl, hlinks⟩
  | none =>
    have hthere := isDirectory_of_locate hp hs
    rw [isDirectory, entry, h.locate_dataDirectory_free hdata true] at hthere
    exact absurd hthere Bool.noConfusion

/-- A document is written to its place in the directory of the data. -/
theorem changed_write (h : t.HasRoot root base entries) (hname : name ∈ indexNames)
    (hp : p.components = (Layout.dataDirectory root).components ++ [.name name])
    (hw : t.write p c = .ok t') :
    t' = t.putAt (base ++ [dataName, name]) (.file c) ∧
      Entry.Changed t.top (Entry.put (.file c) t.top (base ++ [dataName, name]))
        (base ++ [dataName, name]) (.file c) ∧
      ∃ data, entries.lookup dataName = some (.directory data) ∧
        ∀ name ∈ indexNames, ∀ target, data.lookup name ≠ some (.link target) := by
  have hp' := Layout.components_document hp
  obtain ⟨place, rfl, hplace⟩ := of_write hw
  obtain ⟨s, hs⟩ : ∃ s, t.locate true p = .ok s := by
    obtain hfree | ⟨old, hfound⟩ := hplace
    · exact ⟨_, hfree⟩
    · exact ⟨_, hfound⟩
  obtain ⟨data, hdata, hlinks⟩ := h.exists_data hp hs
  have hdirectory : (Entry.directory entries).at? [dataName] = some (.directory data) := by
    rw [Entry.at?_directory_cons, hdata, Option.bind_some, Entry.at?_nil]
  -- The entries tell whether the document is new; the write has found the same.
  cases hold : data.lookup name with
  | none =>
    have hlocate := locate_below_free h.locate true hp' hdirectory hold
    obtain hfree | ⟨old, hfound⟩ := hplace
    · obtain rfl := Spot.free.inj (Except.ok.inj (hfree.symm.trans hlocate))
      exact ⟨rfl, changed_free _ (fun _ _ => rfl) (fun _ => Entry.noConfusion)
        (locate_eq_ok_iff.mp hlocate).2, data, hdata, hlinks⟩
    · exact absurd (Except.ok.inj (hfound.symm.trans hlocate)) Spot.noConfusion
  | some x =>
    have hlocate := locate_below h.locate true hp' (List.cons_ne_nil _ _)
      ((Entry.at?_concat hdirectory).trans hold)
      (fun target hx => hlinks name hname target (hx ▸ hold))
    obtain hfree | ⟨old, hfound⟩ := hplace
    · exact absurd (Except.ok.inj (hfree.symm.trans hlocate)) Spot.noConfusion
    · obtain ⟨rfl, rfl⟩ := Spot.found.inj (Except.ok.inj (hfound.symm.trans hlocate))
      exact ⟨rfl, changed_file (at?_of_walk_found (locate_eq_ok_iff.mp hlocate).2) c, data, hdata,
        hlinks⟩

/-- A document that is written changes neither the files of the project nor other documents. -/
theorem write (h : t.HasRoot root base entries) (hname : name ∈ indexNames) (hkept : name ∉ kept)
    (hp : p.components = (Layout.dataDirectory root).components ++ [.name name])
    (hw : t.write p c = .ok t') :
    ∃ entries', t'.HasRoot root base entries' ∧ SameBeside kept entries entries' := by
  obtain ⟨rfl, hchanged, data, hdata, hlinks⟩ := h.changed_write hname hp hw
  -- The new file as a change of two directories, of which only the upper one is the root's.
  have hput : Entry.put (.file c) (.directory entries) [dataName, name] = .directory
      (Entry.putName dataName (.directory (Entry.putName name (.file c) data)) entries) := by
    rw [Entry.put, hdata, Option.getD_some, Entry.put, Entry.put]
  refine ⟨_, h.putAt hchanged hput ?_ ?_ ?_, ?_, ?_⟩
  · exact Entry.Proper.of_not_directory fun _ => Entry.noConfusion
  · rw [List.forall_mem_cons, List.forall_mem_singleton]
    exact ⟨proper_dataName, proper_of_mem_indexNames hname⟩
  · intro x hx
    rw [Entry.lookup_putName_self] at hx
    refine ⟨_, (Option.some.inj hx).symm, fun other hother target => ?_⟩
    by_cases heq : other = name
    · rw [heq, Entry.lookup_putName_self]
      exact fun h => Entry.noConfusion (Option.some.inj h)
    · rw [Entry.lookup_putName_of_ne heq]
      exact hlinks other hother target
  · intro other rest hne
    rw [Entry.at?_directory_cons, Entry.at?_directory_cons, Entry.lookup_putName_of_ne hne]
  · intro other hother
    have hne : other ≠ name := fun h => hkept (h ▸ hother)
    rw [Entry.at?_directory_cons, Entry.at?_directory_cons, Entry.lookup_putName_self, hdata,
      Option.bind_some, Option.bind_some, Entry.at?_directory_cons, Entry.at?_directory_cons,
      Entry.lookup_putName_of_ne hne]

/-- No file has the name of the data. -/
theorem ne_file (h : t.HasRoot root base entries) (c : Content) :
    (Entry.directory entries).at? [dataName] ≠ some (.file c) := by
  intro hfile
  obtain ⟨_, x, heq, hlookup, hx⟩ := Entry.exists_directory_of_at?_cons hfile
  obtain rfl := Entry.directory.inj heq
  obtain ⟨data, rfl, -⟩ := h.plain x hlookup
  exact absurd (Option.some.inj ((Entry.at?_nil _).symm.trans hx)) Entry.noConfusion

/-- The entries of the root tell what is at a document, so a document that is kept is known by the
listing alone. -/
theorem entry_eq (h : t.HasRoot root base entries) (hname : name ∈ indexNames)
    (hp : p.components = (Layout.dataDirectory root).components ++ [.name name]) :
    t.entry p = ((Entry.directory entries).at? [dataName, name]).elim (.error .missing) .ok := by
  have hp' := Layout.components_document hp
  cases hdata : entries.lookup dataName with
  | none =>
    -- The path ends before its last name.
    have hroot := locate_eq_ok_iff.mp h.locate
    obtain ⟨left, hleft⟩ := walk_append [.name dataName, .name name] (List.cons_ne_nil _ _) hroot.2
      fun _ => Entry.noConfusion
    have hmissing : t.locate true p = .error .missing := by
      have hne : p.components ≠ [] := by simp [hp']
      rw [FileTree.locate, if_neg (text_ne_empty hne), hp']
      refine (hleft true).trans ?_
      rw [walk, at?_of_walk_found hroot.2]
      simp only [hdata]
      rfl
    rw [entry, hmissing, Entry.at?_directory_cons, hdata]
    rfl
  | some x =>
    obtain ⟨data, rfl, hlinks⟩ := h.plain x hdata
    have hdirectory : (Entry.directory entries).at? [dataName] = some (.directory data) := by
      rw [Entry.at?_directory_cons, hdata, Option.bind_some, Entry.at?_nil]
    have hat : (Entry.directory entries).at? [dataName, name] = data.lookup name :=
      Entry.at?_concat hdirectory
    rw [hat]
    cases hold : data.lookup name with
    | none =>
      rw [entry, locate_below_free h.locate true hp' hdirectory hold]
      rfl
    | some x =>
      exact entry_eq_ok_iff.mpr ⟨_, locate_below h.locate true hp' (List.cons_ne_nil _ _)
        (hat.trans hold) fun target hx => hlinks name hname target (hx ▸ hold)⟩

end HasRoot

end FileTree

/-! ### Changes that leave the files alone -/

namespace TreeChange

variable {P : FileTree → Prop} {α β : Type}

/-- Whether a property of trees is kept by a change, whether the change succeeds or not. -/
def Preserves (P : FileTree → Prop) (change : TreeChange α) : Prop :=
  ∀ t, P t → P (change.apply t).2

/-- The tree behind a change that was run has what the change preserves. -/
theorem Preserves.of_apply {change : TreeChange α} (h : Preserves P change) {t after : FileTree}
    {result : Except DataFault α} (ht : P t) (happly : change.apply t = (result, after)) :
    P after := by
  have hafter := h t ht
  rwa [happly] at hafter

/-- An update preserves what the change it wraps does: a change that fails is not put into the
state. -/
theorem preserves_update {f : FileTree → Except FileFault FileTree}
    (h : ∀ t t', P t → f t = .ok t' → P t') : Preserves P (update f) := by
  intro t ht
  -- An update that fails puts nothing into the state.
  rw [apply, ExceptT.run, StateT.run, update]
  cases hf : f t with
  | ok t' => exact h t t' ht hf
  | error fault => exact ht

/-- What two parts of a program preserve the whole does, also when the first one fails and the
second never runs. -/
theorem Preserves.bind {first : TreeChange α} {next : α → TreeChange β}
    (hfirst : Preserves P first) (hnext : ∀ a, Preserves P (next a)) :
    Preserves P (first >>= next) := by
  intro t ht
  have hbetween := hfirst t ht
  show P (ExceptT.bindCont next (first.apply t).1 (first.apply t).2).2
  cases hresult : (first.apply t).1 with
  | error fault => exact hbetween
  | ok a => exact hnext a _ hbetween

/-- A program that only answers changes nothing. -/
theorem preserves_pure (a : α) : Preserves P (pure a) :=
  fun _ ht => ht

/-- Nor does one that only fails. -/
theorem preserves_throw (fault : DataFault) : Preserves P (throw fault : TreeChange α) :=
  fun _ ht => ht

/-- Nor does reading the state. -/
theorem preserves_get : Preserves P (get : TreeChange FileTree) :=
  fun _ ht => ht

end TreeChange

namespace FileTree

open Layout (dataName indexNames)
open TreeChange (Preserves)

/-- Whether a tree differs from given entries of a root in the data alone, and there not in given
documents. -/
def Beside (root : Path) (kept : List EntryName) (entries : List (EntryName × Entry))
    (t : FileTree) : Prop :=
  ∃ base entries', t.HasRoot root base entries' ∧ SameBeside kept entries entries'

variable {root p : Path} {kept : List EntryName} {entries : List (EntryName × Entry)}
  {name : EntryName}

/-- A tree is beside itself, whatever names are kept: where every chain of changes starts. -/
theorem HasRoot.beside {t : FileTree} {base : Place} (h : t.HasRoot root base entries)
    (kept : List EntryName) : Beside root kept entries t :=
  ⟨base, entries, h, fun _ _ _ => rfl, fun _ _ => rfl⟩

/-- Creating the data directory touches no name beside it. -/
theorem preserves_makeDirectories :
    Preserves (Beside root kept entries)
      (TreeChange.update fun t => t.makeDirectories (Layout.dataDirectory root)) :=
  TreeChange.preserves_update fun _ _ ⟨base, _, hroot, hsame⟩ hmake => by
    obtain ⟨entries', hroot', hsame'⟩ := hroot.makeDirectories kept hmake
    exact ⟨base, entries', hroot', hsame.trans hsame'⟩

section Document

variable (hname : name ∈ indexNames) (hkept : name ∉ kept)
  (hp : p.components = (Layout.dataDirectory root).components ++ [.name name])

include hname hkept hp

/-- Nor does writing one of its own files. -/
theorem preserves_write (c : Content) :
    Preserves (Beside root kept entries) (TreeChange.update fun t => t.write p c) :=
  TreeChange.preserves_update fun _ _ ⟨base, _, hroot, hsame⟩ hwrite => by
    obtain ⟨entries', hroot', hsame'⟩ := hroot.write hname hkept hp hwrite
    exact ⟨base, entries', hroot', hsame.trans hsame'⟩

/-- A document is written by these two, one after the other. -/
theorem preserves_writeDocument (text : String) :
    Preserves (Beside root kept entries) (writeDocument root p text) :=
  preserves_makeDirectories.bind fun _ => preserves_write hname hkept hp _

end Document

/-- A graph that is saved leaves the files of the project alone, and the table. -/
theorem preserves_saveGraph (hkept : "graph.json".toList ∉ kept) (g : ProjectGraph) :
    Preserves (Beside root kept entries) (saveGraph root g) :=
  preserves_writeDocument List.mem_cons_self hkept (Layout.components_graphFile root) _

/-- Opening the table writes at most the data directory and an empty table. -/
theorem preserves_openTable (hkept : "index.db".toList ∉ kept) :
    Preserves (Beside root kept entries) (openTable root) := by
  refine preserves_makeDirectories.bind fun _ => TreeChange.preserves_get.bind fun t => ?_
  cases t.tableAt (Layout.tableFile root) with
  | error fault => exact TreeChange.preserves_throw fault
  | ok table? =>
    cases table? with
    | some rows => exact TreeChange.preserves_pure rows
    | none =>
      exact (preserves_write (List.mem_cons_of_mem _ (List.mem_singleton_self _)) hkept
        (Layout.components_tableFile root) _).bind fun _ => TreeChange.preserves_pure _

/-- Vectors that are replaced leave the files of the project alone. -/
theorem preserves_replaceVectors (hkept : "index.db".toList ∉ kept) (store : VectorStore)
    (model : String) :
    Preserves (Beside root kept entries) (replaceVectors root store model) := by
  refine (preserves_openTable hkept).bind fun table => ?_
  cases table.replace store model with
  | mk result written =>
    cases result with
    | error fault => exact TreeChange.preserves_throw _
    | ok n =>
      exact (preserves_write (List.mem_cons_of_mem _ (List.mem_singleton_self _)) hkept
        (Layout.components_tableFile root) _).bind fun _ => TreeChange.preserves_pure n

end FileTree

end CodeAtlas
