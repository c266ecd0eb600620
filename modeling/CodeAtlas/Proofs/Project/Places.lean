import CodeAtlas.Proofs.FileId.OfPath
import CodeAtlas.Proofs.Files.Proper
import CodeAtlas.Proofs.Files.Tree
import CodeAtlas.Project.Scan

/-!
# `CodeAtlas.Proofs.Project.Places`: the files below a root, place by place

Which files a scan wants can be said by recursion over the tree below the root: `filesIn` goes
through a directory and the directories in it, and gives the places of the files. The theorems:

* `mem_filesIn_iff`: these are the places of files that are wanted and that a scan reaches, for no
  directory on the way is left out.
* `nodup_filesIn`: each of them is given once.
* `components_pathTo`, `ofPath?_pathTo`: the path to a place has the names of the place behind those
  of the root, and so has its id.
-/

set_option autoImplicit false

namespace CodeAtlas

/-! ### Places -/

namespace ScanFilter

/-- The name below the root at the end of a place below the root. -/
def nameAt (place : Place) : String :=
  String.ofList (Text.glue '/' place)

/-- Whether the file at a place is taken. -/
def takes (f : ScanFilter) (place : Place) : Bool :=
  !f.excluded (nameAt place) && f.included (nameAt place)

/-- Whether the directory at a place is entered; it is known by its name with a slash behind
it. -/
def enters (f : ScanFilter) (place : Place) : Bool :=
  !f.excluded (nameAt place ++ "/")

/-- Whether a scan that is at a place takes a file at a place below, and enters all directories on
the way there, its own included. -/
def TakesFrom (f : ScanFilter) (place rest : Place) : Prop :=
  f.takes (place ++ rest) = true ∧
    ∀ front behind, rest = front ++ behind → behind ≠ [] → f.enters (place ++ front) = true

/-- Whether a scan takes a file at a place below the root, and enters all directories on the way
there. -/
def Reaches (f : ScanFilter) (place : Place) : Prop :=
  f.takes place = true ∧ ∀ front behind, place = front ++ behind → front ≠ [] → behind ≠ [] →
    f.enters front = true

variable {f : ScanFilter} {place rest : Place} {name : EntryName}

/-- Nothing is left to enter: only the file's own name is asked about. -/
theorem takesFrom_nil : f.TakesFrom place [] ↔ f.takes place = true := by
  rw [TakesFrom, List.append_nil, and_iff_left_iff_imp]
  intro _ front behind h hbehind
  exact absurd (List.append_eq_nil_iff.mp h.symm).2 hbehind

/-- The condition on a file unfolds along its place as the walk does, one directory at a time. -/
theorem takesFrom_cons :
    f.TakesFrom place (name :: rest) ↔
      f.enters place = true ∧ f.TakesFrom (place ++ [name]) rest := by
  rw [TakesFrom, TakesFrom, List.append_assoc, List.singleton_append]
  constructor
  · rintro ⟨htakes, henters⟩
    refine ⟨?_, htakes, ?_⟩
    · simpa using henters [] (name :: rest) rfl (List.cons_ne_nil _ _)
    · -- The directories below this one, seen from the place above it.
      rintro front behind rfl hbehind
      simpa using henters (name :: front) behind rfl hbehind
  · rintro ⟨hplace, htakes, henters⟩
    refine ⟨htakes, ?_⟩
    intro front behind h hbehind
    cases front with
    | nil => simpa using hplace
    | cons first front =>
      obtain ⟨rfl, rfl⟩ := List.cons.inj h
      simpa using henters front behind rfl hbehind

/-- A scan starts among the entries of the root, without entering it. -/
theorem reaches_cons : f.Reaches (name :: rest) ↔ f.TakesFrom [name] rest := by
  rw [Reaches, TakesFrom, List.singleton_append]
  refine and_congr_right fun _ => ⟨?_, ?_⟩
  · rintro h front behind rfl hbehind
    exact h (name :: front) behind rfl (List.cons_ne_nil _ _) hbehind
  · intro h front behind hsplit hfront hbehind
    obtain ⟨first, front, rfl⟩ := List.exists_cons_of_ne_nil hfront
    obtain ⟨rfl, rfl⟩ := List.cons.inj hsplit
    exact h front behind rfl hbehind

end ScanFilter

namespace Scan

mutual

/-- The files that are taken at a place below the root. -/
def filesAt (f : ScanFilter) (place : Place) : Entry → List Place
  | .file _ => if f.takes place then [place] else []
  | .directory entries => if f.enters place then filesIn f place entries else []
  | .closed | .link _ | .device => []

/-- The files that are taken among the entries of the directory at a place. -/
def filesIn (f : ScanFilter) (place : Place) : List (EntryName × Entry) → List Place
  | [] => []
  | (name, e) :: rest => filesAt f (place ++ [name]) e ++ filesIn f place rest

end

/-- The path to a place below a root. -/
def pathTo (root : Path) (place : Place) : Path :=
  place.foldl (fun p name => p.join ⟨String.ofList name⟩) root

open Entry (Proper)

variable {f : ScanFilter} {e : Entry} {entries : List (EntryName × Entry)} {place q : Place}

/-! ### The places that are taken -/

/-- The mutual recursion over members is a map over them, which the lemmas about lists can be
applied to. -/
theorem filesIn_eq_flatMap (f : ScanFilter) (place : Place) (entries : List (EntryName × Entry)) :
    filesIn f place entries = entries.flatMap fun m => filesAt f (place ++ [m.1]) m.2 := by
  induction entries with
  | nil => rw [filesIn, List.flatMap_nil]
  | cons m entries ih => rw [filesIn, ih, List.flatMap_cons]

/-- A file that is found is found below one member of the directory. -/
theorem mem_filesIn_iff_exists :
    q ∈ filesIn f place entries ↔
      ∃ name e, (name, e) ∈ entries ∧ q ∈ filesAt f (place ++ [name]) e := by
  rw [filesIn_eq_flatMap, List.mem_flatMap, Prod.exists]

/-- A directory gives the files that its members give. -/
theorem mem_filesIn_iff_of_members (h : (Entry.directory entries).Proper)
    (hmembers : ∀ name e, (name, e) ∈ entries → (q ∈ filesAt f (place ++ [name]) e ↔
      ∃ rest content, q = place ++ [name] ++ rest ∧ e.at? rest = some (.file content) ∧
        f.TakesFrom (place ++ [name]) rest)) :
    q ∈ filesIn f place entries ↔ ∃ name rest content, q = place ++ name :: rest ∧
      (Entry.directory entries).at? (name :: rest) = some (.file content) ∧
        f.TakesFrom (place ++ [name]) rest := by
  rw [mem_filesIn_iff_exists]
  constructor
  · rintro ⟨name, e, hmem, hq⟩
    obtain ⟨rest, content, rfl, hrest, htakes⟩ := (hmembers name e hmem).mp hq
    refine ⟨name, rest, content, by simp, ?_, htakes⟩
    -- A member is the only entry of its name, so the name leads back to it.
    rw [Entry.at?_directory_cons, h.lookup_eq_some_iff.mpr hmem]
    exact hrest
  · rintro ⟨name, rest, content, rfl, hrest, htakes⟩
    obtain ⟨_, e, heq, hlookup, hrest⟩ := Entry.exists_directory_of_at?_cons hrest
    obtain rfl := Entry.directory.inj heq
    have hmem := h.lookup_eq_some_iff.mp hlookup
    exact ⟨name, e, hmem, (hmembers name e hmem).mpr ⟨rest, content, by simp, hrest, htakes⟩⟩

/-- From a place, a scan takes the files below that are wanted and are not kept from it. -/
theorem mem_filesAt_iff (he : e.Proper) :
    q ∈ filesAt f place e ↔ ∃ rest content, q = place ++ rest ∧
      e.at? rest = some (.file content) ∧ f.TakesFrom place rest := by
  -- The place is general, for a member of a directory is reached from a longer one.
  induction e using Entry.byMembers generalizing place with
  | file content =>
    rw [filesAt]
    constructor
    · intro h
      split at h
      · rename_i htakes
        obtain rfl := List.mem_singleton.mp h
        exact ⟨[], content, by simp, rfl, ScanFilter.takesFrom_nil.mpr htakes⟩
      · exact absurd h List.not_mem_nil
    · rintro ⟨rest, other, rfl, hother, htakes⟩
      cases rest with
      | nil => simp [ScanFilter.takesFrom_nil.mp htakes]
      | cons name rest => cases hother
  | directory entries ih =>
    have hmembers : q ∈ filesIn f place entries ↔ _ :=
      mem_filesIn_iff_of_members he fun name e hmem => ih name e hmem (he.of_mem hmem)
    rw [filesAt]
    constructor
    · intro h
      split at h
      · rename_i henters
        obtain ⟨name, rest, content, hq, hrest, htakes⟩ := hmembers.mp h
        exact ⟨name :: rest, content, hq, hrest, ScanFilter.takesFrom_cons.mpr ⟨henters, htakes⟩⟩
      · exact absurd h List.not_mem_nil
    · rintro ⟨rest, content, hq, hrest, htakes⟩
      cases rest with
      | nil => cases hrest
      | cons name rest =>
        obtain ⟨henters, htakes⟩ := ScanFilter.takesFrom_cons.mp htakes
        rw [if_pos henters]
        exact hmembers.mpr ⟨name, rest, content, hq, hrest, htakes⟩
  | _ =>
    rw [filesAt]
    constructor
    · exact fun h => absurd h List.not_mem_nil
    · rintro ⟨rest, content, -, hrest, -⟩
      cases rest <;> cases hrest

/-- A scan takes the files that it reaches from the root. -/
theorem mem_filesIn_iff (h : (Entry.directory entries).Proper) :
    q ∈ filesIn f [] entries ↔
      (∃ content, (Entry.directory entries).at? q = some (.file content)) ∧ f.Reaches q := by
  rw [mem_filesIn_iff_of_members h fun name e hmem => mem_filesAt_iff (h.of_mem hmem)]
  constructor
  · rintro ⟨name, rest, content, rfl, hcontent, htakes⟩
    exact ⟨⟨content, hcontent⟩, ScanFilter.reaches_cons.mpr htakes⟩
  · rintro ⟨⟨content, hcontent⟩, hreaches⟩
    cases q with
    | nil => cases hcontent
    | cons name rest =>
      exact ⟨name, rest, content, rfl, hcontent, ScanFilter.reaches_cons.mp hreaches⟩

/-- A directory gives each file once if each of its members does. -/
theorem nodup_filesIn_of_members (h : (Entry.directory entries).Proper)
    (hmembers : ∀ name e, (name, e) ∈ entries → (filesAt f (place ++ [name]) e).Nodup) :
    (filesIn f place entries).Nodup := by
  rw [filesIn_eq_flatMap, List.nodup_flatMap]
  refine ⟨fun m hm => hmembers m.1 m.2 hm, ?_⟩
  -- What lies below two members differs in their names.
  refine List.Pairwise.imp_of_mem ?_ (List.pairwise_map.mp (Entry.Proper.directory_iff.mp h).1)
  rintro ⟨name, e⟩ ⟨name', e'⟩ hmem hmem' hne p hp hp'
  obtain ⟨rest, -, hrest, -⟩ := (mem_filesAt_iff (h.of_mem hmem)).mp hp
  obtain ⟨rest', -, hrest', -⟩ := (mem_filesAt_iff (h.of_mem hmem')).mp hp'
  rw [hrest, List.append_assoc, List.append_assoc] at hrest'
  exact hne (List.cons.inj (List.append_cancel_left hrest')).1

/-- No file is found twice, since a proper directory has no two members of one name and the place
tells the members apart. -/
theorem nodup_filesAt (he : e.Proper) : (filesAt f place e).Nodup := by
  -- The induction is over the tree, for every place that it may hang at.
  induction e using Entry.byMembers generalizing place with
  | file content =>
    rw [filesAt]
    split
    · exact List.nodup_singleton _
    · exact List.nodup_nil
  | directory entries ih =>
    rw [filesAt]
    split
    · exact nodup_filesIn_of_members he fun name e hmem => ih name e hmem (he.of_mem hmem)
    · exact List.nodup_nil
  | _ =>
    rw [filesAt]
    exact List.nodup_nil

/-- A scan takes each file once. -/
theorem nodup_filesIn (h : (Entry.directory entries).Proper) : (filesIn f [] entries).Nodup :=
  nodup_filesIn_of_members h fun _ _ hmem => nodup_filesAt (h.of_mem hmem)

/-- The names of a place that a scan takes are proper, and it is not the root. -/
theorem proper_of_mem_filesIn (h : (Entry.directory entries).Proper)
    (hq : q ∈ filesIn f [] entries) : (∀ name ∈ q, EntryName.Proper name) ∧ q ≠ [] := by
  obtain ⟨⟨content, hcontent⟩, -⟩ := (mem_filesIn_iff h).mp hq
  refine ⟨h.name_of_at? hcontent, ?_⟩
  rintro rfl
  cases hcontent

/-! ### The paths to places -/

variable {root : Path}

/-- A name joined to a path is one more component. -/
theorem components_join_ofList (hroot : root.components ≠ []) {name : EntryName}
    (hname : EntryName.Proper name) :
    (root.join ⟨String.ofList name⟩).components = root.components ++ [.name name] := by
  have hbody : Path.bodyOf name = [.name name] :=
    Path.bodyOf_glue fun c (hc : c ∈ [.name name]) => List.mem_singleton.mp hc ▸ hname
  have hrelative : (⟨String.ofList name⟩ : Path).isAbsolute = false := by
    rw [Bool.eq_false_iff, ne_eq, Path.isAbsolute_iff, String.toList_ofList]
    exact fun hhead => hname.2.2.2 (List.mem_of_mem_head? hhead)
  rw [Path.components_join (FileTree.text_ne_empty hroot) hrelative, String.toList_ofList, hbody]

/-- The path to a place below a root has the names of the place behind the root. -/
theorem components_pathTo (hroot : root.components ≠ [])
    (hplace : ∀ name ∈ place, EntryName.Proper name) :
    (pathTo root place).components = root.components ++ place.map .name := by
  -- Joining moves the root down, so the induction is for every root.
  induction place generalizing root with
  | nil => simp [pathTo]
  | cons name place ih =>
    rw [List.forall_mem_cons] at hplace
    have hjoin := components_join_ofList hroot hplace.1
    have hne : (root.join ⟨String.ofList name⟩).components ≠ [] := by
      rw [hjoin]
      exact List.append_ne_nil_of_right_ne_nil _ (List.cons_ne_nil _ _)
    show (pathTo (root.join ⟨String.ofList name⟩) place).components = _
    rw [ih hne hplace.2, hjoin, List.append_assoc]
    rfl

/-- The paths to two places differ in their components, so the scan lists no file under two
paths. -/
theorem eq_of_components_pathTo (hroot : root.components ≠ [])
    (hplace : ∀ name ∈ place, EntryName.Proper name) (hq : ∀ name ∈ q, EntryName.Proper name)
    (h : (pathTo root place).components = (pathTo root q).components) : place = q := by
  rw [components_pathTo hroot hplace, components_pathTo hroot hq] at h
  exact List.map_injective_iff.mpr (fun _ _ h => Path.Component.name.inj h)
    (List.append_cancel_left h)

/-- The id of a file below the root is made of the names of its place. -/
theorem ofPath?_pathTo (hroot : root.components ≠ [])
    (hplace : ∀ name ∈ place, EntryName.Proper name) (hne : place ≠ []) :
    FileId.ofPath? root (pathTo root place) = some (ScanFilter.nameAt place) := by
  have hnames : Path.namesOf (place.map .name) = place := by
    rw [Path.namesOf, List.filterMap_map]
    exact List.filterMap_some
  refine FileId.ofPath?_eq_some_iff.mpr
    ⟨place.map .name, components_pathTo hroot hplace, ?_, ?_⟩
  · rwa [hnames]
  · rw [hnames]
    rfl

/-- The names of a place are the pieces of its name. -/
theorem pieces_nameAt (hplace : ∀ name ∈ place, EntryName.Proper name) (hne : place ≠ []) :
    Text.pieces '/' (ScanFilter.nameAt place).toList = place := by
  rw [ScanFilter.nameAt, String.toList_ofList]
  exact Text.pieces_glue hne fun name hname => (hplace name hname).2.2.2

/-- The id of a file tells its place. -/
theorem nameAt_inj (hplace : ∀ name ∈ place, EntryName.Proper name)
    (hq : ∀ name ∈ q, EntryName.Proper name) (hne : place ≠ []) (hne' : q ≠ [])
    (h : ScanFilter.nameAt place = ScanFilter.nameAt q) : place = q := by
  rw [← pieces_nameAt hplace hne, ← pieces_nameAt hq hne', h]

end Scan

end CodeAtlas
