import CodeAtlas.Proofs.Path.Order
import CodeAtlas.Proofs.Project.Places

/-!
# `CodeAtlas.Proofs.Project.Scan`: which files a scan finds

A scan keeps a stack of directories that are still to be read. What carries the proofs is what it
promises on the way (`Progress.Promises`): the files that it has taken, and those that the recursion
over the tree gives below every directory that is left. Looking at an entry adds to the promise what
the recursion adds (`promises_visit`), and reading a directory keeps it, whether it can be read or
not (`perm_of_walk`). The theorems:

* `files_eq`: a scan of a proper tree finds what the recursion over the tree gives.
* `files_exactly_wanted`: these are exactly the wanted files (`Wants`), each once and in order, and
  only a root that cannot be read is a fault.
* `files_eq_of_mem_iff`: scans that find the same places give the same list of paths, however the
  entries of the directories are listed.
-/

set_option autoImplicit false

namespace CodeAtlas

namespace Scan

variable {f : ScanFilter} {e : Entry} {entries : List (EntryName × Entry)} {place : Place}
  {root : Path}

/-! ### The directories that are left -/

/-- Joining a member's name to a directory's path leads to the member's place, so the walk can be
followed by places alone. -/
theorem join_pathTo (root : Path) (place : Place) (name : EntryName) :
    (pathTo root place).join ⟨String.ofList name⟩ = pathTo root (place ++ [name]) := by
  rw [pathTo, pathTo, List.foldl_append]
  rfl

/-- What a scan still has to read when it has come to a directory. -/
def pendingAt (root : Path) (d : Place × Entry) : Pending :=
  ⟨pathTo root d.1, d.2.listing⟩

/-- The files that are taken below a directory that was entered. -/
def filesBelow (f : ScanFilter) (d : Place × Entry) : List Place :=
  match d.2.listing with
  | .ok entries => filesIn f d.1 entries
  | .error _ => []

/-- Whether a scan that has come this far gives certain paths in the end: the files that it has
taken, and those below the directories that it has left for later. -/
def Progress.Promises (f : ScanFilter) (root : Path) (s : Progress) (paths : List Path) : Prop :=
  ∃ dirs : List (Place × Entry), s.pending = dirs.map (pendingAt root) ∧
    (∀ d ∈ dirs, d.2.Proper ∧ ∀ name ∈ d.1, EntryName.Proper name) ∧
      (s.taken ++ (dirs.flatMap (filesBelow f)).map (pathTo root)).Perm paths

variable {s : Progress} {paths : List Path}

/-- What is promised is a set of paths: the order in which the walk finds them is left to the
listing. -/
theorem Progress.Promises.perm {paths' : List Path} (h : s.Promises f root paths)
    (hpaths : paths.Perm paths') : s.Promises f root paths' := by
  obtain ⟨dirs, hpending, hproper, hperm⟩ := h
  exact ⟨dirs, hpending, hproper, hperm.trans hpaths⟩

/-- A file that is taken is promised. -/
theorem Progress.Promises.take (h : s.Promises f root paths) (path : Path) :
    Promises f root { s with taken := path :: s.taken } (path :: paths) := by
  obtain ⟨dirs, hpending, hproper, hperm⟩ := h
  exact ⟨dirs, hpending, hproper, hperm.cons path⟩

/-- The files below a directory that is left for later are promised. -/
theorem Progress.Promises.leave (h : s.Promises f root paths) (he : e.Proper)
    (hplace : ∀ name ∈ place, EntryName.Proper name) :
    Promises f root { s with pending := pendingAt root (place, e) :: s.pending }
      ((filesBelow f (place, e)).map (pathTo root) ++ paths) := by
  obtain ⟨dirs, hpending, hproper, hperm⟩ := h
  refine ⟨(place, e) :: dirs, ?_, ?_, ?_⟩
  · rw [hpending, List.map_cons]
  · exact List.forall_mem_cons.mpr ⟨⟨he, hplace⟩, hproper⟩
  · rw [List.flatMap_cons, List.map_append]
    exact List.perm_append_comm_assoc _ _ _ |>.trans (hperm.append_left _)

/-- The next directory is one that was left for later. -/
theorem Progress.Promises.next (h : s.Promises f root paths) {dir : Pending} {rest : List Pending}
    (hpending : s.pending = dir :: rest) :
    ∃ d : Place × Entry, ∃ others, dir = pendingAt root d ∧ d.2.Proper ∧
      (∀ name ∈ d.1, EntryName.Proper name) ∧
        Promises f root { s with pending := rest } others ∧
          ((filesBelow f d).map (pathTo root) ++ others).Perm paths := by
  obtain ⟨dirs, hdirs, hproper, hperm⟩ := h
  rw [hdirs] at hpending
  obtain ⟨d, dirs, rfl, rfl, rfl⟩ := List.map_eq_cons_iff.mp hpending
  obtain ⟨hd, hproper⟩ := List.forall_mem_cons.mp hproper
  refine ⟨d, _, rfl, hd.1, hd.2, ⟨dirs, rfl, hproper, List.Perm.refl _⟩, ?_⟩
  rw [List.flatMap_cons, List.map_append] at hperm
  exact (List.perm_append_comm_assoc _ _ _).trans hperm

/-- Looking at an entry, a scan promises the files that are taken there. -/
theorem promises_visit {name : EntryName} (hroot : root.components ≠ [])
    (hplace : ∀ n ∈ place ++ [name], EntryName.Proper n) (he : e.Proper)
    (h : s.Promises f root paths) :
    (visit f root (pathTo root place) s (name, e)).Promises f root
      ((filesAt f (place ++ [name]) e).map (pathTo root) ++ paths) := by
  have hne : place ++ [name] ≠ [] := List.append_ne_nil_of_right_ne_nil _ (List.cons_ne_nil _ _)
  -- What is looked at has an id, so the branch for paths outside of the root is never taken.
  have hid := ofPath?_pathTo hroot hplace hne
  cases e with
  | file content =>
    have hvisit : visit f root (pathTo root place) s (name, .file content)
        = if f.takes (place ++ [name]) then
            { s with taken := pathTo root (place ++ [name]) :: s.taken } else s := by
      simp only [visit, join_pathTo, hid]
      rfl
    rw [hvisit, filesAt]
    split
    · exact h.take _
    · exact h
  | directory entries =>
    have hvisit : visit f root (pathTo root place) s (name, .directory entries)
        = if f.enters (place ++ [name]) then
            { s with pending := pendingAt root (place ++ [name], .directory entries) :: s.pending }
          else s := by
      simp only [visit, join_pathTo, hid, ScanFilter.enters, Bool.not_eq_true', ← Bool.not_eq_true,
        ite_not]
      rfl
    rw [hvisit, filesAt]
    split
    · exact h.leave he hplace
    · exact h
  | closed =>
    simp only [visit, join_pathTo, hid, filesAt]
    split
    · exact h
    · exact h.leave he hplace
  | link target =>
    simp only [visit, join_pathTo, hid, filesAt]
    exact h
  | device =>
    simp only [visit, join_pathTo, hid, filesAt]
    exact h

/-- Looking at the entries of a directory, a scan promises the files that are taken there. -/
theorem promises_visitAll (hroot : root.components ≠ [])
    (hplace : ∀ name ∈ place, EntryName.Proper name)
    (hentries : ∀ m ∈ entries, EntryName.Proper m.1 ∧ m.2.Proper) (h : s.Promises f root paths) :
    (visitAll f root (pathTo root place) s entries).Promises f root
      ((filesIn f place entries).map (pathTo root) ++ paths) := by
  induction entries generalizing s paths with
  | nil => exact h
  | cons m entries ih =>
    obtain ⟨hm, hentries⟩ := List.forall_mem_cons.mp hentries
    have hplace' : ∀ n ∈ place ++ [m.1], EntryName.Proper n :=
      List.forall_mem_append.mpr ⟨hplace, List.forall_mem_singleton.mpr hm.1⟩
    -- The members behind come first in what is promised then, so the two lists are in another
    -- order.
    refine (ih hentries (promises_visit hroot hplace' hm.2 h)).perm ?_
    rw [filesIn, List.map_append, List.append_assoc]
    exact List.perm_append_comm_assoc _ _ _

/-- Each member of a proper directory has a proper name and is proper itself, the two facts a visit
needs of it. -/
theorem entries_proper (h : (Entry.directory entries).Proper) :
    ∀ m ∈ entries, EntryName.Proper m.1 ∧ m.2.Proper := by
  obtain ⟨-, hnames, hmembers⟩ := Entry.Proper.directory_iff.mp h
  exact fun m hm => ⟨hnames m.1 (List.mem_map_of_mem hm), hmembers m.1 m.2 hm⟩

/-! ### The walk -/

/-- A root that cannot be listed is the one fault the walk reports. -/
theorem walk_of_error (f : ScanFilter) (root path : Path) (fault : FileFault) :
    walk f root true ⟨[⟨path, .error fault⟩], []⟩ = .error fault := by
  unfold walk
  rfl

/-- Once the root is listed the walk goes on as below it, where a directory that cannot be listed is
skipped. -/
theorem walk_of_ok (f : ScanFilter) (root path : Path) (entries : List (EntryName × Entry)) :
    walk f root true ⟨[⟨path, .ok entries⟩], []⟩
      = walk f root false (visitAll f root path ⟨[], []⟩ entries) := by
  rw [walk.eq_def]

/-- Below the root, nothing keeps a scan from its end. -/
theorem exists_walk (f : ScanFilter) (root : Path) (s : Progress) :
    ∃ found, walk f root false s = .ok found := by
  generalize hflag : false = atRoot
  fun_induction walk f root atRoot s with
  | case1 => exact ⟨_, rfl⟩
  | case2 => exact absurd hflag Bool.false_ne_true
  | case3 _ _ _ _ _ _ _ _ ih => exact ih rfl
  | case4 _ _ _ _ _ _ _ ih => exact ih rfl

/-- A scan keeps what it promises. The promise is on what is pending and taken together, so it
survives each step. -/
theorem perm_of_walk {found : List Path} (hroot : root.components ≠ [])
    (h : s.Promises f root paths) (hfound : walk f root false s = .ok found) :
    found.Perm paths := by
  generalize hflag : false = atRoot at hfound
  fun_induction walk f root atRoot s generalizing paths with
  | case1 _ s hpending =>
    obtain ⟨dirs, hdirs, -, hperm⟩ := h
    obtain rfl := List.map_eq_nil_iff.mp (hdirs.symm.trans hpending)
    obtain rfl := Except.ok.inj hfound
    exact (List.reverse_perm _).trans (by simpa using hperm)
  | case2 => exact absurd hflag Bool.false_ne_true
  | case3 _ s dir rest hpending fault hlisting hatRoot ih =>
    -- There are no files below a directory that cannot be read.
    obtain ⟨d, others, rfl, -, -, hothers, hperm⟩ := h.next hpending
    have hbelow : filesBelow f d = [] := by
      rw [filesBelow, show d.2.listing = .error fault from hlisting]
    rw [hbelow] at hperm
    exact (ih hothers rfl hfound).trans hperm
  | case4 _ s dir rest hpending entries hlisting ih =>
    obtain ⟨d, others, rfl, hd, hplace, hothers, hperm⟩ := h.next hpending
    have hlisting : d.2.listing = .ok entries := hlisting
    have hbelow : filesBelow f d = filesIn f d.1 entries := by
      rw [filesBelow, hlisting]
    rw [hbelow] at hperm
    have hentries := entries_proper (FileTree.listing_eq_ok_iff.mp hlisting ▸ hd)
    exact (ih (promises_visitAll hroot hplace hentries hothers) rfl hfound).trans hperm

/-! ### Reading what was found -/

variable {t t' : FileTree} {entries' : List (EntryName × Entry)}

/-- The root of a scan has components, so that names can be joined to it. -/
theorem components_ne_nil_of_entry (h : t.entry root = .ok e) : root.components ≠ [] := by
  obtain ⟨_, hlocate⟩ := FileTree.entry_eq_ok_iff.mp h
  exact Path.components_ne_nil (FileTree.locate_eq_ok_iff.mp hlocate).1

/-- The path to a place below the root leads to what is there, unless it is a link. -/
theorem entry_pathTo (hroot : t.entry root = .ok (.directory entries))
    (hplace : ∀ name ∈ place, EntryName.Proper name) (hne : place ≠ [])
    (h : (Entry.directory entries).at? place = some e) (hlink : ∀ target, e ≠ .link target) :
    t.entry (pathTo root place) = .ok e := by
  obtain ⟨base, hlocate⟩ := FileTree.entry_eq_ok_iff.mp hroot
  exact FileTree.entry_eq_ok_iff.mpr ⟨base ++ place, FileTree.locate_below hlocate true
    (components_pathTo (components_ne_nil_of_entry hroot) hplace) hne h hlink⟩

/-- A file found by its place in the listing is the one its path opens. A place below the root is
not the root itself, so no other lookup is involved. -/
theorem content_pathTo {content : Content} (hroot : t.entry root = .ok (.directory entries))
    (hplace : ∀ name ∈ place, EntryName.Proper name)
    (h : (Entry.directory entries).at? place = some (.file content)) :
    t.content (pathTo root place) = .ok content := by
  have hne : place ≠ [] := by
    rintro rfl
    cases h
  have hentry := entry_pathTo hroot hplace hne h fun _ => Entry.noConfusion
  rw [FileTree.content, hentry]
  rfl

/-- A scan succeeds if the root is a directory that can be read. -/
theorem files_eq_ok_iff {paths : List Path} :
    files t f root = .ok paths ↔ ∃ entries, t.entry root = .ok (.directory entries) ∧
      ∃ found, walk f root false (visitAll f root root ⟨[], []⟩ entries) = .ok found ∧
        paths = found.mergeSort Path.notAfter := by
  constructor
  · intro h
    cases hentries : t.entries root with
    | error fault =>
      rw [files, hentries, walk_of_error] at h
      exact absurd h (fun h => nomatch h)
    | ok entries =>
      -- Once the root is listed the walk cannot fail.
      obtain ⟨found, hfound⟩ := exists_walk f root (visitAll f root root ⟨[], []⟩ entries)
      refine ⟨entries, FileTree.entries_eq_ok_iff.mp hentries, found, hfound, ?_⟩
      rw [files, hentries, walk_of_ok, hfound] at h
      exact (Except.ok.inj h).symm
  · rintro ⟨entries, hentry, found, hfound, rfl⟩
    rw [files, FileTree.entries_eq_ok_iff.mpr hentry, walk_of_ok, hfound]
    rfl

/-- Only a root that cannot be read is a fault. -/
theorem files_eq_error_iff {fault : FileFault} :
    files t f root = .error fault ↔ t.entries root = .error fault := by
  cases hentries : t.entries root with
  | error cause =>
    rw [files, hentries, walk_of_error]
    show (Except.error cause : Except FileFault (List Path)) = .error fault ↔ _
    rw [Except.error.injEq, Except.error.injEq]
  | ok entries =>
    obtain ⟨found, hfound⟩ := exists_walk f root (visitAll f root root ⟨[], []⟩ entries)
    rw [files_eq_ok_iff.mpr ⟨entries, FileTree.entries_eq_ok_iff.mp hentries, found, hfound, rfl⟩]
    exact ⟨fun h => (nomatch h), fun h => (nomatch h)⟩

/-- The paths of a scan differ in their components. -/
theorem eq_of_components_eq (h : (Entry.directory entries).Proper) (hroot : root.components ≠ []) :
    ∀ p ∈ (filesIn f [] entries).map (pathTo root), ∀ p' ∈ (filesIn f [] entries).map (pathTo root),
      p.components = p'.components → p = p' := by
  intro p hp p' hp' hcomponents
  obtain ⟨place, hplace, rfl⟩ := List.mem_map.mp hp
  obtain ⟨place', hplace', rfl⟩ := List.mem_map.mp hp'
  rw [eq_of_components_pathTo hroot (proper_of_mem_filesIn h hplace).1
    (proper_of_mem_filesIn h hplace').1 hcomponents]

/-- A scan that goes by a stack of directories finds what the recursion over the tree gives. All
that is proved of a scan is proved of the recursion. -/
theorem files_eq (hroot : t.entry root = .ok (.directory entries))
    (h : (Entry.directory entries).Proper) :
    files t f root = .ok (((filesIn f [] entries).map (pathTo root)).mergeSort Path.notAfter) := by
  obtain ⟨found, hfound⟩ := exists_walk f root (visitAll f root root ⟨[], []⟩ entries)
  have hcomponents := components_ne_nil_of_entry hroot
  -- At the root, nothing was taken and nothing else is left.
  have hstart : Progress.Promises f root ⟨[], []⟩ [] :=
    ⟨[], rfl, fun _ hd => absurd hd List.not_mem_nil, List.Perm.refl _⟩
  have hnames : ∀ name ∈ ([] : Place), EntryName.Proper name :=
    fun _ hname => absurd hname List.not_mem_nil
  have hvisited := promises_visitAll hcomponents hnames (entries_proper h) hstart
  rw [List.append_nil] at hvisited
  have hperm := perm_of_walk hcomponents hvisited hfound
  rw [files_eq_ok_iff.mpr ⟨entries, hroot, found, hfound, rfl⟩,
    Path.mergeSort_eq_of_perm hperm.symm (eq_of_components_eq h hcomponents)]

/-- The places that a scan takes, each with what the file there holds. -/
def found (f : ScanFilter) (entries : List (EntryName × Entry)) : List (Place × Content) :=
  (filesIn f [] entries).filterMap fun place =>
    match (Entry.directory entries).at? place with
    | some (.file content) => some (place, content)
    | _ => none

/-- The files found, with their contents, are those the filter reaches. -/
theorem mem_found_iff (h : (Entry.directory entries).Proper) {content : Content} :
    (place, content) ∈ found f entries ↔
      (Entry.directory entries).at? place = some (.file content) ∧ f.Reaches place := by
  rw [found, List.mem_filterMap]
  constructor
  · rintro ⟨q, hq, hfile⟩
    obtain ⟨⟨other, hother⟩, hreaches⟩ := (mem_filesIn_iff h).mp hq
    rw [hother] at hfile
    obtain ⟨rfl, rfl⟩ := Prod.mk.inj (Option.some.inj hfile)
    exact ⟨hother, hreaches⟩
  · rintro ⟨hfile, hreaches⟩
    exact ⟨place, (mem_filesIn_iff h).mpr ⟨⟨content, hfile⟩, hreaches⟩, by rw [hfile]⟩

/-- Forgetting the contents leaves the places the walk finds: every place found has a file with some
content. -/
theorem map_fst_found (h : (Entry.directory entries).Proper) :
    (found f entries).map Prod.fst = filesIn f [] entries := by
  rw [found, List.map_filterMap]
  refine (List.filterMap_congr fun q hq => ?_).trans List.filterMap_some
  obtain ⟨⟨content, hcontent⟩, -⟩ := (mem_filesIn_iff h).mp hq
  rw [hcontent]
  rfl

/-- The paths of a scan are those to the places that it takes, in another order. -/
theorem perm_found {paths : List Path} (hroot : t.entry root = .ok (.directory entries))
    (h : (Entry.directory entries).Proper) (hpaths : files t f root = .ok paths) :
    paths.Perm ((found f entries).map fun s => pathTo root s.1) := by
  have hmap : (found f entries).map (fun s => pathTo root s.1)
      = (filesIn f [] entries).map (pathTo root) := by
    rw [← map_fst_found h, List.map_map]
    rfl
  obtain rfl := Except.ok.inj ((files_eq hroot h).symm.trans hpaths)
  rw [hmap]
  exact List.mergeSort_perm _ _

/-- A file that was found has a place with proper names, which is not the root. -/
theorem proper_of_mem_found (h : (Entry.directory entries).Proper) {s : Place × Content}
    (hs : s ∈ found f entries) : (∀ name ∈ s.1, EntryName.Proper name) ∧ s.1 ≠ [] :=
  proper_of_mem_filesIn h (map_fst_found (f := f) h ▸ List.mem_map_of_mem hs)

/-- Reading a path that was found gives the content it was found with. -/
theorem content_of_mem_found (hroot : t.entry root = .ok (.directory entries))
    (h : (Entry.directory entries).Proper) {s : Place × Content} (hs : s ∈ found f entries) :
    t.content (pathTo root s.1) = .ok s.2 :=
  content_pathTo hroot (proper_of_mem_found h hs).1 ((mem_found_iff h).mp hs).1

/-- Every file found has an id, its place joined with slashes. -/
theorem ofPath?_of_mem_found (hroot : t.entry root = .ok (.directory entries))
    (h : (Entry.directory entries).Proper) {s : Place × Content} (hs : s ∈ found f entries) :
    FileId.ofPath? root (pathTo root s.1) = some (ScanFilter.nameAt s.1) :=
  ofPath?_pathTo (components_ne_nil_of_entry hroot) (proper_of_mem_found h hs).1
    (proper_of_mem_found h hs).2

/-- The ids of the files of a scan are what their places show. -/
theorem perm_ofPath?_files {paths : List Path} (hroot : t.entry root = .ok (.directory entries))
    (h : (Entry.directory entries).Proper) (hpaths : files t f root = .ok paths) :
    (paths.map (FileId.ofPath? root)).Perm
      ((found f entries).map fun s => some (ScanFilter.nameAt s.1)) := by
  refine ((perm_found hroot h hpaths).map _).trans (List.Perm.of_eq ?_)
  rw [List.map_map]
  exact List.map_congr_left fun s hs => ofPath?_of_mem_found hroot h hs

/-- Files that were found at different places have different ids. -/
theorem nodup_nameAt_found (h : (Entry.directory entries).Proper) :
    ((found f entries).map fun s => ScanFilter.nameAt s.1).Nodup := by
  have hplaces := nodup_filesIn (f := f) h
  rw [← map_fst_found h] at hplaces
  refine List.pairwise_map.mpr ((List.pairwise_map.mp hplaces).imp_of_mem ?_)
  intro s s' hs hs' hne hsame
  exact hne (nameAt_inj (proper_of_mem_found h hs).1 (proper_of_mem_found h hs').1
    (proper_of_mem_found h hs).2 (proper_of_mem_found h hs').2 hsame)

/-- The files of a scan have ids, and these differ. -/
theorem ofPath?_files {paths : List Path} (hroot : t.entry root = .ok (.directory entries))
    (h : (Entry.directory entries).Proper) (hpaths : files t f root = .ok paths) :
    (∀ path ∈ paths, (FileId.ofPath? root path).isSome) ∧
      (paths.map (FileId.ofPath? root)).Nodup := by
  have hperm := perm_ofPath?_files hroot h hpaths
  constructor
  · intro path hpath
    obtain ⟨s, -, hs⟩ := List.mem_map.mp (hperm.mem_iff.mp (List.mem_map_of_mem hpath))
    rw [← hs]
    rfl
  · -- The ids differ as texts, and `some` keeps them apart.
    rw [hperm.nodup_iff]
    have hnames := (nodup_nameAt_found (f := f) h).map (Option.some_injective _)
    rwa [List.map_map] at hnames

/-- Scans that find the same places give the same paths in the same order. -/
theorem files_eq_of_mem_iff (hroot : t.entry root = .ok (.directory entries))
    (hroot' : t'.entry root = .ok (.directory entries')) (h : (Entry.directory entries).Proper)
    (h' : (Entry.directory entries').Proper)
    (hmem : ∀ q, q ∈ filesIn f [] entries ↔ q ∈ filesIn f [] entries') :
    files t f root = files t' f root := by
  -- The order in which the entries are listed is lost when the paths are sorted.
  have hperm : (filesIn f [] entries).Perm (filesIn f [] entries') :=
    (List.perm_ext_iff_of_nodup (nodup_filesIn h) (nodup_filesIn h')).mpr hmem
  rw [files_eq hroot h, files_eq hroot' h', Path.mergeSort_eq_of_perm (hperm.map (pathTo root))
    (eq_of_components_eq h (components_ne_nil_of_entry hroot))]

/-! ### The wanted files -/

/-- Whether there is a file at a place below the root that a scan is to find: it is included and not
excluded, and every directory on the way to it can be read and is not excluded. -/
structure Wants (f : ScanFilter) (entries : List (EntryName × Entry)) (place : Place) : Prop where
  file : ∃ content, (Entry.directory entries).at? place = some (.file content)
  included : f.included (ScanFilter.nameAt place) = true
  not_excluded : f.excluded (ScanFilter.nameAt place) = false
  above : ∀ front behind, place = front ++ behind → front ≠ [] → behind ≠ [] →
    (∃ members, (Entry.directory entries).at? front = some (.directory members)) ∧
      f.excluded (ScanFilter.nameAt front ++ "/") = false

/-- The condition the walk tests directory by directory is the one its documentation states of a
file and the directories above it. -/
theorem mem_filesIn_iff_wants (h : (Entry.directory entries).Proper) :
    place ∈ filesIn f [] entries ↔ Wants f entries place := by
  have htakes : f.takes place = true ↔ f.excluded (ScanFilter.nameAt place) = false ∧
      f.included (ScanFilter.nameAt place) = true := by
    rw [ScanFilter.takes, Bool.and_eq_true, Bool.not_eq_true']
  have henters (front : Place) : f.enters front = true ↔
      f.excluded (ScanFilter.nameAt front ++ "/") = false := by
    rw [ScanFilter.enters, Bool.not_eq_true']
  rw [mem_filesIn_iff h]
  constructor
  · rintro ⟨⟨content, hfile⟩, hreaches⟩
    refine ⟨⟨content, hfile⟩, (htakes.mp hreaches.1).2, (htakes.mp hreaches.1).1, ?_⟩
    rintro front behind rfl hfront hbehind
    -- What has something below it is a directory that can be read.
    obtain ⟨name, behind, rfl⟩ := List.exists_cons_of_ne_nil hbehind
    obtain ⟨e, he, hrest⟩ := Option.bind_eq_some_iff.mp ((Entry.at?_append _ _ _).symm.trans hfile)
    obtain ⟨members, -, rfl, -⟩ := Entry.exists_directory_of_at?_cons hrest
    exact ⟨⟨members, he⟩, (henters _).mp (hreaches.2 _ _ rfl hfront hbehind)⟩
  · intro hwants
    refine ⟨hwants.file, htakes.mpr ⟨hwants.not_excluded, hwants.included⟩, ?_⟩
    intro front behind hsplit hfront hbehind
    exact (henters _).mpr (hwants.above front behind hsplit hfront hbehind).2

/-- **A scan finds exactly the wanted files.** Take any tree, any filter and any root. The scan
fails if and only if the root cannot be read, with that fault. Otherwise, let the root have any
proper entries, listed in any order. The scan then gives the paths to the wanted files, each once
and in the order of their components. The path to a place below the root is read as what is there,
and its id is the name by which the filter knows it. -/
theorem files_exactly_wanted (t : FileTree) (f : ScanFilter) (root : Path) :
    (∀ fault, files t f root = .error fault ↔ t.entries root = .error fault) ∧
    ∀ entries, t.entries root = .ok entries → (Entry.directory entries).Proper →
      (∃ paths, files t f root = .ok paths ∧ paths.Nodup ∧
        paths.Pairwise (fun p q => p.notAfter q = true ∧ q.notAfter p = false) ∧
          ∀ path, path ∈ paths ↔ ∃ place, path = pathTo root place ∧ Wants f entries place) ∧
      ∀ place e, (Entry.directory entries).at? place = some e → place ≠ [] →
        FileId.ofPath? root (pathTo root place) = some (ScanFilter.nameAt place) ∧
          ((∀ target, e ≠ .link target) → t.entry (pathTo root place) = .ok e) := by
  refine ⟨fun fault => files_eq_error_iff, fun entries hentries h => ?_⟩
  have hroot := FileTree.entries_eq_ok_iff.mp hentries
  have hcomponents := components_ne_nil_of_entry hroot
  -- Paths are compared by their components. For the paths that a scan finds these tell the paths.
  have hsame := eq_of_components_eq (f := f) h hcomponents
  have hnodup : (((filesIn f [] entries).map (pathTo root)).mergeSort Path.notAfter).Nodup := by
    rw [(List.mergeSort_perm _ _).nodup_iff]
    refine (List.nodup_map_iff_inj_on (nodup_filesIn h)).mpr fun p hp q hq heq => ?_
    exact eq_of_components_pathTo hcomponents (proper_of_mem_filesIn h hp).1
      (proper_of_mem_filesIn h hq).1 (congrArg Path.components heq)
  refine ⟨⟨_, files_eq hroot h, hnodup, ?_, fun path => ?_⟩, fun place e hplace hne => ?_⟩
  · refine ((Path.pairwise_mergeSort_notAfter _).and hnodup).imp_of_mem ?_
    rintro p q hp hq ⟨hpq, hdiffer⟩
    refine ⟨hpq, Bool.eq_false_of_not_eq_true fun hqp => hdiffer ?_⟩
    exact hsame p (List.mem_mergeSort.mp hp) q (List.mem_mergeSort.mp hq)
      (Path.components_eq_of_notAfter hpq hqp)
  · rw [List.mem_mergeSort, List.mem_map]
    constructor
    · rintro ⟨place, hplace, rfl⟩
      exact ⟨place, rfl, (mem_filesIn_iff_wants h).mp hplace⟩
    · rintro ⟨place, rfl, hwants⟩
      exact ⟨place, (mem_filesIn_iff_wants h).mpr hwants, rfl⟩
  · have hnames := h.name_of_at? hplace
    exact ⟨ofPath?_pathTo hcomponents hnames hne, entry_pathTo hroot hnames hne hplace⟩

/-- Below the root there are two files that are wanted, one that is not included, one in an excluded
directory, a link to a directory, a device, and a directory that cannot be read. A project that
cannot be read itself is a fault. -/
theorem files_exactly_wanted_mixed :
    let entries : List (EntryName × Entry) := [(['s'], .directory [(['x'], .closed),
        (['b'], .file (.locked 1)), (['a'], .file (.ofText "1")), (['l'], .link ⟨"."⟩)]),
      (".git".toList, .directory [(['a'], .file (.ofText "2"))]), (['m'], .link ⟨"s"⟩),
      (['d'], .device), (['a'], .file (.ofText "3"))]
    let t : FileTree := ⟨.directory [(['p'], .directory entries), (['q'], .closed)], []⟩
    let f : ScanFilter := ⟨fun id => id ≠ "s/b", fun id => id = ".git/"⟩
    t.entries ⟨"/p"⟩ = .ok entries ∧ (Entry.directory entries).Proper ∧
      (∃ paths, files t f ⟨"/p"⟩ = .ok paths ∧ paths.Nodup ∧
        ∀ path, path ∈ paths ↔ path = ⟨"/p/a"⟩ ∨ path = ⟨"/p/s/a"⟩) ∧
      files t f ⟨"/q"⟩ = .error .denied := by
  intro entries t f
  have hroot : t.entry ⟨"/p"⟩ = .ok (.directory entries) :=
    FileTree.entry_eq_ok_iff.mpr ⟨[['p']], FileTree.locate_names rfl rfl fun _ => Entry.noConfusion⟩
  have hentries := FileTree.entries_eq_ok_iff.mpr hroot
  have hproper : (Entry.directory entries).Proper := by
    simp [entries, Entry.Proper.directory_iff, EntryName.Proper, Path.Component.Inner,
      Entry.Proper.of_not_directory, or_imp, forall_and]
  -- The walk over this tree is computed once, and the filter's condition is read off it.
  have hplaces : filesIn f [] entries = [[['s'], ['a']], [['a']]] := by
    decide +kernel
  have hwants (place : Place) :
      Wants f entries place ↔ place = [['s'], ['a']] ∨ place = [['a']] := by
    rw [← mem_filesIn_iff_wants hproper, hplaces]
    simp
  have hsa : pathTo ⟨"/p"⟩ [['s'], ['a']] = ⟨"/p/s/a"⟩ := by decide
  have ha : pathTo ⟨"/p"⟩ [['a']] = ⟨"/p/a"⟩ := by decide
  have hclosed : t.entry ⟨"/q"⟩ = .ok .closed :=
    FileTree.entry_eq_ok_iff.mpr ⟨[['q']], FileTree.locate_names rfl rfl fun _ => Entry.noConfusion⟩
  obtain ⟨-, hfiles⟩ := files_exactly_wanted t f ⟨"/p"⟩
  obtain ⟨⟨paths, hpaths, hnodup, -, hmem⟩, -⟩ := hfiles entries hentries hproper
  refine ⟨hentries, hproper, ⟨paths, hpaths, hnodup, fun path => (hmem path).trans ?_⟩, ?_⟩
  · simp only [hwants, and_or_left, exists_or, exists_eq_right, hsa, ha]
    exact or_comm
  · refine ((files_exactly_wanted t f ⟨"/q"⟩).1 .denied).mpr ?_
    rw [FileTree.entries, hclosed]
    rfl

end Scan

end CodeAtlas
