import CodeAtlas.Proofs.Files.Entry
import CodeAtlas.Proofs.Path.Components

/-!
# `CodeAtlas.Proofs.Files.Tree`: reading what was written

The theorems:

* `walk_changed`: a path leads to the same place before and after a file is written or a directory
  is made. It is the induction over the components and links that are followed.
* `content_write`: what was written to a path is read from it.
* `locate_below`, `locate_below_free`: where names behind a path to a directory lead.
* `walk_append`, `exists_directory_of_walk_concat`: how a path and its front lead.
* `makeDirectories_free`, `makeDirectories_directory`: when directories can be made.
-/

set_option autoImplicit false

namespace CodeAtlas

/-! ### Following paths -/

namespace FileTree

open Entry

variable {top top' new : Entry} {place q : Place} {name : EntryName}
  {entries : List (EntryName × Entry)} {followLast : Bool} {links : Nat}
  {rest cs : List Path.Component}

section Step

/-- A `..` leads back from a directory, also from one that may not be read. -/
theorem walk_parent {x : Entry} (hx : top.at? place = some x)
    (hdir : x = .closed ∨ ∃ entries, x = .directory entries) :
    walk top followLast links place (.parent :: rest)
      = walk top followLast links place.dropLast rest := by
  rw [walk, hx]
  obtain rfl | ⟨_, rfl⟩ := hdir <;> rfl

/-- A last name that a directory does not have is free. -/
theorem walk_free (hdir : top.at? place = some (.directory entries))
    (hname : top.at? (place ++ [name]) = none) :
    walk top followLast links place [.name name] = .ok (.free (place ++ [name])) := by
  rw [at?_concat hdir] at hname
  rw [walk, hdir]
  simp [hname]

/-- A name that a directory has is followed, unless it is a link's. -/
theorem walk_name {x : Entry} (hdir : top.at? place = some (.directory entries))
    (hname : top.at? (place ++ [name]) = some x) (hlink : ∀ target, x ≠ .link target) :
    walk top followLast links place (.name name :: rest)
      = walk top followLast links (place ++ [name]) rest := by
  rw [at?_concat hdir] at hname
  rw [walk, hdir]
  cases x with
  | link target => exact absurd rfl (hlink target)
  | _ => simp only [hname]

/-- A link at the end of a path is not followed if that is not wanted. -/
theorem walk_lastLink {target : Path} (hdir : top.at? place = some (.directory entries))
    (hname : top.at? (place ++ [name]) = some (.link target))
    (hlast : rest = [] ∧ ¬ followLast = true) :
    walk top followLast links place (.name name :: rest)
      = .ok (.found (place ++ [name]) (.link target)) := by
  rw [at?_concat hdir] at hname
  rw [walk, hdir]
  simp only [hname]
  exact if_pos hlast

/-- Any other link is followed from the directory that holds it, and takes one off the number of
links that may follow. -/
theorem walk_link {target : Path} (hdir : top.at? place = some (.directory entries))
    (hname : top.at? (place ++ [name]) = some (.link target))
    (hlast : ¬ (rest = [] ∧ ¬ followLast = true)) :
    walk top followLast (links + 1) place (.name name :: rest)
      = walk top followLast links place (target.components ++ rest) := by
  rw [at?_concat hdir] at hname
  rw [walk, hdir]
  simp only [hname]
  exact if_neg hlast

end Step

/-- Where a path leads after a change, from where it led before. -/
def Spot.Moved (top' new : Entry) (q : Place) : Spot → Spot → Prop
  | .found p _, s => ∃ x, top'.at? p = some x ∧ s = .found p x
  | .free p, s => s = if p = q then .found q new else .free p

/-- A path that leads somewhere leads to the same place after a change, whatever links it follows on
the way. -/
theorem walk_changed (h : Changed top top' q new) {s : Spot}
    (hw : walk top followLast links place cs = .ok s) :
    ∃ s', walk top' followLast links place cs = .ok s' ∧ s.Moved top' new q s' := by
  -- The induction is on the walk in the tree as it was. Every step of it looks at one entry, and
  -- the change leaves directories directories and links links.
  fun_induction walk top followLast links place cs with
  | case1 links place x hx =>
    obtain rfl := Except.ok.inj hw
    obtain ⟨x', hx', -⟩ := h.exists_at? hx
    exact ⟨_, by rw [walk, hx'], x', hx', rfl⟩
  | case3 links place rest ih =>
    rw [walk]
    exact ih hw
  | case4 links place rest ih =>
    rw [walk]
    exact ih hw
  | case5 links place rest entries hdir ih =>
    obtain ⟨others, hothers⟩ := h.exists_directory hdir
    rw [walk_parent hothers (.inr ⟨others, rfl⟩)]
    exact ih hw
  | case6 links place rest hclosed ih =>
    have hstays := h.at?_eq hclosed (fun _ => Entry.noConfusion) (fun _ => Entry.noConfusion)
    rw [walk_parent hstays (.inl rfl)]
    exact ih hw
  | case8 links place name entries hdir hname =>
    obtain rfl := Except.ok.inj hw
    obtain ⟨others, hothers⟩ := h.exists_directory hdir
    rw [← at?_concat hdir] at hname
    by_cases hq : place ++ [name] = q
    · -- The name that was free is that of the new entry.
      have hself := h.at_self
      rw [← hq] at hself
      refine ⟨.found (place ++ [name]) new, ?_, ?_⟩
      · rw [walk_name hothers hself h.new_ne_link, walk, hself]
      · rw [Spot.Moved, if_pos hq, hq]
    · have hrel := h.at_other _ hq
      rw [hname] at hrel
      refine ⟨.free (place ++ [name]), walk_free hothers ?_, (if_neg hq).symm⟩
      cases hrel' : top'.at? (place ++ [name]) with
      | none => rfl
      | some _ =>
        rw [hrel'] at hrel
        nomatch hrel
  | case10 links place name rest entries hdir target hname hlast =>
    obtain rfl := Except.ok.inj hw
    obtain ⟨others, hothers⟩ := h.exists_directory hdir
    rw [← at?_concat hdir] at hname
    have hstays := h.at?_eq hname (fun _ => Entry.noConfusion) (fun _ => Entry.noConfusion)
    exact ⟨_, walk_lastLink hothers hstays hlast, _, hstays, rfl⟩
  | case12 place name rest entries hdir target hname hlast links ih =>
    obtain ⟨others, hothers⟩ := h.exists_directory hdir
    rw [← at?_concat hdir] at hname
    have hstays := h.at?_eq hname (fun _ => Entry.noConfusion) (fun _ => Entry.noConfusion)
    rw [walk_link hothers hstays hlast]
    exact ih hw
  | case13 links place name rest entries hdir x hlink hname ih =>
    obtain ⟨others, hothers⟩ := h.exists_directory hdir
    rw [← at?_concat hdir] at hname
    obtain ⟨x', hx', hlink'⟩ := h.exists_at? hname
    rw [walk_name hothers hx' (hlink' hlink)]
    exact ih hw
  | _ => exact absurd hw (fun h => nomatch h)

/-- What a path leads to is there. -/
theorem at?_of_walk_found {p : Place} {x : Entry}
    (hw : walk top followLast links place cs = .ok (.found p x)) : top.at? p = some x := by
  -- A step that goes on gives what the rest of the walk gives; two kinds of steps end one.
  fun_induction walk top followLast links place cs with
  | case1 links place x' hx =>
    obtain ⟨rfl, rfl⟩ := Spot.found.inj (Except.ok.inj hw)
    exact hx
  | case3 _ _ _ ih => exact ih hw
  | case4 _ _ _ ih => exact ih hw
  | case5 _ _ _ _ _ ih => exact ih hw
  | case6 _ _ _ _ ih => exact ih hw
  | case8 => exact absurd (Except.ok.inj hw) Spot.noConfusion
  | case10 links place name rest entries hdir target hname hlast =>
    obtain ⟨rfl, rfl⟩ := Spot.found.inj (Except.ok.inj hw)
    rw [at?_concat hdir, hname]
  | case12 _ _ _ _ _ _ _ _ _ ih => exact ih hw
  | case13 _ _ _ _ _ _ _ _ _ ih => exact ih hw
  | _ => exact absurd hw (fun h => nomatch h)

/-- Where a path leads to nothing, the directory is there. -/
theorem exists_of_walk_free {p : Place}
    (hw : walk top followLast links place cs = .ok (.free p)) :
    ∃ place name entries, p = place ++ [name] ∧ top.at? place = some (.directory entries) ∧
      top.at? p = none := by
  -- Only one step ends at nothing: the last name, in a directory that does not have it.
  fun_induction walk top followLast links place cs with
  | case1 => exact absurd (Except.ok.inj hw) Spot.noConfusion
  | case3 _ _ _ ih => exact ih hw
  | case4 _ _ _ ih => exact ih hw
  | case5 _ _ _ _ _ ih => exact ih hw
  | case6 _ _ _ _ ih => exact ih hw
  | case8 links place name entries hdir hname =>
    obtain rfl := Spot.free.inj (Except.ok.inj hw)
    exact ⟨place, name, entries, rfl, hdir, by rw [at?_concat hdir, hname]⟩
  | case10 => exact absurd (Except.ok.inj hw) Spot.noConfusion
  | case12 _ _ _ _ _ _ _ _ _ ih => exact ih hw
  | case13 _ _ _ _ _ _ _ _ _ ih => exact ih hw
  | _ => exact absurd hw (fun h => nomatch h)

/-- Names lead to the entry at their place, if that is no link; what they pass is directories. -/
theorem walk_names {x : Entry} {names : Place} (hx : top.at? (place ++ names) = some x)
    (hlink : ∀ target, x ≠ .link target) :
    walk top followLast links place (names.map .name) = .ok (.found (place ++ names) x) := by
  induction names generalizing place with
  | nil =>
    rw [List.append_nil] at hx ⊢
    rw [List.map_nil, walk, hx]
  | cons name names ih =>
    have hbelow := hx
    rw [at?_append] at hbelow
    obtain ⟨e, he, hnames⟩ := Option.bind_eq_some_iff.mp hbelow
    obtain ⟨entries, old, rfl, hold, hrest⟩ := exists_directory_of_at?_cons hnames
    have hname : top.at? (place ++ [name]) = some old := by rw [at?_concat he, hold]
    rw [List.append_cons] at hx ⊢
    have hplain : ∀ target, old ≠ .link target := by
      rintro target rfl
      -- A link has nothing below it.
      cases names with
      | nil => exact hlink target (Option.some.inj (hx.symm.trans (by simpa using hname)))
      | cons next names => exact absurd hrest (by simp [at?])
    rw [List.map_cons, walk_name he hname hplain]
    exact ih hx

/-! ### Longer and shorter paths -/

/-- A path goes on from where its front leads. The links that are left for it are those that the
front has not used up. -/
theorem walk_append {x : Entry} (more : List Path.Component) (hmore : more ≠ [])
    (hw : walk top followLast links place cs = .ok (.found q x)) (hx : ∀ target, x ≠ .link target) :
    ∃ left, ∀ last, walk top last links place (cs ++ more) = walk top last left q more := by
  fun_induction walk top followLast links place cs with
  | case1 links place x' hx' =>
    obtain ⟨rfl, rfl⟩ := Spot.found.inj (Except.ok.inj hw)
    exact ⟨links, fun _ => rfl⟩
  | case3 links place rest ih =>
    obtain ⟨left, hleft⟩ := ih hw
    exact ⟨left, fun last => by rw [List.cons_append, walk, hleft]⟩
  | case4 links place rest ih =>
    obtain ⟨left, hleft⟩ := ih hw
    exact ⟨left, fun last => by rw [List.cons_append, walk, hleft]⟩
  | case5 links place rest entries hdir ih =>
    obtain ⟨left, hleft⟩ := ih hw
    exact ⟨left, fun last => by
      rw [List.cons_append, walk_parent hdir (.inr ⟨entries, rfl⟩), hleft]⟩
  | case6 links place rest hclosed ih =>
    obtain ⟨left, hleft⟩ := ih hw
    exact ⟨left, fun last => by rw [List.cons_append, walk_parent hclosed (.inl rfl), hleft]⟩
  | case8 => exact absurd (Except.ok.inj hw) Spot.noConfusion
  | case10 links place name rest entries hdir target hname hlast =>
    -- The path would end at a link.
    obtain ⟨rfl, rfl⟩ := Spot.found.inj (Except.ok.inj hw)
    exact absurd rfl (hx target)
  | case12 place name rest entries hdir target hname hlast links ih =>
    obtain ⟨left, hleft⟩ := ih hw
    rw [← at?_concat hdir] at hname
    refine ⟨left, fun last => ?_⟩
    rw [List.cons_append, walk_link hdir hname (fun h => hmore (List.append_eq_nil_iff.mp h.1).2),
      ← List.append_assoc, hleft]
  | case13 links place name rest entries hdir x' hlink hname ih =>
    obtain ⟨left, hleft⟩ := ih hw
    rw [← at?_concat hdir] at hname
    exact ⟨left, fun last => by rw [List.cons_append, walk_name hdir hname hlink, hleft]⟩
  | _ => exact absurd hw (fun h => nomatch h)

/-- What stands in front of a name leads to a directory. -/
theorem exists_directory_of_walk_concat {s : Spot}
    (hw : walk top followLast links place (cs ++ [.name name]) = .ok s) :
    ∃ q entries, walk top true links place cs = .ok (.found q (.directory entries)) := by
  -- The two walks go alike until the first one has nothing left. What it stands at then must be a
  -- directory, or the name behind could not be looked for.
  fun_induction walk top true links place cs with
  | case1 links place x hx =>
    rw [List.nil_append, walk, hx] at hw
    cases x with
    | directory entries => exact ⟨place, entries, rfl⟩
    | _ => exact absurd hw (fun h => nomatch h)
  | case2 links place hx =>
    rw [List.nil_append, walk, hx] at hw
    exact absurd hw (fun h => nomatch h)
  | case3 links place rest ih =>
    rw [List.cons_append, walk] at hw
    exact ih hw
  | case4 links place rest ih =>
    rw [List.cons_append, walk] at hw
    exact ih hw
  | case5 links place rest entries hdir ih =>
    rw [List.cons_append, walk_parent hdir (.inr ⟨entries, rfl⟩)] at hw
    exact ih hw
  | case6 links place rest hclosed ih =>
    rw [List.cons_append, walk_parent hclosed (.inl rfl)] at hw
    exact ih hw
  | case7 links place rest hdir hclosed =>
    rw [List.cons_append, walk] at hw
    split at hw
    · rename_i h
      exact absurd h (hdir _)
    · rename_i h
      exact absurd h hclosed
    · exact absurd hw (fun h => nomatch h)
  | case8 links place name' entries hdir hname =>
    rw [List.cons_append, walk, hdir] at hw
    simp [hname] at hw
  | case9 links place name' rest entries hdir hname hrest =>
    rw [List.cons_append, walk, hdir] at hw
    simp [hname] at hw
  | case10 links place name' rest entries hdir target hname hlast => exact absurd rfl hlast.2
  | case11 place name' rest entries hdir target hname hlast =>
    rw [List.cons_append, walk, hdir] at hw
    simp [hname] at hw
  | case12 place name' rest entries hdir target hname hlast links ih =>
    rw [← at?_concat hdir] at hname
    rw [List.cons_append, walk_link hdir hname (by simp), ← List.append_assoc] at hw
    exact ih hw
  | case13 links place name' rest entries hdir x hlink hname ih =>
    rw [← at?_concat hdir] at hname
    rw [List.cons_append, walk_name hdir hname hlink] at hw
    exact ih hw
  | case14 links place name' rest hclosed =>
    rw [List.cons_append, walk, hclosed] at hw
    exact absurd hw (fun h => nomatch h)
  | case15 links place name' rest hdir hclosed =>
    rw [List.cons_append, walk] at hw
    split at hw
    · rename_i h
      exact absurd h (hdir _)
    · rename_i h
      exact absurd h hclosed
    · exact absurd hw (fun h => nomatch h)

/-- A path that leads to something does so if a link at its end is not followed; it may then be the
link that it leads to. -/
theorem exists_found_of_walk_followed {x : Entry}
    (hw : walk top true links place cs = .ok (.found q x)) :
    ∃ q' x', walk top false links place cs = .ok (.found q' x') := by
  fun_induction walk top true links place cs with
  | case1 links place x' hx => exact ⟨place, x', by rw [walk, hx]⟩
  | case3 links place rest ih =>
    rw [walk]
    exact ih hw
  | case4 links place rest ih =>
    rw [walk]
    exact ih hw
  | case5 links place rest entries hdir ih =>
    rw [walk_parent hdir (.inr ⟨entries, rfl⟩)]
    exact ih hw
  | case6 links place rest hclosed ih =>
    rw [walk_parent hclosed (.inl rfl)]
    exact ih hw
  | case8 => exact absurd (Except.ok.inj hw) Spot.noConfusion
  | case10 links place name rest entries hdir target hname hlast => exact absurd rfl hlast.2
  | case12 place name rest entries hdir target hname hlast links ih =>
    rw [← at?_concat hdir] at hname
    -- A link is kept only as the last name; before that both walks go through it.
    by_cases hrest : rest = []
    · exact ⟨_, _, walk_lastLink hdir hname ⟨hrest, by decide⟩⟩
    · rw [walk_link hdir hname (fun h => hrest h.1)]
      exact ih hw
  | case13 links place name rest entries hdir x' hlink hname ih =>
    rw [← at?_concat hdir] at hname
    rw [walk_name hdir hname hlink]
    exact ih hw
  | _ => exact absurd hw (fun h => nomatch h)

/-- Names lead to a free place if the last of them is new to its directory. -/
theorem walk_names_free {names : Place}
    (hdir : top.at? (place ++ names) = some (.directory entries))
    (hname : entries.lookup name = none) :
    walk top followLast links place ((names ++ [name]).map .name)
      = .ok (.free (place ++ (names ++ [name]))) := by
  have hw : walk top followLast links place (names.map .name) = _ :=
    walk_names hdir fun _ => Entry.noConfusion
  obtain ⟨left, hleft⟩ := walk_append [.name name] (List.cons_ne_nil _ _) hw
    fun _ => Entry.noConfusion
  rw [List.map_append, List.map_singleton, hleft, ← List.append_assoc]
  exact walk_free hdir ((at?_concat hdir).trans hname)

/-! ### Writing -/

variable {t t' : FileTree} {p : Path} {c : Content}

/-- Putting a file or an empty directory where nothing or a file was changes that place alone. -/
theorem changed_put (hdir : q ≠ [] → ∃ entries, top.at? q.dropLast = some (.directory entries))
    (hold : ∀ x, top.at? q = some x → ∃ c, x = .file c)
    (hnew : ∀ name rest, new.at? (name :: rest) = none) (hlink : ∀ target, new ≠ .link target) :
    Changed top (put new top q) q new := by
  have hbelow : ∀ n r, top.at? (q ++ n :: r) = none := by
    intro n r
    rw [at?_append]
    cases hx : top.at? q with
    | none => rfl
    | some x =>
      obtain ⟨old, rfl⟩ := hold x hx
      rfl
  exact ⟨at?_put_self hdir, fun _ hq => at?_put_of_ne hdir hbelow hnew hq, hold, hlink⟩

/-- A change where a path leads to nothing. -/
theorem changed_free (new : Entry) (hnew : ∀ name rest, new.at? (name :: rest) = none)
    (hlink : ∀ target, new ≠ .link target)
    (hw : walk top followLast links place cs = .ok (.free q)) :
    Changed top (put new top q) q new := by
  obtain ⟨place, name, entries, rfl, hdir, hnone⟩ := exists_of_walk_free hw
  refine changed_put (fun _ => ⟨entries, by rw [List.dropLast_concat, hdir]⟩) ?_ hnew hlink
  intro x hx
  rw [hnone] at hx
  exact absurd hx (by simp)

/-- A change of a file. -/
theorem changed_file {old : Content} (hold : top.at? q = some (.file old)) (c : Content) :
    Changed top (put (.file c) top q) q (.file c) := by
  refine changed_put ?_ ?_ (fun _ _ => rfl) (fun _ => Entry.noConfusion)
  · intro hq
    rw [← List.dropLast_concat_getLast hq, at?_append] at hold
    obtain ⟨x, hx, hfile⟩ := Option.bind_eq_some_iff.mp hold
    obtain ⟨entries, _, rfl, -⟩ := exists_directory_of_at?_cons hfile
    exact ⟨entries, hx⟩
  · intro x hx
    rw [hold] at hx
    exact ⟨old, (Option.some.inj hx).symm⟩

variable {t t' : FileTree} {p : Path} {c : Content}

/-- A file is written where the path leads to nothing or to another file. -/
theorem of_write (h : t.write p c = .ok t') :
    ∃ place, t' = t.putAt place (.file c) ∧
      (t.locate true p = .ok (.free place) ∨
        ∃ old, t.locate true p = .ok (.found place (.file old))) := by
  cases hs : t.locate true p with
  | error f =>
    rw [write, hs] at h
    exact absurd h (fun h => nomatch h)
  | ok s =>
    rw [write, hs] at h
    -- Everything else that may stand there makes the write fail.
    match s, h with
    | .free place, h => exact ⟨place, (Except.ok.inj h).symm, .inl rfl⟩
    | .found place (.file (.bytes data)), h => exact ⟨place, (Except.ok.inj h).symm, .inr ⟨_, rfl⟩⟩
    | .found place (.file (.table rows)), h => exact ⟨place, (Except.ok.inj h).symm, .inr ⟨_, rfl⟩⟩

/-- A path leads somewhere if it is not empty and its components do. -/
theorem locate_eq_ok_iff {s : Spot} :
    t.locate followLast p = .ok s ↔
      p.text ≠ "" ∧ walk t.top followLast linkLimit t.here p.components = .ok s := by
  rw [locate]
  split
  · rename_i hp
    exact ⟨fun h => absurd h (fun h => nomatch h), fun h => absurd hp h.1⟩
  · rename_i hp
    exact ⟨fun h => ⟨hp, h⟩, And.right⟩

/-- The empty path has no components. -/
theorem text_ne_empty (hp : p.components ≠ []) : p.text ≠ "" := by
  intro hempty
  rw [Path.components, hempty, String.toList_empty] at hp
  exact hp rfl

/-- An absolute path of names leads to the entry at their place. -/
theorem locate_names {names : Place} {x : Entry} (hp : p.components = .root :: names.map .name)
    (hx : t.top.at? names = some x) (hlink : ∀ target, x ≠ .link target) :
    t.locate followLast p = .ok (.found names x) := by
  refine locate_eq_ok_iff.mpr ⟨text_ne_empty (hp ▸ List.cons_ne_nil _ _), ?_⟩
  rw [hp, walk]
  exact walk_names hx hlink

/-- An absolute path of names leads to a free place if the last of them is new to its directory. -/
theorem locate_names_free {names : Place} (hp : p.components = .root :: (names ++ [name]).map .name)
    (hdir : t.top.at? names = some (.directory entries)) (hname : entries.lookup name = none) :
    t.locate followLast p = .ok (.free (names ++ [name])) := by
  refine locate_eq_ok_iff.mpr ⟨text_ne_empty (hp ▸ List.cons_ne_nil _ _), ?_⟩
  rw [hp, walk]
  exact walk_names_free hdir hname

section Below

variable {dir : Path} {names : Place}
  (hdir : t.locate true dir = .ok (.found q (.directory entries)))

include hdir

/-- Names behind a path to a directory lead to the entry at their place below it. -/
theorem locate_below (followLast : Bool) {x : Entry}
    (hp : p.components = dir.components ++ names.map .name) (hne : names ≠ [])
    (hx : (directory entries).at? names = some x) (hlink : ∀ target, x ≠ .link target) :
    t.locate followLast p = .ok (.found (q ++ names) x) := by
  have hmore : names.map Path.Component.name ≠ [] := by rwa [ne_eq, List.map_eq_nil_iff]
  have hw := (locate_eq_ok_iff.mp hdir).2
  obtain ⟨left, hleft⟩ := walk_append _ hmore hw fun _ => Entry.noConfusion
  refine locate_eq_ok_iff.mpr ⟨text_ne_empty ?_, ?_⟩
  · rw [hp]
    exact List.append_ne_nil_of_right_ne_nil _ hmore
  · rw [hp, hleft]
    refine walk_names ?_ hlink
    rw [at?_append, at?_of_walk_found hw, Option.bind_some, hx]

/-- They lead to a free place if the last of them is new to its directory. -/
theorem locate_below_free (followLast : Bool) {others : List (EntryName × Entry)}
    (hp : p.components = dir.components ++ (names ++ [name]).map .name)
    (hothers : (directory entries).at? names = some (.directory others))
    (hname : others.lookup name = none) :
    t.locate followLast p = .ok (.free (q ++ (names ++ [name]))) := by
  have hmore : (names ++ [name]).map Path.Component.name ≠ [] := by simp
  have hw := (locate_eq_ok_iff.mp hdir).2
  -- Behind the directory the walk has some links left, how many does not matter for names.
  obtain ⟨left, hleft⟩ := walk_append _ hmore hw fun _ => Entry.noConfusion
  refine locate_eq_ok_iff.mpr ⟨text_ne_empty ?_, ?_⟩
  · rw [hp]
    exact List.append_ne_nil_of_right_ne_nil _ hmore
  · rw [hp, hleft]
    refine walk_names_free ?_ hname
    rw [at?_append, at?_of_walk_found hw, Option.bind_some, hothers]

end Below

/-- Behind a change each path leads where it led before, or to what was put there. The number of
links that it follows is the same. So one change at a time can be followed through a program that
makes many. -/
theorem locate_putAt (h : Changed t.top (put new t.top q) q new) {s : Spot}
    (hs : t.locate followLast p = .ok s) :
    ∃ s', (t.putAt q new).locate followLast p = .ok s' ∧ s.Moved (put new t.top q) new q s' := by
  obtain ⟨hp, hw⟩ := locate_eq_ok_iff.mp hs
  obtain ⟨s', hs', hmoved⟩ := walk_changed h hw
  exact ⟨s', locate_eq_ok_iff.mpr ⟨hp, hs'⟩, hmoved⟩

/-- A path that a file was written to leads to the file. -/
theorem locate_write (h : t.write p c = .ok t') :
    ∃ place, t'.locate true p = .ok (.found place (.file c)) := by
  obtain ⟨place, rfl, hfree | ⟨old, hfound⟩⟩ := of_write h
  · have hchanged := changed_free (.file c) (fun _ _ => rfl) (fun _ => Entry.noConfusion)
      (locate_eq_ok_iff.mp hfree).2
    obtain ⟨s, hs, hmoved⟩ := locate_putAt hchanged hfree
    rw [Spot.Moved, if_pos rfl] at hmoved
    exact ⟨place, hmoved ▸ hs⟩
  · have hchanged := changed_file (at?_of_walk_found (locate_eq_ok_iff.mp hfound).2) c
    obtain ⟨s, hs, x, hx, hmoved⟩ := locate_putAt hchanged hfound
    obtain rfl := Option.some.inj (hx.symm.trans hchanged.at_self)
    exact ⟨place, hmoved ▸ hs⟩

/-- Where there is an entry, the path leads to it. -/
theorem entry_eq_ok_iff {x : Entry} :
    t.entry p = .ok x ↔ ∃ place, t.locate true p = .ok (.found place x) := by
  rw [entry]
  constructor
  · intro h
    cases hs : t.locate true p with
    | error f =>
      rw [hs] at h
      exact absurd h (fun h => nomatch h)
    | ok s =>
      rw [hs] at h
      -- A free place is not an entry.
      match s, h with
      | .found place old, h => exact ⟨place, by rw [Except.ok.inj h]⟩
  · rintro ⟨place, hlocate⟩
    rw [hlocate]
    rfl

/-- Only a directory that can be read gives its entries. -/
theorem listing_eq_ok_iff {e : Entry} {entries : List (EntryName × Entry)} :
    e.listing = .ok entries ↔ e = .directory entries := by
  cases e <;> simp [Entry.listing]

/-- Only directories have entries that can be read. -/
theorem entries_eq_ok_iff {t : FileTree} {p : Path} {entries : List (EntryName × Entry)} :
    t.entries p = .ok entries ↔ t.entry p = .ok (.directory entries) := by
  unfold FileTree.entries
  cases t.entry p with
  | error fault => exact ⟨fun h => (nomatch h), fun h => (nomatch h)⟩
  | ok e =>
    show e.listing = .ok entries ↔ _
    rw [listing_eq_ok_iff, Except.ok.injEq]

/-- Where a file is read, the path leads to it. -/
theorem content_eq_ok_iff :
    t.content p = .ok c ↔ ∃ place, t.locate true p = .ok (.found place (.file c)) := by
  rw [← entry_eq_ok_iff, content]
  cases hentry : t.entry p with
  | error f => exact ⟨fun h => (nomatch h), fun h => (nomatch h)⟩
  | ok x =>
    cases x with
    | file old =>
      exact ⟨fun h => congrArg (fun c => Except.ok (Entry.file c)) (Except.ok.inj h),
        fun h => congrArg Except.ok (Entry.file.inj (Except.ok.inj h))⟩
    | _ => exact ⟨fun h => (nomatch h), fun h => (nomatch h)⟩

/-- An absolute path of names leads to the file at their place. -/
theorem content_names (names : Place) (hp : p.components = .root :: names.map .name)
    (hx : t.top.at? names = some (.file c)) : t.content p = .ok c :=
  content_eq_ok_iff.mpr ⟨names, locate_names hp hx fun _ => Entry.noConfusion⟩

/-- What was written to a path is read from it. -/
theorem content_write (h : t.write p c = .ok t') : t'.content p = .ok c :=
  content_eq_ok_iff.mpr (locate_write h)

/-- The text of a file is the one that was written, since every text is valid UTF-8. -/
theorem text_ofText (text : String) : (Content.ofText text).text = .ok text := by
  have hread : String.fromUTF8? text.toUTF8 = some text := dif_pos text.isValidUTF8
  rw [Content.ofText, Content.text, hread]

/-- A path that leads to something is not free. -/
theorem contains_of_found {x : Entry} (h : t.locate true p = .ok (.found q x)) :
    t.contains p = true := by
  rw [contains, entry, h]
  rfl

/-- A file is still read as it was after something was written to a path that does not lead to it.
How the two paths are spelled is no matter, only where they lead. -/
theorem content_write_of_ne {other : Path} {old : Content} (hp : t.content p ≠ .ok old)
    (h : t.write p c = .ok t') (hold : t.content other = .ok old) : t'.content other = .ok old := by
  obtain ⟨place, hlocate⟩ := content_eq_ok_iff.mp hold
  have hthere := at?_of_walk_found (locate_eq_ok_iff.mp hlocate).2
  -- Either way the tree is changed at a place that is not the one of the file.
  have hchanged : ∃ q, t' = t.putAt q (.file c) ∧
      Changed t.top (put (.file c) t.top q) q (.file c) ∧ place ≠ q := by
    obtain ⟨q, rfl, hfree | ⟨x, hfound⟩⟩ := of_write h
    · have hw := (locate_eq_ok_iff.mp hfree).2
      refine ⟨q, rfl, changed_free (.file c) (fun _ _ => rfl) (fun _ => Entry.noConfusion) hw, ?_⟩
      rintro rfl
      obtain ⟨_, _, _, -, -, hnone⟩ := exists_of_walk_free hw
      exact absurd (hthere.symm.trans hnone) (by simp)
    · have hx := at?_of_walk_found (locate_eq_ok_iff.mp hfound).2
      refine ⟨q, rfl, changed_file hx c, ?_⟩
      rintro rfl
      obtain rfl := Entry.file.inj (Option.some.inj (hthere.symm.trans hx))
      exact hp (content_eq_ok_iff.mpr ⟨place, hfound⟩)
  obtain ⟨q, rfl, hchanged, hne⟩ := hchanged
  obtain ⟨s, hs, x, hx, rfl⟩ := locate_putAt hchanged hlocate
  obtain ⟨x', hx', halike⟩ := hchanged.exists_alike hne hthere
  obtain rfl := Option.some.inj (hx.symm.trans hx')
  cases halike
  exact content_eq_ok_iff.mpr ⟨place, hs⟩

/-- A file can be written where a path leads to nothing. -/
theorem write_free (h : t.locate true p = .ok (.free q)) (c : Content) :
    t.write p c = .ok (t.putAt q (.file c)) := by
  rw [write, h]
  rfl

/-- A file that may be read can be overwritten. -/
theorem write_file {old : Content} (h : t.locate true p = .ok (.found q (.file old)))
    (hold : ∀ size, old ≠ .locked size) (c : Content) :
    t.write p c = .ok (t.putAt q (.file c)) := by
  rw [write, h]
  cases old with
  | locked size => exact absurd rfl (hold size)
  | _ => rfl

/-! ### Making directories -/

/-- A path leads where the path of its components leads; they differ in slashes and inner dots
only. -/
theorem locate_ofComponents (hp : p.components ≠ []) :
    t.locate followLast (.ofComponents p.components) = t.locate followLast p := by
  have hsame := Path.components_ofComponents p
  have hp' : (Path.ofComponents p.components).components ≠ [] := by
    rw [hsame]
    exact hp
  rw [locate, locate, if_neg (text_ne_empty hp), if_neg (text_ne_empty hp'), hsame]

/-- A directory can be made where a path leads to nothing. -/
theorem makeDirectory_free (h : t.locate false p = .ok (.free q)) :
    t.makeDirectory p = .ok (t.putAt q (.directory [])) := by
  rw [makeDirectory, h]
  rfl

/-- A directory cannot be made where something is, be it another directory. -/
theorem makeDirectory_found {x : Entry} (h : t.locate false p = .ok (.found q x)) :
    t.makeDirectory p = .error .occupied := by
  rw [makeDirectory, h]
  rfl

/-- A directory is made where nothing has its name. -/
theorem makeDirectories_free (hp : p.components ≠ []) (h : t.locate false p = .ok (.free q)) :
    t.makeDirectories p = .ok (t.putAt q (.directory [])) := by
  obtain ⟨c, before, hrev⟩ :=
    List.exists_cons_of_ne_nil (fun hnil => hp (List.reverse_eq_nil_iff.mp hnil))
  rw [makeDirectories, hrev, makeAll, ← hrev, List.reverse_reverse,
    makeDirectory_free (by rw [locate_ofComponents hp, h])]

/-- Where something is, nothing is made, and it has to be a directory. -/
theorem makeDirectories_found {x : Entry} (hp : p.components ≠ [])
    (h : t.locate false p = .ok (.found q x)) :
    t.makeDirectories p = if t.isDirectory p then .ok t else .error .occupied := by
  obtain ⟨c, before, hrev⟩ :=
    List.exists_cons_of_ne_nil (fun hnil => hp (List.reverse_eq_nil_iff.mp hnil))
  have hoccupied : t.makeDirectory (.ofComponents p.components) = .error .occupied :=
    makeDirectory_found (by rw [locate_ofComponents hp, h])
  have hsame : t.isDirectory (.ofComponents p.components) = t.isDirectory p := by
    rw [isDirectory, isDirectory, entry, entry, locate_ofComponents hp]
  rw [makeDirectories, hrev, makeAll, ← hrev, List.reverse_reverse, hoccupied]
  simp only [hsame]

/-- Nothing is made where a directory is. -/
theorem makeDirectories_directory (hp : p.components ≠ [])
    (h : t.locate true p = .ok (.found q (.directory entries))) : t.makeDirectories p = .ok t := by
  obtain ⟨htext, hw⟩ := locate_eq_ok_iff.mp h
  obtain ⟨q', x, hfound⟩ := exists_found_of_walk_followed hw
  rw [makeDirectories_found hp (locate_eq_ok_iff.mpr ⟨htext, hfound⟩), isDirectory, entry, h]
  rfl

end FileTree

end CodeAtlas
