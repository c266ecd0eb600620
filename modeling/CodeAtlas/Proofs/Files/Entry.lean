import CodeAtlas.Files.Tree
import Mathlib.Data.Option.Basic

/-!
# `CodeAtlas.Proofs.Files.Entry`: entries at the places of a tree

The theorems:

* `at?_put_self`: an entry that is put at a place is there afterwards.
* `at?_put_append`: what is put below an entry is put into that entry.
* `at?_put_of_ne`: elsewhere the entries are alike (`Alike`): the same as before, or both of them
  directories.

`Changed` sums both up for an entry that is put where nothing or a file was, which is all that
writing a file or making a directory does.
-/

set_option autoImplicit false

namespace CodeAtlas

namespace Entry

variable {e new : Entry} {name other : EntryName} {entries : List (EntryName × Entry)}

/-! ### Entries at places -/

/-- Nothing below an entry is the entry itself, whatever it is. The definition says so case by
case. -/
theorem at?_nil (e : Entry) : e.at? [] = some e := by
  cases e <;> rfl

/-- Looking below a directory is looking its first name up and going on there. -/
theorem at?_directory_cons (entries : List (EntryName × Entry)) (name : EntryName) (rest : Place) :
    (directory entries).at? (name :: rest) = (entries.lookup name).bind fun e => e.at? rest := rfl

/-- What lies below an entry lies in a directory. -/
theorem exists_directory_of_at?_cons {rest : Place} {x : Entry}
    (h : e.at? (name :: rest) = some x) :
    ∃ entries old, e = .directory entries ∧ entries.lookup name = some old ∧
      old.at? rest = some x := by
  cases e with
  | directory entries =>
    obtain ⟨old, hold, hx⟩ := Option.bind_eq_some_iff.mp h
    exact ⟨entries, old, rfl, hold, hx⟩
  | _ => exact absurd h (by simp [at?])

/-- A place may be looked up in two parts. -/
theorem at?_append (e : Entry) (a b : Place) :
    e.at? (a ++ b) = (e.at? a).bind fun x => x.at? b := by
  induction a generalizing e with
  | nil => rw [List.nil_append, at?_nil, Option.bind_some]
  | cons name a ih =>
    cases e with
    | directory entries =>
      rw [List.cons_append, at?_directory_cons, at?_directory_cons, Option.bind_assoc]
      exact congrArg _ (funext fun x => ih x)
    | _ => rfl

/-- The entries of a directory are found one name below it. -/
theorem at?_concat {place : Place} (h : e.at? place = some (.directory entries)) :
    e.at? (place ++ [name]) = entries.lookup name := by
  rw [at?_append, h, Option.bind_some, at?_directory_cons]
  cases entries.lookup name with
  | none => rfl
  | some x => exact at?_nil x

/-! ### Entries put at places -/

/-- What was put under a name is found there, whether it took the place of another entry or not. -/
theorem lookup_putName_self (name : EntryName) (new : Entry) (entries : List (EntryName × Entry)) :
    (putName name new entries).lookup name = some new := by
  induction entries with
  | nil => simp [putName]
  | cons m entries ih =>
    obtain ⟨n, old⟩ := m
    rw [putName]
    split
    · rename_i hn
      rw [hn, List.lookup_cons_self]
    · rename_i hn
      rw [List.lookup_cons, beq_false_of_ne (Ne.symm hn)]
      exact ih

/-- Putting something under one name leaves what the other names have. -/
theorem lookup_putName_of_ne (h : other ≠ name) (new : Entry) (entries : List (EntryName × Entry)) :
    (putName name new entries).lookup other = entries.lookup other := by
  induction entries with
  | nil => simp [putName, h]
  | cons m entries ih =>
    obtain ⟨n, old⟩ := m
    rw [putName]
    split
    · rename_i hn
      rw [List.lookup_cons, List.lookup_cons, hn, beq_false_of_ne h]
    · rw [List.lookup_cons, List.lookup_cons, ih]

/-- Whether two entries are the same, or both of them directories. -/
inductive Alike : Entry → Entry → Prop
  | refl (e : Entry) : Alike e e
  | directories (as bs : List (EntryName × Entry)) : Alike (.directory as) (.directory bs)

/-- Where nothing changes, an entry is alike to itself. This is the case of all places beside the
one that is written. -/
theorem rel_alike_refl (o : Option Entry) : Option.Rel Alike o o := by
  cases o with
  | none => exact .none
  | some e => exact .some (.refl e)

/-- An entry is found where it was put, if the directory of the place was there. -/
theorem at?_put_self {place : Place}
    (hdir : place ≠ [] → ∃ entries, e.at? place.dropLast = some (.directory entries)) :
    (put new e place).at? place = some new := by
  induction place generalizing e with
  | nil => rw [put, at?_nil]
  | cons name rest ih =>
    obtain ⟨entries, hentries⟩ := hdir (List.cons_ne_nil _ _)
    -- One name and several differ: below the last name there is the new entry, and above it the
    -- directory that was there.
    cases rest with
    | nil =>
      obtain rfl : e = .directory entries := by simpa [at?_nil] using hentries
      rw [put, at?_directory_cons, lookup_putName_self, Option.bind_some, put]
      exact at?_nil new
    | cons next rest =>
      obtain ⟨others, old, rfl, hold, hrest⟩ := exists_directory_of_at?_cons hentries
      rw [put, at?_directory_cons, lookup_putName_self, Option.bind_some, hold]
      exact ih fun _ => ⟨entries, hrest⟩

/-- Nothing but the entry that is put changes, if nothing is below it before and afterwards. The
directories on the way stay directories. -/
theorem at?_put_of_ne {place : Place}
    (hdir : place ≠ [] → ∃ entries, e.at? place.dropLast = some (.directory entries))
    (hold : ∀ name rest, e.at? (place ++ name :: rest) = none)
    (hnew : ∀ name rest, new.at? (name :: rest) = none) {q : Place} (hq : q ≠ place) :
    Option.Rel Alike (e.at? q) ((put new e place).at? q) := by
  induction place generalizing e q with
  | nil =>
    obtain ⟨name, rest, rfl⟩ := List.exists_cons_of_ne_nil hq
    have hbefore := hold name rest
    rw [List.nil_append] at hbefore
    rw [put, hbefore, hnew]
    exact .none
  | cons name rest ih =>
    obtain ⟨entries, hentries⟩ := hdir (List.cons_ne_nil _ _)
    obtain ⟨others, rfl⟩ : ∃ others, e = .directory others := by
      cases rest with
      | nil => exact ⟨entries, by simpa [at?_nil] using hentries⟩
      | cons next rest =>
        obtain ⟨others, old, h, -⟩ := exists_directory_of_at?_cons hentries
        exact ⟨others, h⟩
    rw [put]
    cases q with
    | nil => exact .some (.directories _ _)
    | cons other q =>
      rw [at?_directory_cons, at?_directory_cons]
      by_cases hother : other = name
      · subst hother
        rw [lookup_putName_self, Option.bind_some]
        cases rest with
        | nil =>
          -- Below the name there is nothing, before or afterwards.
          obtain ⟨n, r, rfl⟩ := List.exists_cons_of_ne_nil (show q ≠ [] by rintro rfl; exact hq rfl)
          have hbefore := hold n r
          rw [List.singleton_append, at?_directory_cons] at hbefore
          rw [hbefore, put, hnew]
          exact .none
        | cons next rest =>
          obtain ⟨_, old, heq, hlookup, hrest⟩ := exists_directory_of_at?_cons hentries
          obtain rfl := Entry.directory.inj heq
          rw [hlookup, Option.bind_some]
          refine ih (fun _ => ⟨entries, hrest⟩) ?_ (fun h => hq (congrArg _ h))
          intro n r
          have hbefore := hold n r
          rwa [List.cons_append, at?_directory_cons, hlookup] at hbefore
      · rw [lookup_putName_of_ne hother]
        exact rel_alike_refl _

/-- What is put below an entry changes that entry alone. -/
theorem at?_put_append {x : Entry} {place : Place} (hx : e.at? place = some x) (rest : Place) :
    (put new e (place ++ rest)).at? place = some (put new x rest) := by
  induction place generalizing e with
  | nil =>
    obtain rfl := Option.some.inj ((at?_nil e).symm.trans hx)
    rw [List.nil_append, at?_nil]
  | cons name place ih =>
    obtain ⟨entries, old, rfl, hold, hplace⟩ := exists_directory_of_at?_cons hx
    rw [List.cons_append, put, at?_directory_cons, lookup_putName_self, Option.bind_some, hold]
    exact ih hplace

/-- How a tree is changed by an entry that is put at a place where nothing or a file was: it is
there, and elsewhere the entries are alike. -/
structure Changed (top top' : Entry) (place : Place) (new : Entry) : Prop where
  at_self : top'.at? place = some new
  at_other : ∀ q ≠ place, Option.Rel Alike (top.at? q) (top'.at? q)
  old_file : ∀ x, top.at? place = some x → ∃ c, x = .file c
  new_ne_link : ∀ target, new ≠ .link target

namespace Changed

variable {top top' : Entry} {place q : Place}

/-- What is no file is somewhere else than the change. -/
theorem ne_of_at? (h : Changed top top' place new) {x : Entry} (hx : top.at? q = some x)
    (hfile : ∀ c, x ≠ .file c) : q ≠ place := by
  rintro rfl
  obtain ⟨c, hc⟩ := h.old_file x hx
  exact hfile c hc

/-- Where something is there is something alike, but for the place of the change. -/
theorem exists_alike (h : Changed top top' place new) (hq : q ≠ place) {x : Entry}
    (hx : top.at? q = some x) : ∃ x', top'.at? q = some x' ∧ Alike x x' := by
  have hrel := h.at_other q hq
  rw [hx] at hrel
  generalize top'.at? q = o at hrel
  cases hrel with
  | some halike => exact ⟨_, rfl, halike⟩

/-- A directory stays a directory if something is put elsewhere, though its entries may differ. This
keeps the walk to other places going. -/
theorem exists_directory (h : Changed top top' place new)
    (hx : top.at? q = some (.directory entries)) :
    ∃ others, top'.at? q = some (.directory others) := by
  obtain ⟨x', hx', halike⟩ := h.exists_alike (h.ne_of_at? hx fun _ => Entry.noConfusion) hx
  cases halike with
  | refl => exact ⟨entries, hx'⟩
  | directories _ others => exact ⟨others, hx'⟩

/-- What is neither a file nor a directory stays as it is, links above all, which a walk would
otherwise follow elsewhere. -/
theorem at?_eq (h : Changed top top' place new) {x : Entry} (hx : top.at? q = some x)
    (hfile : ∀ c, x ≠ .file c) (hdirectory : ∀ entries, x ≠ .directory entries) :
    top'.at? q = some x := by
  obtain ⟨x', hx', halike⟩ := h.exists_alike (h.ne_of_at? hx hfile) hx
  cases halike with
  | refl => exact hx'
  | directories as _ => exact absurd rfl (hdirectory as)

/-- Where something is there is still something, and it becomes no link. -/
theorem exists_at? (h : Changed top top' place new) {x : Entry} (hx : top.at? q = some x) :
    ∃ x', top'.at? q = some x' ∧ ((∀ target, x ≠ .link target) → ∀ target, x' ≠ .link target) := by
  by_cases hq : q = place
  · subst hq
    exact ⟨new, h.at_self, fun _ => h.new_ne_link⟩
  · obtain ⟨x', hx', halike⟩ := h.exists_alike hq hx
    cases halike with
    | refl => exact ⟨x, hx', id⟩
    | directories _ others => exact ⟨_, hx', fun _ _ => Entry.noConfusion⟩

end Changed

end Entry

end CodeAtlas
