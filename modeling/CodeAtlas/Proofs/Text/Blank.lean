import CodeAtlas.Text.Blank
import Mathlib.Data.List.Basic
import Mathlib.Data.List.TakeWhile

/-!
# `CodeAtlas.Proofs.Text.Blank`: what is left without white space

`unblank` deletes every blank of a text. The theorems say that it does so part by part
(`unblank_append`), that nothing is left exactly of a text of blanks
(`unblank_eq_nil_iff`), and that trimming changes nothing of what is left (`unblank_trim`).

What trimming leaves begins and ends with characters that are no blanks (`Trimmed`), and a text
that does so is left as it is (`Trimmed.trim_eq`). Only blanks stand before and behind what is left
(`TrimsTo`, `exists_trimsTo`). Wherever else a trimmed text
stands in the same text, it stands between the same blanks (`TrimsTo.exists_lead`,
`TrimsTo.exists_trail`).
-/

set_option autoImplicit false

namespace CodeAtlas.Text

/-- Dropping blanks works piece by piece, so a text can be compared with its chunks one at a
time. -/
theorem unblank_append (a b : List Char) : unblank (a ++ b) = unblank a ++ unblank b :=
  List.filter_append a b

/-- Nothing is left of a text exactly if all of it is blank. -/
theorem unblank_eq_nil_iff {cs : List Char} : unblank cs = [] ↔ ∀ c ∈ cs, isBlank c = true := by
  simp [unblank, List.filter_eq_nil_iff]

/-- The blanks at the front are deleted anyway. -/
theorem unblank_trimStart (cs : List Char) : unblank (trimStart cs) = unblank cs := by
  induction cs with
  | nil => rfl
  | cons c cs ih =>
    rw [trimStart, List.dropWhile_cons]
    cases hc : isBlank c with
    | true =>
      have hskip : unblank (c :: cs) = unblank cs := by simp [unblank, hc]
      rw [if_pos rfl, hskip]
      exact ih
    | false => rfl

/-- So are the blanks at the end. -/
theorem unblank_trimEnd (cs : List Char) : unblank (trimEnd cs) = unblank cs := by
  -- Deleting blanks commutes with reading backwards.
  have h := unblank_trimStart cs.reverse
  rw [trimStart] at h
  rw [trimEnd, unblank, List.filter_reverse]
  rw [unblank] at h
  rw [h, unblank, List.filter_reverse, List.reverse_reverse]
  rfl

/-- Trimming a text changes nothing of what is left without its blanks. -/
theorem unblank_trim (cs : List Char) : unblank (trim cs) = unblank cs := by
  rw [trim, unblank_trimEnd, unblank_trimStart]

/-! ### Trimmed texts -/

/-- Whether a text is not empty and neither begins nor ends with a blank. -/
structure Trimmed (cs : List Char) : Prop where
  ne_nil : cs ≠ []
  head : ∀ c ∈ cs.head?, isBlank c = false
  last : ∀ c ∈ cs.getLast?, isBlank c = false

instance (cs : List Char) : Decidable (Trimmed cs) :=
  have hiff : (cs ≠ [] ∧ cs.head?.all (!isBlank ·) = true ∧
      cs.getLast?.all (!isBlank ·) = true) ↔ Trimmed cs := by
    simp only [Option.all_eq_true, Bool.not_eq_true']
    exact ⟨fun ⟨hne, hhead, hlast⟩ => ⟨hne, hhead, hlast⟩, fun h => ⟨h.ne_nil, h.head, h.last⟩⟩
  decidable_of_iff _ hiff

/-- A trimmed text has a character that is not blank: its first. -/
theorem Trimmed.exists_mem {cs : List Char} (h : Trimmed cs) : ∃ c ∈ cs, isBlank c = false := by
  obtain ⟨c, rest, rfl⟩ := List.exists_cons_of_ne_nil h.ne_nil
  exact ⟨c, List.mem_cons_self, h.head c rfl⟩

/-- Two trimmed texts make a trimmed text. -/
theorem Trimmed.append {a b : List Char} (ha : Trimmed a) (hb : Trimmed b) : Trimmed (a ++ b) where
  ne_nil := List.append_ne_nil_of_left_ne_nil ha.ne_nil b
  head := by
    rw [List.head?_append_of_ne_nil _ ha.ne_nil]
    exact ha.head
  last := by
    rw [List.getLast?_append_of_ne_nil _ hb.ne_nil]
    exact hb.last

/-- There is nothing to take from the front of a text that does not begin with a blank. -/
theorem trimStart_eq_self {cs : List Char} (h : ∀ c ∈ cs.head?, isBlank c = false) :
    trimStart cs = cs := by
  cases cs with
  | nil => rfl
  | cons c rest => rw [trimStart, List.dropWhile_cons_of_neg (by simp [h c rfl])]

/-- A trimmed text stays as it is. -/
theorem Trimmed.trim_eq {cs : List Char} (h : Trimmed cs) : trim cs = cs := by
  have hlast : ∀ c ∈ cs.reverse.head?, isBlank c = false := by
    rw [List.head?_reverse]
    exact h.last
  have hend := trimStart_eq_self hlast
  rw [trimStart] at hend
  rw [trim, trimStart_eq_self h.head, trimEnd, hend, List.reverse_reverse]

/-- Only blanks are taken from the front of a text, and none is left there. -/
theorem exists_trimStart (cs : List Char) :
    ∃ lead, cs = lead ++ trimStart cs ∧ (∀ c ∈ lead, isBlank c = true) ∧
      ∀ c ∈ (trimStart cs).head?, isBlank c = false := by
  refine ⟨cs.takeWhile isBlank, List.takeWhile_append_dropWhile.symm,
    fun c hc => List.mem_takeWhile_imp hc, ?_⟩
  intro c hc
  have hstop := List.head?_dropWhile_not isBlank cs
  rw [show (cs.dropWhile isBlank).head? = some c from hc] at hstop
  exact hstop

/-- So it is with the end of a text, which is the front of the text read backwards. -/
theorem exists_trimEnd (cs : List Char) :
    ∃ trail, cs = trimEnd cs ++ trail ∧ (∀ c ∈ trail, isBlank c = true) ∧
      ∀ c ∈ (trimEnd cs).getLast?, isBlank c = false := by
  obtain ⟨lead, hsplit, hlead, hhead⟩ := exists_trimStart cs.reverse
  refine ⟨lead.reverse, ?_, fun c hc => hlead c (List.mem_reverse.mp hc), ?_⟩
  · rw [trimEnd, ← List.reverse_append]
    exact List.reverse_eq_iff.mp hsplit
  · rw [trimEnd, List.getLast?_reverse]
    exact hhead

/-- Whether a text is a trimmed text between blanks. -/
structure TrimsTo (cs lead text trail : List Char) : Prop where
  eq : cs = lead ++ (text ++ trail)
  lead_blank : ∀ c ∈ lead, isBlank c = true
  trail_blank : ∀ c ∈ trail, isBlank c = true
  trimmed : Trimmed text

/-- A text of which trimming leaves something is what it leaves, between blanks. -/
theorem exists_trimsTo {cs : List Char} (hne : trim cs ≠ []) :
    ∃ lead trail, TrimsTo cs lead (trim cs) trail ∧ trimStart cs = trim cs ++ trail := by
  obtain ⟨lead, hstart, hlead, hhead⟩ := exists_trimStart cs
  obtain ⟨trail, hend, htrail, hlast⟩ := exists_trimEnd (trimStart cs)
  change trimStart cs = trim cs ++ trail at hend
  refine ⟨lead, trail, ⟨?_, hlead, htrail, hne, ?_, hlast⟩, hend⟩
  · rw [← hend]
    exact hstart
  · -- What is left at the front stays there when the end is trimmed.
    obtain ⟨c, rest, hcons⟩ := List.exists_cons_of_ne_nil hne
    rw [hend, hcons] at hhead
    rw [hcons]
    exact hhead

/-- Trimming leaves nothing exactly of the texts that are all blank. -/
theorem trim_eq_nil_iff {cs : List Char} : trim cs = [] ↔ ∀ c ∈ cs, isBlank c = true := by
  rw [← unblank_eq_nil_iff, ← unblank_trim]
  constructor
  · intro h
    rw [h]
    rfl
  · intro h
    by_contra hne
    obtain ⟨lead, trail, htrims, -⟩ := exists_trimsTo hne
    obtain ⟨c, hc, hsolid⟩ := htrims.trimmed.exists_mem
    have hblank := unblank_eq_nil_iff.mp h c hc
    simp [hsolid] at hblank

namespace TrimsTo

variable {cs lead text trail front part behind : List Char}

/-- The blanks at the front of a text come before every trimmed part of it. -/
theorem exists_lead (h : TrimsTo cs lead text trail) (hpart : Trimmed part)
    (hcs : cs = front ++ (part ++ behind)) : ∃ m, front = lead ++ m := by
  have hsplit : lead ++ (text ++ trail) = front ++ (part ++ behind) := by rw [← h.eq, hcs]
  rcases List.append_eq_append_iff.mp hsplit with ⟨m, hm, -⟩ | ⟨m, hm, hrest⟩
  · exact ⟨m, hm⟩
  · cases m with
    | nil => exact ⟨[], by simpa using hm.symm⟩
    | cons c m =>
      -- What the blanks had behind the front would be the first characters of the part.
      obtain ⟨d, part, rfl⟩ := List.exists_cons_of_ne_nil hpart.ne_nil
      obtain ⟨rfl, -⟩ := List.cons.inj hrest
      have hblank := h.lead_blank d (by simp [hm])
      simp [hpart.head d rfl] at hblank

/-- The blanks at the end of a text come behind every trimmed part of it. -/
theorem exists_trail (h : TrimsTo cs lead text trail) (hpart : Trimmed part)
    (hcs : cs = front ++ (part ++ behind)) : ∃ m, behind = m ++ trail := by
  have hsplit : (lead ++ text) ++ trail = (front ++ part) ++ behind := by
    rw [List.append_assoc, List.append_assoc, ← h.eq, hcs]
  -- The text is split in two ways, and one of the two cuts comes first.
  rcases List.append_eq_append_iff.mp hsplit with ⟨m, hm, htrail⟩ | ⟨m, -, hm⟩
  · rcases List.eq_nil_or_concat m with rfl | ⟨m, c, rfl⟩
    · exact ⟨[], by simpa using htrail.symm⟩
    · -- What the blanks had before their end would be the last characters of the part.
      have hlast : part.getLast? = some c := by
        have hpart_last := List.getLast?_eq_some_getLast hpart.ne_nil
        have happend : (front ++ part).getLast? = some c := by simp [hm]
        rwa [List.getLast?_append, hpart_last, Option.some_or, ← hpart_last] at happend
      have hblank := h.trail_blank c (by simp [htrail])
      simp [hpart.last c hlast] at hblank
  · exact ⟨m, hm⟩

end TrimsTo

end CodeAtlas.Text
