import CodeAtlas.Proofs.Retrieval.Token
import CodeAtlas.Proofs.Text.Pieces

/-!
# `CodeAtlas.Proofs.Retrieval.Segments`: which names a query puts between backticks

The segments of a text stand between each two neighbouring backticks, so a backtick ends one
segment and begins the next. The search for names reads both of its backticks, and then the
segment behind a name is not looked at: a segment is chosen exactly if it is a file name and the
one before it was not chosen (`isChosen`).

The theorem is `keywordTokens_eq`. Where the pattern can be read it is read over a whole segment
with its two backticks (`mem_readings_keyword_iff`), so the search goes from backtick to backtick
(`searchFrom_keyword_name`, `searchFrom_keyword_other`) and leaves a shorter text behind each.
-/

set_option autoImplicit false

namespace CodeAtlas.Retrieval

open Text (Pattern Reading)

/-- The segments of a text: what stands between each two neighbouring backticks. -/
def segments (text : List Char) : List (List Char) :=
  (Text.pieces backtick text).tail.dropLast

/-- Whether the segment at a place is chosen: if it is a file name, and the segment before it was
not chosen. -/
def isChosen (segments : List (List Char)) : Nat → Bool
  | 0 => segments[0]?.any isFileName
  | j + 1 => segments[j + 1]?.any isFileName && !isChosen segments j

/-- The segments that are chosen, in their order. -/
def chosenSegments (segments : List (List Char)) : List (List Char) :=
  (segments.zipIdx.filter fun a => isChosen segments a.2).map Prod.fst

/-! ### Choosing from left to right -/

/-- The segments that are chosen from left to right; `taken` says whether the segment before them
was chosen. -/
def chooseFrom (taken : Bool) : List (List Char) → List (List Char)
  | [] => []
  | segment :: rest =>
    if isFileName segment && !taken then segment :: chooseFrom true rest else chooseFrom false rest

/-- A segment that is chosen uses up the next one. -/
theorem chooseFrom_cons_of_name {name : List Char} (hname : isFileName name = true)
    (rest : List (List Char)) :
    chooseFrom false (name :: rest) = name :: chooseFrom false rest.tail := by
  rw [chooseFrom, hname, Bool.not_false, Bool.and_self, if_pos rfl]
  cases rest with
  | nil => rfl
  | cons segment rest => simp [chooseFrom]

/-- A segment that is no file name is passed over, and the one behind it may be taken. -/
theorem chooseFrom_cons_of_other {segment : List Char} (h : isFileName segment = false)
    (rest : List (List Char)) : chooseFrom false (segment :: rest) = chooseFrom false rest := by
  rw [chooseFrom, h, Bool.false_and, if_neg Bool.false_ne_true]

/-- Only file names are chosen. -/
theorem isFileName_of_mem_chooseFrom {taken : Bool} {segments : List (List Char)} {name : List Char}
    (h : name ∈ chooseFrom taken segments) : isFileName name = true := by
  induction segments generalizing taken with
  | nil => exact absurd h List.not_mem_nil
  | cons segment rest ih =>
    rw [chooseFrom] at h
    split at h
    · rename_i hname
      rcases List.mem_cons.mp h with rfl | h
      · exact (Bool.and_eq_true_iff.mp hname).1
      · exact ih h
    · exact ih h

/-- Whether a place behind others is chosen depends on the one before it only. -/
theorem chooseFrom_eq (front rest : List (List Char)) {taken : Bool}
    (htaken : taken = (front.length != 0 && isChosen (front ++ rest) (front.length - 1))) :
    chooseFrom taken rest =
      ((rest.zipIdx front.length).filter fun a => isChosen (front ++ rest) a.2).map Prod.fst := by
  induction rest generalizing front taken with
  | nil => rfl
  | cons segment rest ih =>
    have hchosen : isChosen (front ++ segment :: rest) front.length
        = (isFileName segment && !taken) := by
      rw [htaken]
      rcases List.eq_nil_or_concat front with rfl | ⟨front, last, rfl⟩
      · simp [isChosen]
      · simp [isChosen]
    -- For the rest, this segment is the last one in front, and its choice is what was taken.
    have hrest : ∀ taken' : Bool, isChosen (front ++ segment :: rest) front.length = taken' →
        chooseFrom taken' rest = ((rest.zipIdx (front.length + 1)).filter fun a =>
          isChosen (front ++ segment :: rest) a.2).map Prod.fst := by
      intro taken' htaken'
      have hnext := @ih (front ++ [segment]) taken' (by simp [htaken'])
      rwa [List.append_assoc, List.singleton_append, List.length_append, List.length_singleton]
        at hnext
    rw [List.zipIdx_cons, List.filter_cons, hchosen, chooseFrom]
    cases hthis : isFileName segment && !taken with
    | true => rw [if_pos rfl, if_pos rfl, List.map_cons, hrest true (hchosen.trans hthis)]
    | false =>
      rw [if_neg Bool.false_ne_true, if_neg Bool.false_ne_true,
        hrest false (hchosen.trans hthis)]

/-- The choice starts with nothing taken. The search walks with a flag, so this is what its
induction is started from. -/
theorem chosenSegments_eq (segments : List (List Char)) :
    chosenSegments segments = chooseFrom false segments :=
  (chooseFrom_eq [] segments rfl).symm

/-! ### Searching from backtick to backtick -/

section Search

variable {before : Option Char} {text name rest : List Char} {r : Reading}

/-- The quotes of the pattern read one backtick and nothing else. -/
theorem mem_readings_backtick_iff :
    r ∈ (Pattern.oneOf [[backtick]]).readings before text ↔
      ∃ rest, text = backtick :: rest ∧ r = ⟨some backtick, rest, none⟩ := by
  simp [Pattern.mem_readings_oneOf_iff]

/-- The pattern of a query is read over each file name with a backtick at its front and one at its
end, and keeps what stands between them. -/
theorem mem_readings_keyword_iff :
    r ∈ keywordPattern.pattern.readings before text ↔
      ∃ name rest, text = backtick :: (name ++ backtick :: rest) ∧ backtick ∉ name ∧
        isFileName name = true ∧ r = ⟨some backtick, rest, some name⟩ := by
  -- The pattern lets a name have anything but a backtick, and that holds of its ending too.
  have hending : ∀ e ∈ codeExtensions, ∀ c ∈ '.' :: e, (c != backtick) = true := by
    intro e he c hc
    rw [bne_iff_ne]
    rintro rfl
    exact absurd (isPathChar_of_mem_ending he hc) (by decide)
  have hmembers : ∀ {name : List Char},
      (∀ c ∈ name, (c != backtick) = true) ↔ backtick ∉ name := by
    intro name
    simp only [bne_iff_ne]
    exact ⟨fun h hmem => h _ hmem rfl, fun h c hc heq => h (heq ▸ hc)⟩
  simp only [keywordPattern, Pattern.mem_readings_seq_iff, mem_readings_backtick_iff,
    mem_readings_name_iff hending, hmembers]
  constructor
  · rintro ⟨_, ⟨_, rfl, rfl⟩, _,
      ⟨_, ⟨name, _, rfl, hfree, hname, rfl⟩, _, ⟨rest, rfl, rfl⟩, rfl⟩, rfl⟩
    exact ⟨name, rest, rfl, hfree, hname, rfl⟩
  · rintro ⟨name, rest, rfl, hfree, hname, rfl⟩
    exact ⟨_, ⟨_, rfl, rfl⟩, _,
      ⟨_, ⟨name, _, rfl, hfree, hname, rfl⟩, _, ⟨rest, rfl, rfl⟩, rfl⟩, rfl⟩

/-- Nothing is read but at a backtick. -/
theorem searchFrom_keyword_pass (hfree : backtick ∉ name) :
    keywordPattern.searchFrom before 0 (name ++ rest)
      = keywordPattern.searchFrom (name.getLast?.or before) 0 rest := by
  refine Text.SearchPattern.searchFrom_pass ?_
  rintro a b rfl hb
  obtain ⟨c, b, rfl⟩ := List.exists_cons_of_ne_nil hb
  refine List.eq_nil_iff_forall_not_mem.mpr fun r hr => ?_
  obtain ⟨_, _, htext, -⟩ := mem_readings_keyword_iff.mp hr
  obtain ⟨rfl, -⟩ := List.cons.inj htext
  exact hfree (by simp)

/-- At a backtick that a file name and another backtick follow, the name is read. -/
theorem searchFrom_keyword_name (hfree : backtick ∉ name) (hname : isFileName name = true) :
    keywordPattern.searchFrom before 0 (backtick :: (name ++ backtick :: rest))
      = ⟨some backtick, rest, some name⟩ :: keywordPattern.searchFrom (some backtick) 0 rest := by
  have hmem : ⟨some backtick, rest, some name⟩ ∈
      keywordPattern.pattern.readings before (backtick :: (name ++ backtick :: rest)) :=
    mem_readings_keyword_iff.mpr ⟨name, rest, rfl, hfree, hname, rfl⟩
  obtain ⟨r, others, hreadings⟩ := List.exists_cons_of_ne_nil (List.ne_nil_of_mem hmem)
  have hr : r ∈ keywordPattern.pattern.readings before
      (backtick :: (name ++ backtick :: rest)) := by
    rw [hreadings]
    exact List.mem_cons_self
  -- All ways to read it are the same one, since the next backtick ends the name.
  obtain ⟨name', rest', htext, hfree', -, rfl⟩ := mem_readings_keyword_iff.mp hr
  obtain ⟨rfl, rfl⟩ := (Text.append_sep_inj_of_left hfree hfree').mp (List.cons.inj htext).2
  exact Text.SearchPattern.searchFrom_of_readings hreadings

/-- At a backtick that no file name with another backtick follows, nothing is read. -/
theorem searchFrom_keyword_other
    (h : ∀ name behind, rest = name ++ backtick :: behind → backtick ∉ name →
      isFileName name = false) :
    keywordPattern.searchFrom before 0 (backtick :: rest)
      = keywordPattern.searchFrom (some backtick) 0 rest := by
  refine Text.SearchPattern.searchFrom_next (List.eq_nil_iff_forall_not_mem.mpr fun r hr => ?_)
  obtain ⟨name, behind, htext, hfree, hname, -⟩ := mem_readings_keyword_iff.mp hr
  rw [h name behind (List.cons.inj htext).2 hfree] at hname
  exact absurd hname Bool.false_ne_true

/-- Behind the first backtick every piece but the last is a segment. -/
theorem segments_append (hfree : backtick ∉ name) (rest : List Char) :
    segments (name ++ backtick :: rest) = (Text.pieces backtick rest).dropLast := by
  rw [segments, Text.pieces_append_sep, Text.pieces_of_not_mem hfree]
  rfl

/-- The text up to the first backtick is the first segment. The last segment has no backtick behind
it, which is why it is dropped. -/
theorem dropLast_pieces_append (hfree : backtick ∉ name) (rest : List Char) :
    (Text.pieces backtick (name ++ backtick :: rest)).dropLast
      = name :: (Text.pieces backtick rest).dropLast := by
  rw [Text.pieces_append_sep, Text.pieces_of_not_mem hfree, List.singleton_append,
    List.dropLast_cons_of_ne_nil (Text.pieces_ne_nil backtick rest)]

/-- The search finds the segments that are chosen from left to right. -/
theorem searchFrom_eq_chooseFrom (before : Option Char) (text : List Char) :
    (keywordPattern.searchFrom before 0 text).filterMap Reading.kept
      = chooseFrom false (segments text) := by
  -- Induction on the length: behind a backtick, or behind two of them, a shorter text is left.
  induction hn : text.length using Nat.strongRecOn generalizing before text with
  | ind n ih =>
    subst hn
    have hall : ∀ {before : Option Char} {text : List Char}, backtick ∉ text →
        keywordPattern.searchFrom before 0 text = [] := by
      intro before text hfree
      rw [← List.append_nil text, searchFrom_keyword_pass hfree]
      rfl
    by_cases hmem : backtick ∈ text
    · obtain ⟨front, rest, rfl, hfront⟩ := List.eq_append_cons_of_mem hmem
      rw [searchFrom_keyword_pass hfront, segments_append hfront]
      by_cases hrest : backtick ∈ rest
      · obtain ⟨name, behind, rfl, hfree⟩ := List.eq_append_cons_of_mem hrest
        rw [dropLast_pieces_append hfree]
        cases hname : isFileName name with
        | true =>
          have hbehind := ih behind.length (by simp; omega) (some backtick) behind rfl
          rw [searchFrom_keyword_name hfree hname, chooseFrom_cons_of_name hname]
          show name :: (keywordPattern.searchFrom (some backtick) 0 behind).filterMap _ = _
          rw [hbehind, segments, List.tail_dropLast]
        | false =>
          have hother : ∀ name' behind', name ++ backtick :: behind = name' ++ backtick :: behind' →
              backtick ∉ name' → isFileName name' = false := by
            intro name' behind' heq hfree'
            rw [← ((Text.append_sep_inj_of_left hfree hfree').mp heq).1, hname]
          rw [searchFrom_keyword_other hother, chooseFrom_cons_of_other hname,
            ih _ (by simp; omega) _ _ rfl, segments_append hfree]
      · have hother : ∀ name behind, rest = name ++ backtick :: behind → backtick ∉ name →
            isFileName name = false := by
          rintro name behind rfl
          exact absurd (by simp) hrest
        rw [searchFrom_keyword_other hother, hall hrest, Text.pieces_of_not_mem hrest]
        rfl
    · rw [hall hmem, segments, Text.pieces_of_not_mem hmem]
      rfl

end Search

/-- **The tokens of a query are the segments that are chosen**, without any `./` at the front, each
once and in the order of the text. A segment is chosen exactly if it is a file name and the one
before it was not chosen. -/
theorem keywordTokens_eq (text : String) :
    keywordTokens text
      = ((chosenSegments (segments text.toList)).map withoutHere).eraseDups := by
  rw [keywordTokens, tokens, Text.SearchPattern.search, searchFrom_eq_chooseFrom,
    filter_withoutHere fun name hname => isFileName_of_mem_chooseFrom hname, chosenSegments_eq]

/-- The second name is not chosen, because its first backtick ends the name before it. -/
example : keywordTokens "`a.js`b.js`././c.js` or `d.md`, and `a.js` with `e.rs" =
    ["a.js".toList, "c.js".toList] := by decide +kernel

end CodeAtlas.Retrieval
