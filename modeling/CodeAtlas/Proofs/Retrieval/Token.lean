import CodeAtlas.Proofs.Text.Pattern
import CodeAtlas.Retrieval.Token
import Mathlib.Data.List.TakeWhile

/-!
# `CodeAtlas.Proofs.Retrieval.Token`: which names are found in free text

The search for names in an issue tries a pattern at every place of the text, with all ways to
read it in their order. `issueTokens_eq` says what comes out of this without any search: of
each maximal run of path characters, the longest start that is a file name at the end of a word.

The first way to read the pattern is the longest one (`pairwise_readings_issue`), because the
extensions have no point in them, and no two of them end at the end of one word. Inside a run
nothing is left to be found then. A name that began later would give a longer one together with
all that stands before it in the run, and so would a name behind the one that was found
(`isFileName_append_left`).
-/

set_option autoImplicit false

namespace CodeAtlas.Retrieval

open Text (Pattern Reading)

/-! ### File names and the ends of words -/

/-- Whether a text is a name, a point, and an extension of code. -/
def isFileName (text : List Char) : Bool :=
  codeExtensions.any fun e => Text.endsWith text ('.' :: e) && e.length + 1 < text.length

/-- Whether a word may end before a text. -/
def wordEndsBefore : List Char → Bool
  | [] => true
  | c :: _ => !Text.isWordChar c

/-- The test on the end of a name says that something stands before a dot and one of the
extensions. -/
theorem isFileName_iff {text : List Char} :
    isFileName text = true ↔
      ∃ stem, stem ≠ [] ∧ ∃ e ∈ codeExtensions, text = stem ++ '.' :: e := by
  simp only [isFileName, Text.endsWith, List.any_eq_true, Bool.and_eq_true,
    List.isSuffixOf_iff_suffix, decide_eq_true_eq]
  constructor
  · -- The test compares lengths where the statement has a stem that is not empty.
    rintro ⟨e, he, ⟨stem, rfl⟩, hlength⟩
    refine ⟨stem, ?_, e, he, rfl⟩
    rintro rfl
    simp at hlength
  · rintro ⟨stem, hstem, e, he, rfl⟩
    have hpos := List.length_pos_iff.mpr hstem
    refine ⟨e, he, List.suffix_append _ _, ?_⟩
    simp only [List.length_append, List.length_cons]
    omega

/-- With anything before it a file name is still one. -/
theorem isFileName_append_left {name : List Char} (h : isFileName name = true)
    (front : List Char) : isFileName (front ++ name) = true := by
  obtain ⟨stem, hstem, e, he, rfl⟩ := isFileName_iff.mp h
  exact isFileName_iff.mpr ⟨front ++ stem, by simp [hstem], e, he, by simp⟩

/-- Extensions are made of letters, which belong to paths and to words and are no points. -/
theorem extension_chars {e : List Char} (he : e ∈ codeExtensions) :
    e ≠ [] ∧ ∀ c ∈ e, isPathChar c = true ∧ Text.isWordChar c = true ∧ c ≠ '.' ∧ c ≠ '/' := by
  -- The test looks at the characters of the extensions only; deciding the statement as it
  -- stands would look at every character there is.
  have hall : codeExtensions.all (fun e => !e.isEmpty && e.all fun c =>
      isPathChar c && Text.isWordChar c && c != '.' && c != '/') = true := by decide
  have hthis := List.all_eq_true.mp hall e he
  simpa [and_assoc] using hthis

/-- Every extension ends in a word character, so the boundary behind a name only depends on the
character after it. -/
theorem inWord_getLast?_extension {e : List Char} (he : e ∈ codeExtensions) :
    Pattern.inWord e.getLast? = true := by
  obtain ⟨hne, hchars⟩ := extension_chars he
  rw [List.getLast?_eq_some_getLast hne]
  exact (hchars _ (List.getLast_mem hne)).2.1

/-- A file name ends with the last character of its extension. -/
theorem getLast?_fileName {e : List Char} (he : e ∈ codeExtensions) (stem : List Char) :
    (stem ++ '.' :: e).getLast? = e.getLast? := by
  rw [List.getLast?_append, List.getLast?_cons,
    List.getLast?_eq_some_getLast (extension_chars he).1]
  rfl

/-- A dot and an extension are characters a path may have: a name lies in one run of them. -/
theorem isPathChar_of_mem_ending {e : List Char} (he : e ∈ codeExtensions) {c : Char}
    (hc : c ∈ '.' :: e) : isPathChar c = true := by
  rcases List.mem_cons.mp hc with rfl | hc
  · rfl
  · exact ((extension_chars he).2 c hc).1

/-- No word goes on at the end of the text or before a character that is in none. -/
theorem wordEndsBefore_eq (text : List Char) :
    wordEndsBefore text = !Pattern.inWord text.head? := by
  cases text <;> rfl

/-- A text begins with at most one word that ends there. -/
theorem eq_of_wordEndsBefore {a b rest rest' : List Char} (h : a ++ rest = b ++ rest')
    (ha : ∀ c ∈ a, Text.isWordChar c = true) (hb : ∀ c ∈ b, Text.isWordChar c = true)
    (hrest : wordEndsBefore rest = true) (hrest' : wordEndsBefore rest' = true) : a = b := by
  rcases List.append_eq_append_iff.mp h with ⟨m, rfl, rfl⟩ | ⟨m, rfl, rfl⟩
  · cases m with
    | nil => simp
    | cons c m => simp [wordEndsBefore, hb c (by simp)] at hrest
  · cases m with
    | nil => simp
    | cons c m => simp [wordEndsBefore, ha c (by simp)] at hrest'

/-! ### Reading a name -/

section Readings

variable {isMember : Char → Bool} {before : Option Char} {text : List Char} {r : Reading}

/-- What the end of the pattern reads, in terms of the text. -/
theorem mem_readings_extension_iff :
    r ∈ (Pattern.seq (.oneOf [['.']]) (.oneOf codeExtensions)).readings before text ↔
      ∃ e ∈ codeExtensions, ∃ rest, text = '.' :: (e ++ rest) ∧ r = ⟨e.getLast?, rest, none⟩ := by
  simp only [Pattern.mem_readings_seq_iff, Pattern.mem_readings_oneOf_iff, List.mem_singleton]
  constructor
  · rintro ⟨_, ⟨_, rfl, _, rfl, rfl⟩, _, ⟨e, he, rest, hrest, rfl⟩, rfl⟩
    refine ⟨e, he, rest, congrArg ('.' :: ·) hrest, ?_⟩
    rw [List.getLast?_eq_some_getLast (extension_chars he).1]
    rfl
  · rintro ⟨e, he, rest, rfl, rfl⟩
    refine ⟨_, ⟨_, rfl, e ++ rest, rfl, rfl⟩, _, ⟨e, he, rest, rfl, rfl⟩, ?_⟩
    rw [List.getLast?_eq_some_getLast (extension_chars he).1]
    rfl

/-- What the pattern of a name reads: a stem of its characters, a dot and an extension. The
repetition inside leaves the split open, so several readings may start at one place. -/
theorem mem_readings_namePattern_iff :
    r ∈ (namePattern isMember).readings before text ↔
      ∃ stem, stem ≠ [] ∧ (∀ c ∈ stem, isMember c = true) ∧ ∃ e ∈ codeExtensions, ∃ rest,
        text = stem ++ '.' :: (e ++ rest) ∧ r = ⟨e.getLast?, rest, none⟩ := by
  rw [namePattern, Pattern.mem_readings_seq_iff]
  simp only [mem_readings_extension_iff]
  constructor
  · rintro ⟨a, ha, _, ⟨e, he, rest, hrest, rfl⟩, rfl⟩
    obtain ⟨stem, behind, rfl, hstem, hmembers, rfl⟩ := Pattern.mem_runs_iff.mp ha
    exact ⟨stem, hstem, hmembers, e, he, rest, congrArg (stem ++ ·) hrest, rfl⟩
  · rintro ⟨stem, hstem, hmembers, e, he, rest, rfl, rfl⟩
    exact ⟨_, Pattern.mem_runs_iff.mpr ⟨stem, _, rfl, hstem, hmembers, rfl⟩, _,
      ⟨e, he, rest, rfl, rfl⟩, rfl⟩

/-- A name that is kept is a file name of the characters of its class, as long as points and
extensions are made of these too. -/
theorem mem_readings_name_iff (hending : ∀ e ∈ codeExtensions, ∀ c ∈ '.' :: e, isMember c = true) :
    r ∈ (Pattern.group (namePattern isMember)).readings before text ↔
      ∃ name rest, text = name ++ rest ∧ (∀ c ∈ name, isMember c = true) ∧
        isFileName name = true ∧ r = ⟨name.getLast?, rest, some name⟩ := by
  -- Inside of the group the pattern reads a stem and an extension; together they are the name.
  simp only [Pattern.mem_readings_group_iff, mem_readings_namePattern_iff]
  constructor
  · rintro ⟨_, ⟨stem, hstem, hmembers, e, he, rest, rfl, rfl⟩, rfl⟩
    have htext : stem ++ '.' :: (e ++ rest) = (stem ++ '.' :: e) ++ rest := by simp
    rw [Pattern.kept_group htext, ← getLast?_fileName he stem]
    refine ⟨stem ++ '.' :: e, rest, htext, ?_, isFileName_iff.mpr ⟨stem, hstem, e, he, rfl⟩, rfl⟩
    intro c hc
    rcases List.mem_append.mp hc with hc | hc
    · exact hmembers c hc
    · exact hending e he c hc
  · rintro ⟨name, rest, rfl, hmembers, hname, rfl⟩
    obtain ⟨stem, hstem, e, he, rfl⟩ := isFileName_iff.mp hname
    have htext : (stem ++ '.' :: e) ++ rest = stem ++ '.' :: (e ++ rest) := by simp
    refine ⟨⟨e.getLast?, rest, none⟩, ⟨stem, hstem,
      fun c hc => hmembers c (List.mem_append_left _ hc), e, he, rest, htext, rfl⟩, ?_⟩
    rw [Pattern.kept_group rfl, getLast?_fileName he]

/-- The pattern of an issue is read over each file name that is made of path characters and at
whose end a word ends. -/
theorem mem_readings_issue_iff :
    r ∈ issuePattern.pattern.readings before text ↔
      ∃ name rest, text = name ++ rest ∧ (∀ c ∈ name, isPathChar c = true) ∧
        isFileName name = true ∧ wordEndsBefore rest = true ∧
        r = ⟨name.getLast?, rest, some name⟩ := by
  rw [issuePattern, Pattern.mem_readings_seq_iff]
  simp only [mem_readings_name_iff fun _ he _ => isPathChar_of_mem_ending he,
    Pattern.mem_readings_wordBoundary_iff]
  -- An extension ends with a word character, so there is a boundary behind it exactly if the
  -- next character is none.
  have hboundary : ∀ {name rest : List Char}, isFileName name = true →
      (Pattern.inWord name.getLast? ≠ Pattern.inWord rest.head? ↔ wordEndsBefore rest = true) := by
    intro name rest hname
    obtain ⟨stem, -, e, he, rfl⟩ := isFileName_iff.mp hname
    rw [getLast?_fileName he, inWord_getLast?_extension he, wordEndsBefore_eq]
    simp
  constructor
  · rintro ⟨_, ⟨name, rest, rfl, hchars, hname, rfl⟩, _, ⟨hend, rfl⟩, rfl⟩
    exact ⟨name, rest, rfl, hchars, hname, (hboundary hname).mp hend, rfl⟩
  · rintro ⟨name, rest, rfl, hchars, hname, hend, rfl⟩
    exact ⟨_, ⟨name, rest, rfl, hchars, hname, rfl⟩, _, ⟨(hboundary hname).mpr hend, rfl⟩, rfl⟩

/-- A longer stem leaves less behind its extension: its point comes after the whole extension
that stands behind the shorter stem. -/
theorem length_lt_of_longer_stem {a b d e x y : List Char}
    (h : a ++ '.' :: (d ++ x) = b ++ '.' :: (e ++ y)) (he : '.' ∉ e)
    (hlength : b.length < a.length) : x.length < y.length := by
  -- What the longer stem has behind the shorter one begins with a point.
  obtain ⟨m, rfl⟩ : ∃ m, a = b ++ '.' :: m := by
    rcases List.append_eq_append_iff.mp h with ⟨m, rfl, -⟩ | ⟨m, rfl, hm⟩
    · rw [List.length_append] at hlength
      omega
    · cases m with
      | nil => simp at hlength
      | cons c m => exact ⟨m, by rw [(List.cons.inj hm).1]⟩
  rw [List.append_assoc, List.append_cancel_left_eq, List.cons_append, List.cons.injEq] at h
  rcases List.append_eq_append_iff.mp h.2 with ⟨n, rfl, hrest⟩ | ⟨n, rfl, rfl⟩
  · cases n with
    | nil =>
      have hsame := congrArg List.length hrest
      simp only [List.length_cons, List.length_append, List.nil_append] at hsame
      omega
    | cons p n =>
      rw [List.cons_append, List.cons.injEq] at hrest
      exact absurd (hrest.1 ▸ List.mem_append_right m List.mem_cons_self) he
  · simp only [List.length_append, List.length_cons]
    omega

/-- The ways to read a name at whose end a word ends: one that is tried earlier leaves no more. A
search takes the first way, which is therefore the longest name. -/
theorem pairwise_readings_namePattern (isMember : Char → Bool) (before : Option Char)
    (text : List Char) :
    ((namePattern isMember).readings before text).Pairwise fun a b =>
      wordEndsBefore a.rest = true → wordEndsBefore b.rest = true →
        a.rest.length ≤ b.rest.length := by
  rw [namePattern, Pattern.readings, List.pairwise_flatMap]
  constructor
  · -- Behind one stem only one extension ends with a word.
    intro a ha
    rw [List.pairwise_map]
    refine List.pairwise_of_forall_mem_list ?_
    intro x hx y hy hxend hyend
    obtain ⟨d, hd, rest, htext, rfl⟩ := mem_readings_extension_iff.mp hx
    obtain ⟨e, he, rest', htext', rfl⟩ := mem_readings_extension_iff.mp hy
    have heq : d ++ rest = e ++ rest' := (List.cons.inj (htext.symm.trans htext')).2
    have hde : d = e := eq_of_wordEndsBefore heq (fun c hc => ((extension_chars hd).2 c hc).2.1)
      (fun c hc => ((extension_chars he).2 c hc).2.1) hxend hyend
    subst hde
    rw [List.append_cancel_left heq]
  · -- Longer stems come first.
    refine List.Pairwise.imp_of_mem ?_ (Pattern.pairwise_runs isMember text)
    intro a b ha hb hlt x hx y hy _ _
    obtain ⟨x, hx', rfl⟩ := List.mem_map.mp hx
    obtain ⟨y, hy', rfl⟩ := List.mem_map.mp hy
    obtain ⟨d, hd, rest, htext, rfl⟩ := mem_readings_extension_iff.mp hx'
    obtain ⟨e, he, rest', htext', rfl⟩ := mem_readings_extension_iff.mp hy'
    obtain ⟨longer, _, hlonger, -, -, rfl⟩ := Pattern.mem_runs_iff.mp ha
    obtain ⟨shorter, _, hshorter, -, -, rfl⟩ := Pattern.mem_runs_iff.mp hb
    have hsplit := hlonger.symm.trans hshorter
    have hsizes := congrArg List.length hsplit
    simp only at htext htext' hlt
    rw [htext, htext'] at hsplit
    rw [List.length_append, List.length_append] at hsizes
    refine Nat.le_of_lt (length_lt_of_longer_stem hsplit ?_ (by omega))
    exact fun hmem => ((extension_chars he).2 '.' hmem).2.2.1 rfl

/-- No name begins with a character that is in no path. -/
theorem readings_issue_of_outside {c : Char} (hc : isPathChar c = false) {rest : List Char} :
    issuePattern.pattern.readings before (c :: rest) = [] := by
  refine List.eq_nil_iff_forall_not_mem.mpr fun r hr => ?_
  obtain ⟨name, behind, htext, hchars, hname, -, -⟩ := mem_readings_issue_iff.mp hr
  obtain ⟨stem, hstem, e, -, rfl⟩ := isFileName_iff.mp hname
  obtain ⟨d, stem, rfl⟩ := List.exists_cons_of_ne_nil hstem
  obtain ⟨rfl, -⟩ := List.cons.inj htext
  have hin := hchars c List.mem_cons_self
  rw [hc] at hin
  exact absurd hin (by simp)

/-- The ways to read the pattern of an issue: one that is tried earlier leaves no more. -/
theorem pairwise_readings_issue (before : Option Char) (text : List Char) :
    (issuePattern.pattern.readings before text).Pairwise fun a b =>
      a.rest.length ≤ b.rest.length := by
  have hend : ∀ x ∈ issuePattern.pattern.readings before text, wordEndsBefore x.rest = true := by
    intro x hx
    obtain ⟨name, rest, -, -, -, hend, rfl⟩ := mem_readings_issue_iff.mp hx
    exact hend
  -- The boundary behind a name reads nothing.
  have hrest : ∀ (a x : Reading),
      x ∈ (Pattern.wordBoundary.readings a.before a.rest).map
        (fun s => { s with kept := a.kept.or s.kept }) → x.rest = a.rest := by
    intro a x hx
    obtain ⟨b, hb, rfl⟩ := List.mem_map.mp hx
    obtain ⟨-, rfl⟩ := Pattern.mem_readings_wordBoundary_iff.mp hb
    rfl
  rw [issuePattern, Pattern.readings] at hend ⊢
  rw [List.pairwise_flatMap]
  constructor
  · intro a ha
    refine List.pairwise_of_forall_mem_list ?_
    intro x hx y hy
    rw [hrest a x hx, hrest a y hy]
  · rw [Pattern.readings, List.pairwise_map]
    refine (pairwise_readings_namePattern isPathChar before text).imp_of_mem ?_
    intro a b ha hb hle x hx y hy
    have hxend := hend x (List.mem_flatMap.mpr ⟨_, List.mem_map_of_mem ha, hx⟩)
    have hyend := hend y (List.mem_flatMap.mpr ⟨_, List.mem_map_of_mem hb, hy⟩)
    rw [hrest _ x hx] at hxend ⊢
    rw [hrest _ y hy] at hyend ⊢
    exact hle hxend hyend

end Readings

/-! ### The longest name of a run -/

/-- Whether a start of a run is a file name at the end of a word; `behind` is the text behind
the run. -/
def IsNameOf (run behind name : List Char) : Prop :=
  ∃ rest, run = name ++ rest ∧ isFileName name = true ∧ wordEndsBefore (rest ++ behind) = true

/-- The longest start of a run, of at most `n` characters, that is a file name at the end of a
word. -/
def longestName? (run behind : List Char) : Nat → Option (List Char)
  | 0 => none
  | n + 1 =>
    if isFileName (run.take (n + 1)) && wordEndsBefore (run.drop (n + 1) ++ behind) then
      some (run.take (n + 1))
    else longestName? run behind n

variable {run behind name : List Char}

/-- A prefix of a run is tried by its length, which is how the longest one is looked for. -/
theorem isNameOf_take {n : Nat} :
    IsNameOf run behind (run.take n) ↔
      (isFileName (run.take n) && wordEndsBefore (run.drop n ++ behind)) = true := by
  rw [Bool.and_eq_true]
  constructor
  · rintro ⟨rest, hrun, hname, hend⟩
    have hrest : run.drop n = rest := by
      have hsplit := (List.take_append_drop n run).trans hrun
      exact List.append_cancel_left hsplit
    rw [hrest]
    exact ⟨hname, hend⟩
  · rintro ⟨hname, hend⟩
    exact ⟨run.drop n, (List.take_append_drop n run).symm, hname, hend⟩

/-- A name is not empty, so a search that takes one goes forward. -/
theorem IsNameOf.length_pos (h : IsNameOf run behind name) : 0 < name.length := by
  obtain ⟨rest, -, hname, -⟩ := h
  obtain ⟨stem, -, e, -, rfl⟩ := isFileName_iff.mp hname
  simp only [List.length_append, List.length_cons]
  omega

/-- It lies in its run. -/
theorem IsNameOf.length_le (h : IsNameOf run behind name) : name.length ≤ run.length := by
  obtain ⟨rest, rfl, -, -⟩ := h
  rw [List.length_append]
  omega

/-- It is the prefix of its length, so the longest one is unique. -/
theorem IsNameOf.eq_take (h : IsNameOf run behind name) : name = run.take name.length := by
  obtain ⟨rest, rfl, -, -⟩ := h
  exact List.take_left.symm

/-- No name is as long as a start that is none. -/
theorem IsNameOf.length_ne {n : Nat} (h : IsNameOf run behind name)
    (hnone : ¬(isFileName (run.take n) && wordEndsBefore (run.drop n ++ behind)) = true) :
    name.length ≠ n := by
  intro hlength
  have htake := h.eq_take
  rw [hlength] at htake
  rw [htake] at h
  exact hnone (isNameOf_take.mp h)

/-- None is found exactly if none is that short. -/
theorem longestName?_eq_none_iff {n : Nat} :
    longestName? run behind n = none ↔ ∀ name, IsNameOf run behind name → n < name.length := by
  -- The lengths are tried downwards, so the induction is on the longest one that is tried.
  induction n with
  | zero => simpa [longestName?] using fun name h => IsNameOf.length_pos h
  | succ n ih =>
    rw [longestName?]
    split
    · rename_i hfound
      simp only [reduceCtorEq, false_iff, not_forall]
      refine ⟨_, isNameOf_take.mpr hfound, ?_⟩
      rw [List.length_take]
      omega
    · rename_i hnone
      rw [ih]
      refine forall_congr' fun name => forall_congr' fun hname => ?_
      have hne := hname.length_ne hnone
      omega

/-- What is found is a name, and no name that is as short as required is longer. The first reading
of the pattern is described alike, so that the two can be compared. -/
theorem longestName?_spec {n : Nat} (h : longestName? run behind n = some name) :
    IsNameOf run behind name ∧
      ∀ other, IsNameOf run behind other → other.length ≤ n → other.length ≤ name.length := by
  -- As in `longestName?_eq_none_iff`. A length that is passed over is the length of no name.
  induction n with
  | zero => simp [longestName?] at h
  | succ n ih =>
    rw [longestName?] at h
    split at h
    · rename_i hfound
      obtain rfl := Option.some.inj h
      refine ⟨isNameOf_take.mpr hfound, ?_⟩
      rintro other ⟨rest, rfl, -, -⟩ hlength
      rw [List.length_take, List.length_append]
      omega
    · rename_i hnone
      obtain ⟨hname, hlongest⟩ := ih h
      refine ⟨hname, fun other hother hlength => hlongest other hother ?_⟩
      have hne := hother.length_ne hnone
      omega

/-! ### A search goes from run to run -/

section Search

variable {before : Option Char} (hrun : ∀ c ∈ run, isPathChar c = true)
  (hbehind : ∀ c ∈ behind.head?, isPathChar c = false)

include hrun hbehind

/-- At the beginning of a run the pattern is read over the names of the run. -/
theorem mem_readings_run_iff {r : Reading} :
    r ∈ issuePattern.pattern.readings before (run ++ behind) ↔
      ∃ name rest, run = name ++ rest ∧ isFileName name = true ∧
        wordEndsBefore (rest ++ behind) = true ∧
        r = ⟨name.getLast?, rest ++ behind, some name⟩ := by
  rw [mem_readings_issue_iff]
  constructor
  · rintro ⟨name, rest, htext, hchars, hname, hend, rfl⟩
    -- A name that went beyond the run would hold the character that ends the run.
    rcases List.append_eq_append_iff.mp htext with ⟨m, rfl, hm⟩ | ⟨m, rfl, rfl⟩
    · cases m with
      | nil =>
        rw [List.append_nil] at hname hchars ⊢
        rw [List.nil_append] at hm
        subst hm
        exact ⟨run, [], by simp, hname, hend, rfl⟩
      | cons c m =>
        rw [hm] at hbehind
        have hin := hchars c (by simp)
        rw [hbehind c rfl] at hin
        exact absurd hin (by simp)
    · exact ⟨name, m, rfl, hname, hend, rfl⟩
  · rintro ⟨name, rest, rfl, hname, hend, rfl⟩
    exact ⟨name, rest ++ behind, by simp, fun c hc => hrun c (List.mem_append_left rest hc),
      hname, hend, rfl⟩

/-- A part of a run in which no name of the run ends is passed over, up to the end of the run:
a name that began there would be one of the run together with all that stands before it. -/
theorem searchFrom_pass_run {front passed : List Char} (hsplit : run = front ++ passed)
    (hnone : ∀ name, IsNameOf run behind name → name.length ≤ front.length) :
    issuePattern.searchFrom before 0 (passed ++ behind) =
      issuePattern.searchFrom (passed.getLast?.or before) 0 behind := by
  refine Text.SearchPattern.searchFrom_pass ?_
  rintro a b rfl hb
  refine List.eq_nil_iff_forall_not_mem.mpr fun r hr => ?_
  have hchars : ∀ c ∈ b, isPathChar c = true := fun c hc => hrun c (by simp [hsplit, hc])
  obtain ⟨name, rest, rfl, hname, hend, -⟩ := (mem_readings_run_iff hchars hbehind).mp hr
  -- A name that begins later ends at the same place as this one, which begins with the run.
  have hwhole : IsNameOf run behind (front ++ a ++ name) :=
    ⟨rest, by simp [hsplit], isFileName_append_left hname _, hend⟩
  have hshort := hnone _ hwhole
  have hpos : 0 < name.length := IsNameOf.length_pos ⟨[], (List.append_nil _).symm, hname, hend⟩
  simp only [List.length_append] at hshort
  omega

/-- The way that is preferred is the longest name. -/
theorem exists_readings_run {rest : List Char} (hsplit : run = name ++ rest)
    (hname : isFileName name = true) (hend : wordEndsBefore (rest ++ behind) = true)
    (hmax : ∀ other, IsNameOf run behind other → other.length ≤ name.length) :
    ∃ others, issuePattern.pattern.readings before (run ++ behind) =
      ⟨name.getLast?, rest ++ behind, some name⟩ :: others := by
  have hmem : ⟨name.getLast?, rest ++ behind, some name⟩ ∈
      issuePattern.pattern.readings before (run ++ behind) :=
    (mem_readings_run_iff hrun hbehind).mpr ⟨name, rest, hsplit, hname, hend, rfl⟩
  obtain ⟨r, others, hreadings⟩ := List.exists_cons_of_ne_nil (List.ne_nil_of_mem hmem)
  have hr : r ∈ issuePattern.pattern.readings before (run ++ behind) := by
    rw [hreadings]
    exact List.mem_cons_self
  obtain ⟨other, rest', hsplit', hother, hend', rfl⟩ := (mem_readings_run_iff hrun hbehind).mp hr
  -- The first one leaves no more than the longest name does, and is not longer either.
  have hless : (rest' ++ behind).length ≤ (rest ++ behind).length := by
    have hpairwise := pairwise_readings_issue before (run ++ behind)
    rw [hreadings] at hpairwise hmem
    rcases List.mem_cons.mp hmem with heq | hmem
    · have hrest : rest ++ behind = rest' ++ behind := congrArg Reading.rest heq
      rw [hrest]
    · exact (List.pairwise_cons.mp hpairwise).1 _ hmem
  have hlonger := hmax other ⟨rest', hsplit', hother, hend'⟩
  have hsizes := congrArg List.length (hsplit.symm.trans hsplit')
  simp only [List.length_append] at hless hsizes
  have hlength : name.length = other.length := by omega
  obtain ⟨rfl, rfl⟩ := List.append_inj (hsplit.symm.trans hsplit') hlength
  exact ⟨others, hreadings⟩

/-- In a run the search finds the longest name, and nothing else. -/
theorem searchFrom_run :
    (issuePattern.searchFrom before 0 (run ++ behind)).filterMap Reading.kept =
      (longestName? run behind run.length).toList ++
        (issuePattern.searchFrom (run.getLast?.or before) 0 behind).filterMap Reading.kept := by
  -- With no name in it the run is passed over. Otherwise the search takes the longest one, goes on
  -- behind it, and finds no other name to end in the rest.
  cases hlongest : longestName? run behind run.length with
  | none =>
    rw [searchFrom_pass_run hrun hbehind (List.nil_append run).symm]
    · rfl
    · intro name hname
      have hlong := longestName?_eq_none_iff.mp hlongest name hname
      have hshort := hname.length_le
      omega
  | some name =>
    obtain ⟨⟨rest, hsplit, hname, hend⟩, hmax⟩ := longestName?_spec hlongest
    replace hmax : ∀ other, IsNameOf run behind other → other.length ≤ name.length :=
      fun other hother => hmax other hother hother.length_le
    obtain ⟨others, hreadings⟩ : ∃ others, issuePattern.pattern.readings before (run ++ behind) =
        ⟨name.getLast?, rest ++ behind, some name⟩ :: others :=
      exists_readings_run hrun hbehind hsplit hname hend hmax
    have hpassed : issuePattern.searchFrom name.getLast? 0 (rest ++ behind) =
        issuePattern.searchFrom (rest.getLast?.or name.getLast?) 0 behind :=
      searchFrom_pass_run hrun hbehind hsplit hmax
    have hlast : run.getLast?.or before = rest.getLast?.or name.getLast? := by
      have hpos : 0 < name.length := IsNameOf.length_pos ⟨rest, hsplit, hname, hend⟩
      rw [hsplit, List.getLast?_append, Option.or_assoc,
        List.getLast?_eq_some_getLast (List.ne_nil_of_length_pos hpos)]
      rfl
    rw [Text.SearchPattern.searchFrom_of_readings hreadings]
    show name :: (issuePattern.searchFrom name.getLast? 0 (rest ++ behind)).filterMap Reading.kept =
      name :: _
    rw [hpassed, hlast]
    rfl

end Search

/-- The maximal runs of path characters in a text, each with the text behind it; `run` is the
run that has been read, its last character first. -/
def runs (run : List Char) : List Char → List (List Char × List Char)
  | [] => [(run.reverse, [])]
  | c :: rest =>
    if isPathChar c then runs (c :: run) rest else (run.reverse, c :: rest) :: runs [] rest

/-- Path characters extend the run that is open. -/
theorem runs_append {part : List Char} (hpart : ∀ c ∈ part, isPathChar c = true)
    (run rest : List Char) : runs run (part ++ rest) = runs (part.reverse ++ run) rest := by
  induction part generalizing run with
  | nil => rfl
  | cons c part ih =>
    rw [List.cons_append, runs, if_pos (hpart c List.mem_cons_self),
      ih fun x hx => hpart x (List.mem_cons_of_mem c hx)]
    simp

/-- The names in a text: the longest one of each run that has any. -/
def longestNames (text : List Char) : List (List Char) :=
  (runs [] text).filterMap fun r => longestName? r.1 r.2 r.1.length

/-- A run is followed by the runs behind the character that ends it. -/
theorem longestNames_run {run : List Char} (hrun : ∀ c ∈ run, isPathChar c = true) {c : Char}
    (hc : isPathChar c = false) (rest : List Char) :
    longestNames (run ++ c :: rest) =
      (longestName? run (c :: rest) run.length).toList ++ longestNames rest := by
  rw [longestNames, runs_append hrun, runs, if_neg (by simp [hc]), List.append_nil,
    List.reverse_reverse, List.filterMap_cons]
  cases longestName? run (c :: rest) run.length <;> rfl

/-- A text begins with a run, which may be empty; no path character stands behind it. -/
theorem exists_run (text : List Char) :
    ∃ run behind, text = run ++ behind ∧ (∀ c ∈ run, isPathChar c = true) ∧
      ∀ c ∈ behind.head?, isPathChar c = false := by
  refine ⟨text.takeWhile isPathChar, text.dropWhile isPathChar,
    List.takeWhile_append_dropWhile.symm, fun c hc => List.mem_takeWhile_imp hc, ?_⟩
  intro c hc
  have hstop := List.head?_dropWhile_not isPathChar text
  rw [Option.mem_def.mp hc] at hstop
  exact hstop

/-- Between two runs nothing is found, and in each of them the longest name. -/
theorem searchFrom_eq_longestNames (before : Option Char) (text : List Char) :
    (issuePattern.searchFrom before 0 text).filterMap Reading.kept = longestNames text := by
  -- Induction on the length: behind a run and the character that ends it, a shorter text is left.
  induction hn : text.length using Nat.strongRecOn generalizing before text with
  | ind n ih =>
    subst hn
    obtain ⟨run, behind, rfl, hrun, hbehind⟩ := exists_run text
    rw [searchFrom_run hrun hbehind]
    cases behind with
    | nil =>
      rw [longestNames, runs_append hrun, runs, List.append_nil, List.reverse_reverse,
        List.filterMap_cons]
      cases longestName? run [] run.length <;> rfl
    | cons c rest =>
      have hc : isPathChar c = false := hbehind c rfl
      rw [longestNames_run hrun hc]
      rw [Text.SearchPattern.searchFrom_next (readings_issue_of_outside hc)]
      congr 1
      refine ih rest.length ?_ _ rest rfl
      simp only [List.length_append, List.length_cons]
      omega

/-- A text that does not end with a slash is not used up by `./` at its front. -/
theorem withoutHere_ne_nil {text : List Char} (hne : text ≠ []) (hlast : text.getLast? ≠ some '/') :
    withoutHere text ≠ [] := by
  fun_induction withoutHere text with
  | case1 rest ih =>
    -- Behind `./` something is left, because the text would end with its slash otherwise.
    cases rest with
    | nil => simp at hlast
    | cons c rest => exact ih (by simp) (by simpa [List.getLast?_cons] using hlast)
  | case2 name _ => exact hne

/-- Something is left of each file name, since it ends with its extension. -/
theorem filter_withoutHere {names : List (List Char)} (h : ∀ name ∈ names, isFileName name = true) :
    (names.map withoutHere).filter (fun t => !t.isEmpty) = names.map withoutHere := by
  refine List.filter_eq_self.mpr fun token htoken => ?_
  obtain ⟨name, hname, rfl⟩ := List.mem_map.mp htoken
  obtain ⟨stem, -, e, he, rfl⟩ := isFileName_iff.mp (h name hname)
  have hleft : withoutHere (stem ++ '.' :: e) ≠ [] := by
    refine withoutHere_ne_nil (by simp) fun hslash => ?_
    rw [getLast?_fileName he] at hslash
    exact ((extension_chars he).2 '/' (List.mem_of_getLast? hslash)).2.2.2 rfl
  simpa using hleft

/-- Whatever is chosen in a text is a file name. -/
theorem isFileName_of_mem_longestNames {text name : List Char} (h : name ∈ longestNames text) :
    isFileName name = true := by
  obtain ⟨r, -, hname⟩ := List.mem_filterMap.mp h
  obtain ⟨⟨_, -, hfile, -⟩, -⟩ := longestName?_spec hname
  exact hfile

/-- **The tokens of an issue are the longest names of its runs**, one of each run that has any,
without any `./` at the front, each once and in the order of the text. -/
theorem issueTokens_eq (text : String) :
    issueTokens text = ((longestNames text.toList).map withoutHere).eraseDups := by
  rw [issueTokens, tokens, Text.SearchPattern.search, searchFrom_eq_longestNames]
  rw [filter_withoutHere fun name hname => isFileName_of_mem_longestNames hname]

/-- A name goes on behind a dash if an extension comes later, and it does not end inside a word. -/
example : issueTokens "x.js-y.jsx-z and a.cppé, see ././b.h, or b.h" =
    ["x.js-y.jsx".toList, "b.h".toList] := by decide +kernel

end CodeAtlas.Retrieval
