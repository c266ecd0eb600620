import CodeAtlas.Text.Pattern
import Mathlib.Data.List.Basic

/-!
# `CodeAtlas.Proofs.Text.Pattern`: what patterns read and what a search finds

Every reading goes over a first part of the text and leaves the rest (`exists_over`). Which
parts these are is said for each kind of pattern (`mem_runs_iff` and the like), and so is the
order in which a run of characters is tried, the longest first (`pairwise_runs`).

A search is described by what it does at one place. Where nothing can be read it goes on
(`searchFrom_pass`, for a whole part of the text at once), and where something can be read it
takes the first reading and goes on behind it (`searchFrom_of_readings`).
-/

set_option autoImplicit false

namespace CodeAtlas.Text

/-- The text behind a given beginning is the rest. -/
theorem afterStart?_eq_some_iff {text start rest : List Char} :
    afterStart? text start = some rest ↔ text = start ++ rest := by
  -- Character by character, as the function compares them.
  induction start generalizing text with
  | nil => simp [afterStart?]
  | cons s start ih =>
    cases text with
    | nil => simp [afterStart?]
    | cons c text =>
      rw [afterStart?, List.cons_append, List.cons.injEq]
      split
      · rename_i hc
        simp [ih, hc]
      · rename_i hc
        simp [hc]

/-- Whether a reading of a text goes over a given first part of it. -/
structure Reading.Over (r : Reading) (before : Option Char) (text read : List Char) : Prop where
  text_eq : text = read ++ r.rest
  before_eq : r.before = read.getLast?.or before

namespace Pattern

variable {isMember : Char → Bool} {before : Option Char} {text : List Char} {r : Reading}

/-! ### Runs of characters -/

/-- The readings of a run stand before the other ones. -/
theorem runs_eq_append (others : List Reading) :
    runs isMember others text = runs isMember [] text ++ others := by
  induction text generalizing others with
  | nil => rfl
  | cons c rest ih =>
    rw [runs, runs]
    split
    · rw [ih, ih [_], List.append_assoc, List.singleton_append]
    · rfl

/-- The longer runs come first, as a greedy repetition tries them. -/
theorem runs_cons_of_member {c : Char} (hc : isMember c = true) (rest : List Char) :
    runs isMember [] (c :: rest) = runs isMember [] rest ++ [⟨some c, rest, none⟩] := by
  rw [runs, if_pos hc, runs_eq_append]

/-- A repetition of at least one member reads nothing here. -/
theorem runs_cons_of_not_member {c : Char} (hc : isMember c = false) (rest : List Char) :
    runs isMember [] (c :: rest) = [] := by
  simp [runs, hc]

/-- A run is read over every non-empty first part of a text that is made of members. -/
theorem mem_runs_iff :
    r ∈ runs isMember [] text ↔
      ∃ read rest, text = read ++ rest ∧ read ≠ [] ∧ (∀ c ∈ read, isMember c = true) ∧
        r = ⟨read.getLast?, rest, none⟩ := by
  induction text with
  | nil =>
    simp only [runs, List.not_mem_nil, false_iff]
    rintro ⟨read, rest, htext, hread, -⟩
    exact hread (List.append_eq_nil_iff.mp htext.symm).1
  | cons c cs ih =>
    constructor
    · intro h
      cases hc : isMember c with
      | false => simp [runs_cons_of_not_member hc] at h
      | true =>
        rw [runs_cons_of_member hc, List.mem_append, ih, List.mem_singleton] at h
        rcases h with ⟨read, rest, rfl, hread, hmembers, rfl⟩ | rfl
        · obtain ⟨d, read, rfl⟩ := List.exists_cons_of_ne_nil hread
          exact ⟨c :: d :: read, rest, rfl, by simp, by simpa [hc] using hmembers, rfl⟩
        · exact ⟨[c], cs, rfl, by simp, by simpa using hc, rfl⟩
    · rintro ⟨read, rest, htext, hread, hmembers, rfl⟩
      obtain ⟨d, read, rfl⟩ := List.exists_cons_of_ne_nil hread
      obtain ⟨rfl, rfl⟩ := List.cons.inj htext
      rw [runs_cons_of_member (hmembers c List.mem_cons_self), List.mem_append]
      -- One character only is the last way, and every longer part is one of the rest's.
      cases read with
      | nil => exact .inr (List.mem_singleton.mpr rfl)
      | cons d read =>
        exact .inl (ih.mpr ⟨d :: read, rest, rfl, by simp,
          fun x hx => hmembers x (List.mem_cons_of_mem c hx), rfl⟩)

/-- A longer run is preferred: it leaves less. -/
theorem pairwise_runs (isMember : Char → Bool) (text : List Char) :
    (runs isMember [] text).Pairwise fun r s => r.rest.length < s.rest.length := by
  induction text with
  | nil => exact List.Pairwise.nil
  | cons c cs ih =>
    cases hc : isMember c with
    | false =>
      rw [runs_cons_of_not_member hc]
      exact List.Pairwise.nil
    | true =>
      -- The run of one character comes last and leaves more than all others.
      rw [runs_cons_of_member hc, List.pairwise_append]
      refine ⟨ih, List.pairwise_singleton _ _, ?_⟩
      intro r hr s hs
      obtain ⟨read, rest, rfl, hread, -, rfl⟩ := mem_runs_iff.mp hr
      rw [List.mem_singleton.mp hs]
      show rest.length < (read ++ rest).length
      have hpos := List.length_pos_iff.mpr hread
      rw [List.length_append]
      omega

/-! ### The other patterns -/

/-- A choice of words reads any of them that the text starts with. The last character read is what a
boundary behind it looks at. -/
theorem mem_readings_oneOf_iff {words : List (List Char)} :
    r ∈ (oneOf words).readings before text ↔
      ∃ word ∈ words, ∃ rest, text = word ++ rest ∧ r = ⟨word.getLast?.or before, rest, none⟩ := by
  simp only [readings, List.mem_filterMap, Option.map_eq_some_iff, afterStart?_eq_some_iff]
  constructor
  · rintro ⟨word, hword, rest, htext, rfl⟩
    exact ⟨word, hword, rest, htext, rfl⟩
  · rintro ⟨word, hword, rest, htext, rfl⟩
    exact ⟨word, hword, rest, htext, rfl⟩

/-- Two patterns in a row read the text in two parts; the second starts where the first stopped. -/
theorem mem_readings_seq_iff {first second : Pattern} :
    r ∈ (seq first second).readings before text ↔
      ∃ a ∈ first.readings before text, ∃ b ∈ second.readings a.before a.rest,
        r = { b with kept := a.kept.or b.kept } := by
  simp only [readings, List.mem_flatMap, List.mem_map]
  constructor
  · rintro ⟨a, ha, b, hb, rfl⟩
    exact ⟨a, ha, b, hb, rfl⟩
  · rintro ⟨a, ha, b, hb, rfl⟩
    exact ⟨a, ha, b, hb, rfl⟩

/-- A group is read as what is in it, and keeps what it goes over. -/
theorem mem_readings_group_iff {inner : Pattern} :
    r ∈ (group inner).readings before text ↔
      ∃ a ∈ inner.readings before text,
        r = { a with kept := some (text.take (text.length - a.rest.length)) } := by
  rw [readings, List.mem_map]
  simp only [eq_comm]

/-- A boundary reads nothing and holds between a word character and one that is none. -/
theorem mem_readings_wordBoundary_iff :
    r ∈ wordBoundary.readings before text ↔
      inWord before ≠ inWord text.head? ∧ r = ⟨before, text, none⟩ := by
  rw [readings]
  split
  · rename_i h
    simp [h]
  · rename_i h
    simp [h]

/-- A group keeps what it goes over. -/
theorem kept_group {read rest : List Char} (htext : text = read ++ rest) :
    text.take (text.length - rest.length) = read := by
  rw [htext, List.length_append, Nat.add_sub_cancel]
  exact List.take_left

/-- Every reading goes over a first part of the text. -/
theorem exists_over {p : Pattern} (h : r ∈ p.readings before text) :
    ∃ read, r.Over before text read := by
  induction p generalizing before text r with
  | run isMember =>
    obtain ⟨read, rest, htext, hread, -, rfl⟩ := mem_runs_iff.mp h
    refine ⟨read, htext, ?_⟩
    rw [List.getLast?_eq_some_getLast hread]
    rfl
  | oneOf words =>
    obtain ⟨word, -, rest, htext, rfl⟩ := mem_readings_oneOf_iff.mp h
    exact ⟨word, htext, rfl⟩
  | wordBoundary =>
    obtain ⟨-, rfl⟩ := mem_readings_wordBoundary_iff.mp h
    exact ⟨[], rfl, rfl⟩
  | seq first second ihFirst ihSecond =>
    obtain ⟨a, ha, b, hb, rfl⟩ := mem_readings_seq_iff.mp h
    obtain ⟨x, hx⟩ := ihFirst ha
    obtain ⟨y, hy⟩ := ihSecond hb
    -- The second part is read behind what the first one goes over.
    refine ⟨x ++ y, ?_, ?_⟩
    · rw [List.append_assoc, ← hy.text_eq, ← hx.text_eq]
    · rw [List.getLast?_append, Option.or_assoc, ← hx.before_eq]
      exact hy.before_eq
  | group inner ih =>
    obtain ⟨a, ha, rfl⟩ := mem_readings_group_iff.mp h
    obtain ⟨x, hx⟩ := ih ha
    exact ⟨x, hx.text_eq, hx.before_eq⟩

/-- A pattern that consumes leaves less than there was. -/
theorem length_rest_lt {p : Pattern} (hp : p.consumes = true)
    (h : r ∈ p.readings before text) : r.rest.length < text.length := by
  induction p generalizing before text r with
  | run isMember =>
    obtain ⟨read, rest, rfl, hread, -, rfl⟩ := mem_runs_iff.mp h
    have hpos := List.length_pos_iff.mpr hread
    simp only [List.length_append]
    omega
  | oneOf words =>
    obtain ⟨word, hword, rest, rfl, rfl⟩ := mem_readings_oneOf_iff.mp h
    have hne := List.all_eq_true.mp hp word hword
    have hpos : 0 < word.length := List.length_pos_iff.mpr (by simpa using hne)
    simp only [List.length_append]
    omega
  | wordBoundary => simp [consumes] at hp
  | seq first second ihFirst ihSecond =>
    obtain ⟨a, ha, b, hb, rfl⟩ := mem_readings_seq_iff.mp h
    obtain ⟨x, hx⟩ := exists_over ha
    obtain ⟨y, hy⟩ := exists_over hb
    have hfirst := congrArg List.length hx.text_eq
    have hsecond := congrArg List.length hy.text_eq
    rw [List.length_append] at hfirst hsecond
    -- One of the two leaves less, and the other one does not leave more.
    rcases Bool.or_eq_true_iff.mp hp with hp | hp
    · have hlt := ihFirst hp ha
      show b.rest.length < text.length
      omega
    · have hlt := ihSecond hp hb
      show b.rest.length < text.length
      omega
  | group inner ih =>
    obtain ⟨a, ha, rfl⟩ := mem_readings_group_iff.mp h
    show a.rest.length < text.length
    exact ih hp ha

end Pattern

/-! ### Searching -/

namespace SearchPattern

variable {p : SearchPattern} {before : Option Char}

/-- Characters that an earlier reading has gone over are passed over. -/
theorem searchFrom_skip (read rest : List Char) :
    p.searchFrom before read.length (read ++ rest) =
      p.searchFrom (read.getLast?.or before) 0 rest := by
  induction read generalizing before with
  | nil => rfl
  | cons c read ih =>
    rw [List.length_cons, List.cons_append, searchFrom, ih, List.getLast?_cons, Option.or_some,
      Option.some_or]

/-- Where something can be read the first reading is taken, and the search goes on behind it. -/
theorem searchFrom_of_readings {text : List Char} {r : Reading} {others : List Reading}
    (h : p.pattern.readings before text = r :: others) :
    p.searchFrom before 0 text = r :: p.searchFrom r.before 0 r.rest := by
  have hmem : r ∈ p.pattern.readings before text := by
    rw [h]
    exact List.mem_cons_self
  obtain ⟨read, hover⟩ := Pattern.exists_over hmem
  have hlt := Pattern.length_rest_lt p.consumes hmem
  have htext := hover.text_eq
  -- A pattern of a search consumes, so the reading goes over the first character at least. The
  -- search counts down the others.
  cases read with
  | nil =>
    rw [htext] at hlt
    exact absurd hlt (Nat.lt_irrefl _)
  | cons c read =>
    rw [htext] at h ⊢
    rw [List.cons_append] at h ⊢
    have hskip : (read ++ r.rest).length - r.rest.length = read.length := by
      rw [List.length_append, Nat.add_sub_cancel]
    rw [searchFrom, h]
    show r :: p.searchFrom (some c) ((read ++ r.rest).length - r.rest.length) _ = _
    rw [hskip, searchFrom_skip, hover.before_eq, List.getLast?_cons, Option.or_some,
      Option.some_or]

/-- Where nothing can be read the search goes on with the next character. -/
theorem searchFrom_next {c : Char} {rest : List Char}
    (h : p.pattern.readings before (c :: rest) = []) :
    p.searchFrom before 0 (c :: rest) = p.searchFrom (some c) 0 rest := by
  rw [searchFrom, h]

/-- A part of a text in which nothing can be read is passed over. -/
theorem searchFrom_pass {passed rest : List Char}
    (h : ∀ a b, passed = a ++ b → b ≠ [] →
      p.pattern.readings (a.getLast?.or before) (b ++ rest) = []) :
    p.searchFrom before 0 (passed ++ rest) = p.searchFrom (passed.getLast?.or before) 0 rest := by
  induction passed generalizing before with
  | nil => rfl
  | cons c passed ih =>
    have hc : p.pattern.readings before (c :: passed ++ rest) = [] :=
      h [] (c :: passed) rfl (by simp)
    rw [List.cons_append] at hc ⊢
    rw [searchFrom_next hc, ih, List.getLast?_cons, Option.or_some, Option.some_or]
    -- What stands before a later place begins with the character that was passed.
    intro a b hab hb
    have hlater := h (c :: a) b (by rw [hab, List.cons_append]) hb
    rwa [List.getLast?_cons, Option.some_or, ← Option.or_some] at hlater

end SearchPattern

end CodeAtlas.Text
