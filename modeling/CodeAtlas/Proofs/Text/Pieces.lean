import CodeAtlas.Text.Pieces
import Mathlib.Data.List.Basic

/-!
# `CodeAtlas.Proofs.Text.Pieces`: pieces between separators

`cutLast` finds the last separator of a text (`cutLast_eq_some_iff`) or says that there is none
(`cutLast_eq_none_iff`). The pieces of a text hold no separator (`not_mem_of_mem_pieces`) and can
be found one part of the text after the other (`pieces_append_sep`, `pieces_append_of_not_mem`).
A text that is glued from pieces has these pieces (`pieces_glue`) and begins with the first of
them (`exists_glue_cons`).

A text that is glued from two parts does not always tell the parts: they may overlap at a
separator (`append_sep_eq_iff`). It does if both parts behind the separator are free of
separators (`append_sep_inj_of_right`), or both parts before it (`append_sep_inj_of_left`).
-/

set_option autoImplicit false

namespace CodeAtlas.Text

variable {sep : Char}

/-- A text is not cut exactly if it has no separator. -/
theorem cutLast_eq_none_iff {cs : List Char} : cutLast sep cs = none ↔ sep ∉ cs := by
  induction cs with
  | nil => simp [cutLast]
  | cons c rest ih =>
    rw [cutLast]
    -- The function looks behind the first character before it looks at it.
    cases hrest : cutLast sep rest with
    | some cut =>
      have hmem : sep ∈ rest := by
        by_contra hno
        rw [ih.mpr hno] at hrest
        exact absurd hrest (by simp)
      simp [hmem]
    | none =>
      have hno := ih.mp hrest
      by_cases hc : c = sep
      · simp [hc]
      · simp [hc, hno, Ne.symm hc]

/-- The last separator is the one that has none behind it. -/
theorem cutLast_append {b : List Char} (hb : sep ∉ b) (a : List Char) :
    cutLast sep (a ++ sep :: b) = some (a, b) := by
  induction a with
  | nil => simp [cutLast, cutLast_eq_none_iff.mpr hb]
  | cons c a ih => rw [List.cons_append, cutLast, ih]

/-- A text with a separator splits at the last one. -/
theorem exists_append_of_mem {cs : List Char} (h : sep ∈ cs) :
    ∃ a b, cs = a ++ sep :: b ∧ sep ∉ b := by
  obtain ⟨a, b, hsplit, ha⟩ := List.eq_append_cons_of_mem (List.mem_reverse.mpr h)
  refine ⟨b.reverse, a.reverse, ?_, by simpa using ha⟩
  rw [← List.reverse_reverse cs, hsplit]
  simp

/-- A text is cut into what stands before and behind its last separator. -/
theorem cutLast_eq_some_iff {cs a b : List Char} :
    cutLast sep cs = some (a, b) ↔ cs = a ++ sep :: b ∧ sep ∉ b := by
  constructor
  · intro h
    have hmem : sep ∈ cs := by
      by_contra hno
      rw [cutLast_eq_none_iff.mpr hno] at h
      exact absurd h (by simp)
    -- There is one place only with no separator behind it.
    obtain ⟨a', b', hsplit, hb'⟩ := exists_append_of_mem hmem
    rw [hsplit, cutLast_append hb', Option.some.injEq, Prod.mk.injEq] at h
    obtain ⟨rfl, rfl⟩ := h
    exact ⟨hsplit, hb'⟩
  · rintro ⟨rfl, hb⟩
    exact cutLast_append hb a

/-! ### Two parts glued together -/

/-- Two pairs of parts are glued to one text if they are equal, or if one of the two first
parts and the other second part overlap in a text between two separators. -/
theorem append_sep_eq_iff {a b a' b' : List Char} :
    a ++ sep :: b = a' ++ sep :: b' ↔
      (a = a' ∧ b = b') ∨ (∃ m, a' = a ++ sep :: m ∧ b = m ++ sep :: b') ∨
        ∃ m, a = a' ++ sep :: m ∧ b' = m ++ sep :: b := by
  rw [List.append_eq_append_iff]
  constructor
  · rintro (⟨m, ha, hb⟩ | ⟨m, ha, hb⟩)
    -- One first part is longer by `m`. If that is not empty it begins with a separator.
    · cases m with
      | nil => exact .inl ⟨by simpa using ha.symm, (List.cons.inj hb).2⟩
      | cons c m =>
        obtain ⟨rfl, hrest⟩ := List.cons.inj hb
        exact .inr (.inl ⟨m, ha, hrest⟩)
    · cases m with
      | nil => exact .inl ⟨by simpa using ha, (List.cons.inj hb).2.symm⟩
      | cons c m =>
        obtain ⟨rfl, hrest⟩ := List.cons.inj hb
        exact .inr (.inr ⟨m, ha, hrest⟩)
  · rintro (⟨rfl, rfl⟩ | ⟨m, rfl, rfl⟩ | ⟨m, rfl, rfl⟩)
    · exact .inl ⟨[], by simp, rfl⟩
    · exact .inl ⟨sep :: m, rfl, rfl⟩
    · exact .inr ⟨sep :: m, rfl, rfl⟩

/-- Parts behind the last separator can be told. -/
theorem append_sep_inj_of_right {a b a' b' : List Char} (hb : sep ∉ b) (hb' : sep ∉ b') :
    a ++ sep :: b = a' ++ sep :: b' ↔ a = a' ∧ b = b' := by
  constructor
  · intro h
    have hcut := congrArg (cutLast sep) h
    rw [cutLast_append hb, cutLast_append hb', Option.some.injEq, Prod.mk.injEq] at hcut
    exact hcut
  · rintro ⟨rfl, rfl⟩
    rfl

/-- Parts before the first separator can be told. -/
theorem append_sep_inj_of_left {a b a' b' : List Char} (ha : sep ∉ a) (ha' : sep ∉ a') :
    a ++ sep :: b = a' ++ sep :: b' ↔ a = a' ∧ b = b' := by
  rw [append_sep_eq_iff]
  constructor
  · rintro (h | ⟨m, rfl, -⟩ | ⟨m, rfl, -⟩)
    · exact h
    · exact absurd (List.mem_append_right a List.mem_cons_self) ha'
    · exact absurd (List.mem_append_right a' List.mem_cons_self) ha
  · exact Or.inl

/-! ### Pieces -/

/-- The pieces of a text have no separator in them. -/
theorem not_mem_of_mem_pieces {cs piece : List Char} (h : piece ∈ pieces sep cs) :
    sep ∉ piece := by
  -- A character that is no separator goes to the front of the first piece of the rest.
  induction cs generalizing piece with
  | nil =>
    rw [pieces, List.mem_singleton] at h
    simp [h]
  | cons c rest ih =>
    rw [pieces] at h
    split at h
    · rcases List.mem_cons.mp h with rfl | h
      · simp
      · exact ih h
    · rename_i hc
      split at h
      · rw [List.mem_singleton] at h
        simpa [h] using Ne.symm hc
      · rename_i first others hrest
        rw [hrest] at ih
        rcases List.mem_cons.mp h with rfl | h
        · rw [List.mem_cons]
          exact not_or.mpr ⟨Ne.symm hc, ih List.mem_cons_self⟩
        · exact ih (List.mem_cons_of_mem _ h)

/-- Even the empty text is one piece, so the lists of pieces have a first and a last. -/
theorem pieces_ne_nil (sep : Char) (cs : List Char) : pieces sep cs ≠ [] := by
  cases cs with
  | nil => simp [pieces]
  | cons c rest =>
    rw [pieces]
    split
    · simp
    · split <;> simp

/-- A text without separators is its only piece. -/
theorem pieces_of_not_mem {cs : List Char} (h : sep ∉ cs) : pieces sep cs = [cs] := by
  induction cs with
  | nil => rfl
  | cons c rest ih =>
    rw [List.mem_cons, not_or] at h
    rw [pieces, if_neg (Ne.symm h.1), ih h.2]

/-- At a separator the pieces of a text are those before it and those behind it. -/
theorem pieces_append_sep (a b : List Char) :
    pieces sep (a ++ sep :: b) = pieces sep a ++ pieces sep b := by
  induction a with
  | nil => simp [pieces]
  | cons c a ih =>
    rw [List.cons_append, pieces, pieces, ih]
    split
    · rfl
    · cases hfirst : pieces sep a with
      | nil => exact absurd hfirst (pieces_ne_nil sep a)
      | cons first others => rfl

/-- What is put behind a text and has no separator goes to its last piece. -/
theorem pieces_append_of_not_mem {cs piece behind : List Char} {front : List (List Char)}
    (h : pieces sep cs = front ++ [piece]) (hbehind : sep ∉ behind) :
    pieces sep (cs ++ behind) = front ++ [piece ++ behind] := by
  by_cases hmem : sep ∈ cs
  · obtain ⟨a, b, rfl, hb⟩ := exists_append_of_mem hmem
    rw [pieces_append_sep, pieces_of_not_mem hb] at h
    obtain ⟨rfl, rfl⟩ := List.append_singleton_inj.mp h
    rw [List.append_assoc, List.cons_append, pieces_append_sep,
      pieces_of_not_mem (List.mem_append.not.mpr (not_or.mpr ⟨hb, hbehind⟩))]
  · rw [pieces_of_not_mem hmem, ← List.nil_append [cs]] at h
    obtain ⟨rfl, rfl⟩ := List.append_singleton_inj.mp h
    exact pieces_of_not_mem (List.mem_append.not.mpr (not_or.mpr ⟨hmem, hbehind⟩))

/-- The pieces of a text glued from pieces without separators are these. -/
theorem pieces_glue {names : List (List Char)} (hne : names ≠ [])
    (h : ∀ name ∈ names, sep ∉ name) : pieces sep (glue sep names) = names := by
  induction names with
  | nil => exact absurd rfl hne
  | cons first others ih =>
    have hfirst := pieces_of_not_mem (h first List.mem_cons_self)
    cases others with
    | nil => exact hfirst
    | cons next others =>
      show pieces sep (first ++ sep :: glue sep (next :: others)) = _
      rw [pieces_append_sep, hfirst,
        ih (List.cons_ne_nil _ _) fun name hname => h name (List.mem_cons_of_mem _ hname)]
      rfl

/-- A text glued from texts has the pieces of each of them, one after the other. -/
theorem pieces_glue_eq_flatMap {texts : List (List Char)} (hne : texts ≠ []) :
    pieces sep (glue sep texts) = texts.flatMap (pieces sep) := by
  induction texts with
  | nil => exact absurd rfl hne
  | cons first others ih =>
    cases others with
    | nil => simp [glue]
    | cons next others =>
      show pieces sep (first ++ sep :: glue sep (next :: others)) = _
      rw [pieces_append_sep, ih (List.cons_ne_nil _ _)]
      rfl

/-- The pieces of a text glue to the text. -/
theorem glue_pieces (cs : List Char) : glue sep (pieces sep cs) = cs := by
  induction cs with
  | nil => rfl
  | cons c rest ih =>
    obtain ⟨first, others, hrest⟩ := List.exists_cons_of_ne_nil (pieces_ne_nil sep rest)
    rw [hrest] at ih
    rw [pieces, hrest]
    split
    · rename_i hc
      show sep :: glue sep (first :: others) = c :: rest
      rw [ih, hc]
    · rw [← ih]
      cases others <;> rfl

/-- One more piece stands behind a separator. -/
theorem glue_concat {names : List (List Char)} (hne : names ≠ []) (name : List Char) :
    glue sep (names ++ [name]) = glue sep names ++ sep :: name := by
  induction names with
  | nil => exact absurd rfl hne
  | cons first others ih =>
    cases others with
    | nil => rfl
    | cons next others =>
      show first ++ sep :: glue sep (next :: others ++ [name]) = _
      rw [ih (List.cons_ne_nil _ _), ← List.cons_append, ← List.append_assoc]
      rfl

/-- The pieces determine the text, since glued they are the text again. -/
theorem pieces_inj (sep : Char) {a b : List Char} : pieces sep a = pieces sep b ↔ a = b := by
  constructor
  · intro h
    have hglue := congrArg (glue sep) h
    rwa [glue_pieces, glue_pieces] at hglue
  · rintro rfl
    rfl

/-- A text glued from pieces begins with the first piece. -/
theorem exists_glue_cons (sep : Char) (piece : List Char) (others : List (List Char)) :
    ∃ rest, glue sep (piece :: others) = piece ++ rest := by
  cases others with
  | nil => exact ⟨[], (List.append_nil piece).symm⟩
  | cons next others => exact ⟨sep :: glue sep (next :: others), rfl⟩

/-- Gluing pieces is putting the separator between each two of them. -/
theorem glue_eq_intercalate (sep : Char) (names : List (List Char)) :
    glue sep names = [sep].intercalate names := by
  induction names with
  | nil => rfl
  | cons first others ih =>
    cases others with
    | nil => simp [glue]
    | cons next others =>
      show first ++ sep :: glue sep (next :: others) = _
      rw [ih]
      simp

end CodeAtlas.Text
