import CodeAtlas.Language.Specifier
import CodeAtlas.Proofs.FileId.Join

/-!
# `CodeAtlas.Proofs.Language.Specifier`: how far a relative import climbs

An import with dots in front of its names starts in the package of the importer, and every dot but
the first climbs one package. Such a specifier is rewritten into a text with slashes, which is then
followed like any other relative text. The theorems:

* `normalizeChars_dots`: the dots in front are told from those between the names.
* `walk_relative`, `walk_normalizeChars`: the rewritten text climbs a level less than there are
  dots, and then descends through the names.
* `join?_normalize_dots`: where the import leads, or that it leads nowhere.
-/

set_option autoImplicit false

namespace CodeAtlas

namespace SpecifierStyle

variable {names : List (List Char)}

/-! ### Rewriting -/

/-- Names without dots that are joined with dots become names joined with slashes. -/
theorem slashed_glue (h : ∀ name ∈ names, '.' ∉ name) :
    slashed (Text.glue '.' names) = Text.glue '/' names := by
  have hname : ∀ name ∈ names, slashed name = name := by
    intro name hmem
    refine (List.map_congr_left fun c hc => if_neg ?_).trans (List.map_id name)
    rintro rfl
    exact h name hmem hc
  induction names with
  | nil => rfl
  | cons first others ih =>
    have hfirst := hname first List.mem_cons_self
    -- The last name has no separator behind it, so it stands apart.
    cases others with
    | nil => exact hfirst
    | cons next others =>
      show slashed (first ++ '.' :: Text.glue '.' (next :: others)) = _
      have hrest := ih (fun name hmem => h name (List.mem_cons_of_mem _ hmem))
        fun name hmem => hname name (List.mem_cons_of_mem _ hmem)
      rw [slashed] at hfirst hrest ⊢
      rw [List.map_append, List.map_cons, hfirst, hrest, if_pos rfl]
      rfl

/-- The dots in front of a specifier are told from those between its names, since no name begins
with a dot. -/
theorem normalizeChars_dots (n : Nat) (h : ∀ name ∈ names, name ≠ [] ∧ '.' ∉ name) :
    dottedRelative.normalizeChars (List.replicate n '.' ++ Text.glue '.' names)
      = relative n (Text.glue '/' names) := by
  have hdots : ∀ c ∈ List.replicate n '.', decide (c = '.') = true := by
    intro c hc
    simpa using List.eq_of_mem_replicate hc
  -- The run of dots ends where the names begin.
  have hstop : ∀ c ∈ (Text.glue '.' names).head?, c ≠ '.' := by
    intro c hc
    cases names with
    | nil => cases hc
    | cons first others =>
      obtain ⟨hne, hfree⟩ := h first List.mem_cons_self
      obtain ⟨rest, hglue⟩ := Text.exists_glue_cons '.' first others
      rw [hglue, List.head?_append_of_ne_nil _ hne] at hc
      exact fun hdot => hfree (hdot ▸ List.mem_of_mem_head? hc)
  have htake : (Text.glue '.' names).takeWhile (· = '.') = [] := by
    cases hglue : Text.glue '.' names with
    | nil => rfl
    | cons c rest =>
      rw [hglue] at hstop
      exact List.takeWhile_cons_of_neg (by simpa using hstop c rfl)
  have hdrop : (Text.glue '.' names).dropWhile (· = '.') = Text.glue '.' names := by
    have hsplit := List.takeWhile_append_dropWhile (p := (· = '.')) (l := Text.glue '.' names)
    rwa [htake, List.nil_append] at hsplit
  rw [normalizeChars, List.takeWhile_append_of_pos hdots, List.dropWhile_append_of_pos hdots, htake,
    hdrop, List.append_nil, List.length_replicate, slashed_glue fun name hmem => (h name hmem).2]

end SpecifierStyle

namespace FileId

open SpecifierStyle (climb relative)

variable {names : List (List Char)}

/-! ### Walking -/

/-- The relative form of a specifier climbs one level less than there were dots, and then passes
through the names. -/
theorem walk_relative (dir : List (List Char)) (n : Nat)
    (h : ∀ name ∈ names, name ≠ [] ∧ '/' ∉ name) :
    walk dir (Text.pieces '/' (relative n (Text.glue '/' names)))
      = walk dir (List.replicate (n - 1) ['.', '.'] ++ names) := by
  have hclimb : ∀ k, Text.pieces '/' (climb (k + 1)) = List.replicate (k + 1) ['.', '.'] := by
    intro k
    refine Text.pieces_glue (by simp) fun segment hsegment => ?_
    rw [List.eq_of_mem_replicate hsegment]
    decide
  by_cases hnames : names = []
  · -- Without names the text says where to go by dots alone, and an empty text stays.
    subst hnames
    match n with
    | 0 => rfl
    | 1 => rfl
    | n + 2 =>
      show walk dir (Text.pieces '/' (climb (n + 1))) = _
      rw [hclimb, List.append_nil]
      rfl
  · have hpieces := Text.pieces_glue hnames fun name hmem => (h name hmem).2
    have hne : Text.glue '/' names ≠ [] := by
      intro hempty
      rw [hempty] at hpieces
      exact (h [] (hpieces ▸ List.mem_cons_self)).1 rfl
    -- With names, what is in front of them is empty, a dot that stays, or the levels to climb.
    match n with
    | 0 =>
      show walk dir (Text.pieces '/' (Text.glue '/' names)) = _
      rw [hpieces]
      rfl
    | 1 =>
      rw [relative, if_neg hne]
      show walk dir (Text.pieces '/' (['.'] ++ '/' :: Text.glue '/' names)) = _
      rw [Text.pieces_append_sep, hpieces]
      rfl
    | n + 2 =>
      rw [relative, if_neg hne, Text.pieces_append_sep, hclimb, hpieces]
      rfl

/-- Where a specifier with dots in front of its names leads from the names of a directory: with more
levels to climb than there are names it leads nowhere. -/
theorem walk_normalizeChars (dir : List (List Char)) (n : Nat)
    (h : ∀ name ∈ names, name ≠ [] ∧ '.' ∉ name ∧ '/' ∉ name) :
    walk dir (Text.pieces '/' (SpecifierStyle.dottedRelative.normalizeChars
        (List.replicate n '.' ++ Text.glue '.' names)))
      = if n - 1 ≤ dir.length then some (dir.take (dir.length - (n - 1)) ++ names) else none := by
  have hnames : ∀ name ∈ names, IsName name := by
    intro name hmem
    obtain ⟨hne, hdot, -⟩ := h name hmem
    refine ⟨hne, ?_, ?_⟩ <;> rintro rfl <;> simp at hdot
  -- First the walk climbs, one level for each dot but the first, and then it follows the names.
  rw [SpecifierStyle.normalizeChars_dots n fun name hmem => ⟨(h name hmem).1, (h name hmem).2.1⟩,
    walk_relative dir n fun name hmem => ⟨(h name hmem).1, (h name hmem).2.2⟩,
    walk_append, walk_replicate]
  split
  · exact walk_names _ hnames
  · rfl

/-- **A relative import climbs the right number of packages.** Take the id of any directory, given
by its names, which may be none, and a specifier of any number of dots and any names behind them. If
there are more levels to climb than the directory has, or if nothing would be left, then the import
leads nowhere. Otherwise it leads to the id of the directory without as many of its last names as
there are dots but the first, and behind them the names of the specifier. Without dots, as with one,
all names of the directory stay. -/
theorem join?_normalize_dots (dir names : List String) (n : Nat)
    (hdir : ∀ name ∈ dir, name ≠ "" ∧ '/' ∉ name.toList)
    (hnames : ∀ name ∈ names, name ≠ "" ∧ '.' ∉ name.toList ∧ '/' ∉ name.toList) :
    let specifier := String.ofList (List.replicate n '.') ++ ".".intercalate names
    let goal := dir.take (dir.length - (n - 1)) ++ names
    FileId.join? ("/".intercalate dir) (SpecifierStyle.dottedRelative.normalize specifier)
      = if n - 1 ≤ dir.length ∧ goal ≠ [] then some ("/".intercalate goal) else none := by
  intro specifier goal
  -- The texts are glued from the characters of their names.
  have hslash : ∀ texts : List String,
      ("/".intercalate texts).toList = Text.glue '/' (texts.map String.toList) := by
    intro texts
    rw [String.toList_intercalate, Text.glue_eq_intercalate]
    rfl
  have hspecifier : specifier.toList
      = List.replicate n '.' ++ Text.glue '.' (names.map String.toList) := by
    rw [String.toList_append, String.toList_ofList, String.toList_intercalate,
      Text.glue_eq_intercalate]
    rfl
  have hwalk : walk (segments ("/".intercalate dir).toList)
      (Text.pieces '/' (SpecifierStyle.dottedRelative.normalizeChars specifier.toList))
        = if n - 1 ≤ dir.length then some (goal.map String.toList) else none := by
    rw [hspecifier, hslash, segments_glue (by simpa using hdir),
      walk_normalizeChars _ n (by simpa using hnames), List.length_map, List.map_append,
      List.map_take]
  rw [join?, SpecifierStyle.normalize, String.toList_ofList]
  by_cases hdeep : n - 1 ≤ dir.length
  · rw [if_pos hdeep] at hwalk
    rw [joinChars?_of_leads (walk_eq_some_iff.mp hwalk)]
    by_cases hgoal : goal = []
    · rw [if_pos (by rw [hgoal]; rfl), if_neg fun h => h.2 hgoal]
      rfl
    · rw [if_neg (by simpa using hgoal), if_pos ⟨hdeep, hgoal⟩, ← hslash, Option.map_some,
        String.ofList_toList]
  · rw [if_neg hdeep] at hwalk
    rw [joinChars?, hwalk, if_neg fun h => hdeep h.1]
    rfl

/-- Three dots climb two of three packages, and two dots climb out of the only one, to the root.
Three dots climb too far from there. Without dots nothing is climbed. -/
theorem join?_normalize_dots_climbing :
    FileId.join? "src/net/http" (SpecifierStyle.dottedRelative.normalize "...io.file")
        = some "src/io/file" ∧
      FileId.join? "src" (SpecifierStyle.dottedRelative.normalize "..") = none ∧
      FileId.join? "src" (SpecifierStyle.dottedRelative.normalize "...io") = none ∧
      FileId.join? "" (SpecifierStyle.dottedRelative.normalize "os.path") = some "os/path" := by
  refine ⟨?_, ?_, ?_, ?_⟩
  · exact join?_normalize_dots ["src", "net", "http"] ["io", "file"] 3 (by decide) (by decide)
  · exact join?_normalize_dots ["src"] [] 2 (by decide) (by decide)
  · exact join?_normalize_dots ["src"] ["io"] 3 (by decide) (by decide)
  · exact join?_normalize_dots [] ["os", "path"] 0 (by decide) (by decide)

end FileId

end CodeAtlas
