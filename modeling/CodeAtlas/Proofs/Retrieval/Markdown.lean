import CodeAtlas.Proofs.Text.Hyphen
import CodeAtlas.Retrieval.Context

/-!
# `CodeAtlas.Proofs.Retrieval.Markdown`: what a retrieval in Markdown tells

In Markdown the text of a match stands between two lines of three backticks, whatever its own
lines are. A text may therefore look like the end of its match and the front of the next one
(`BreaksOut`). The theorems:

* `closes_inj`: the end of a text is told if neither of two texts breaks out.
* `foundLines_inj`, `fileLines_inj`: so are the matches of a file, and the files, one after the
  other.
* `text_markdown_swallow`: two neighbouring matches are written like one match whose text holds the
  lines between them.
* `markdown_eq_iff`: retrievals in which no text breaks out are written alike exactly if they show
  the same.
* `markdown_ambiguous`: a file in Markdown whose text breaks out.
-/

set_option autoImplicit false

namespace CodeAtlas

/-! ### Numbers with two decimals -/

namespace Single

/-- A number with a fixed count of decimals stands on one line. -/
theorem newline_not_mem_fixed (places : Nat) (x : Single) : '\n' ∉ x.fixed places := by
  have hdigits : ∀ n, '\n' ∉ Nat.toDigits 10 n := fun n h =>
    absurd (Nat.isDigit_of_mem_toDigits (by omega) (by omega) h) (by decide)
  have hsign : '\n' ∉ x.signText := by
    rw [signText]
    split <;> decide
  have hpadded : ∀ n, '\n' ∉ padded places n := by
    intro n h
    rw [padded, List.mem_append] at h
    rcases h with h | h
    · exact absurd (List.eq_of_mem_replicate h) (by decide)
    · exact hdigits n h
  -- A number is written as a word, or as a sign, digits, a dot and digits.
  rw [fixed]
  split
  · decide
  split
  · simp [hsign]
  · simp only [List.mem_append, not_or]
    refine ⟨⟨hsign, hdigits _⟩, ?_⟩
    split
    · simp
    · simp [hpadded]

end Single

namespace Context

open Text (glue pieces)

/-! ### Lines -/

/-- The line at the front of a match. -/
def matchHead (m : RetrievalMatch) : List Char :=
  ("_chunk " ++ toString m.chunkIndex ++ " via " ++ m.method.tag ++ " (").toList ++
    m.similarity.fixed 2 ++ [')', '_']

/-- What stands before the name of a file. -/
def fileFront : List Char := "### File: ".toList

/-- The line at the front of a file. -/
def fileHead (id : FileId) : List Char :=
  fileFront ++ backtick :: String.toList id ++ [backtick]

/-- Whether a line is one at the front of a match or of a file. -/
inductive IsHead : List Char → Prop
  | ofMatch (m : RetrievalMatch) : IsHead (matchHead m)
  | ofFile (id : FileId) : IsHead (fileHead id)

/-- Whether a text looks like the end of its match: it has a line of three backticks, then an
empty line, and then one that is at the front of a match or of a file. -/
def BreaksOut (text : List Char) : Prop :=
  ∃ before head behind, pieces '\n' text = before ++ fence :: [] :: head :: behind ∧ IsHead head

/-- What is shown of a match, its score with two decimals. -/
structure ShownMatch where
  index : Nat
  method : RetrievalMethod
  score : List Char
  language : String
  text : String
deriving DecidableEq

/-- The part of a match that the rendering shows. The similarity is what its two printed digits say,
so two matches that differ below them are shown alike. -/
def shownMatch (m : RetrievalMatch) : ShownMatch :=
  ⟨m.chunkIndex, m.method, m.similarity.fixed 2, m.language, m.text⟩

/-- What is shown of a retrieval: its files in order, each with its matches in order. -/
def shown (r : Retrieval) : List (FileId × List ShownMatch) :=
  r.files.map fun f => (f.fileId, f.found.map shownMatch)

/-- Whether a match can be told from the lines around it. -/
structure MatchTold (m : RetrievalMatch) : Prop where
  language : '\n' ∉ m.language.toList
  text : ¬ BreaksOut m.text.toList

/-- Whether a file and its matches can be told from the lines around them. -/
structure FileTold (f : FileMatches) : Prop where
  name : '\n' ∉ String.toList f.fileId
  found : ∀ m ∈ f.found, MatchTold m

/-! ### Fronts -/

/-- A method's tag stays on its line. -/
theorem newline_not_mem_tag (method : RetrievalMethod) : '\n' ∉ method.tag.toList := by
  cases method <;> decide

/-- A tag is one word, so the blank behind it ends it and it can be read off its line. -/
theorem blank_not_mem_tag (method : RetrievalMethod) : ' ' ∉ method.tag.toList := by
  cases method <;> decide

/-- Different methods have different tags. -/
theorem tag_inj {a b : RetrievalMethod} (h : a.tag = b.tag) : a = b := by
  revert h
  cases a <;> cases b <;> decide

/-- The line over a match with its parts separated by the characters that end them, the form its
parts are read off in. -/
theorem matchHead_eq (m : RetrievalMatch) :
    matchHead m = "_chunk ".toList ++ ((toString m.chunkIndex).toList ++ ' ' ::
      ("via ".toList ++ (m.method.tag.toList ++ ' ' ::
        ('(' :: (m.similarity.fixed 2 ++ [')', '_']))))) := by
  simp [matchHead]

/-- The line over a match is one line: its numbers are digits and its tag a word. -/
theorem newline_not_mem_matchHead (m : RetrievalMatch) : '\n' ∉ matchHead m := by
  have hindex : '\n' ∉ Nat.toDigits 10 m.chunkIndex := fun h =>
    absurd (Nat.isDigit_of_mem_toDigits (by omega) (by omega) h) (by decide)
  have hscore := m.similarity.newline_not_mem_fixed 2
  have hmethod := newline_not_mem_tag m.method
  simp [matchHead, hindex, hscore, hmethod]

/-- So is the line over a file, when the file's name is. -/
theorem newline_not_mem_fileHead {id : FileId} (h : '\n' ∉ String.toList id) :
    '\n' ∉ fileHead id := by
  have hfront : '\n' ∉ fileFront := by decide
  have hmark : '\n' ≠ backtick := by decide
  simp [fileHead, h, hfront, hmark]

/-- The front of a match tells its chunk, how it was found, and its score. -/
theorem matchHead_inj {m n : RetrievalMatch} (h : matchHead m = matchHead n) :
    m.chunkIndex = n.chunkIndex ∧ m.method = n.method ∧
      m.similarity.fixed 2 = n.similarity.fixed 2 := by
  have hblank : ∀ k : Nat, ' ' ∉ (toString k).toList := fun k hk =>
    absurd (Text.isDigit_of_mem_toString hk) (by decide)
  rw [matchHead_eq, matchHead_eq, List.append_cancel_left_eq,
    Text.append_sep_inj_of_left (hblank _) (hblank _), List.append_cancel_left_eq,
    Text.append_sep_inj_of_left (blank_not_mem_tag _) (blank_not_mem_tag _),
    List.cons.injEq, List.append_cancel_right_eq, String.toList_inj, String.toList_inj,
    Text.toString_inj] at h
  exact ⟨h.1, tag_inj h.2.1, h.2.2.2⟩

/-- The line over a file tells its name. -/
theorem fileHead_inj {a b : FileId} (h : fileHead a = fileHead b) : a = b := by
  rw [fileHead, fileHead, List.append_cancel_right_eq, List.append_cancel_left_eq,
    List.cons.injEq, String.toList_inj] at h
  exact h.2

/-- The first character tells the two kinds of headings apart. -/
theorem head?_matchHead (m : RetrievalMatch) : (matchHead m).head? = some '_' := by
  rw [matchHead_eq]
  rfl

/-- See `head?_matchHead`: a file's heading starts with another one. -/
theorem head?_fileHead (id : FileId) : (fileHead id).head? = some '#' := by
  have hfront : fileFront.head? = some '#' := by decide
  rw [fileHead, List.append_assoc, List.head?_append, hfront]
  rfl

/-- So a reader of the lines knows whether the next match belongs to the same file. -/
theorem matchHead_ne_fileHead (m : RetrievalMatch) (id : FileId) : matchHead m ≠ fileHead id := by
  intro h
  have hhead := congrArg List.head? h
  rw [head?_matchHead, head?_fileHead] at hhead
  exact absurd hhead (by decide)

/-- A front begins with none of the characters that other lines of the text begin with. -/
theorem IsHead.head? {line : List Char} (h : IsHead line) :
    line.head? = some '_' ∨ line.head? = some '#' := by
  cases h with
  | ofMatch m => exact .inl (head?_matchHead m)
  | ofFile id => exact .inr (head?_fileHead id)

/-- A fence is no heading, or a text could not be told to have ended at it. -/
theorem not_isHead_fence : ¬ IsHead fence :=
  fun h => absurd h.head? (by decide)

/-- A text none of whose lines begins like a front does not break out. -/
theorem not_breaksOut_of_head? {text : List Char}
    (h : ∀ line ∈ pieces '\n' text, line.head? ≠ some '_' ∧ line.head? ≠ some '#') :
    ¬ BreaksOut text := by
  rintro ⟨before, head, behind, hpieces, hhead⟩
  have hmem : head ∈ pieces '\n' text := by
    rw [hpieces]
    simp
  rcases hhead.head? with hchar | hchar
  · exact (h head hmem).1 hchar
  · exact (h head hmem).2 hchar

/-! ### Texts between fences -/

/-- Whether lines are none, or begin with one of a kind. -/
def Opens (kind : List Char → Prop) (lines : List (List Char)) : Prop :=
  ∀ line ∈ lines.head?, kind line

/-- Where a text ends can be told if neither text breaks out and what follows is the front of a
match or of a file. The fence alone would not do, since a text may hold one too. -/
theorem closes_inj {text text' : List Char} {rest rest' : List (List Char)}
    (htext : ¬ BreaksOut text) (htext' : ¬ BreaksOut text') (hrest : Opens IsHead rest)
    (hrest' : Opens IsHead rest')
    (h : pieces '\n' text ++ fence :: [] :: rest = pieces '\n' text' ++ fence :: [] :: rest') :
    text = text' ∧ rest = rest' := by
  -- If the second text were longer, it would hold the closing lines of the first.
  have hshort : ∀ {a b : List Char} {r r' more : List (List Char)}, ¬ BreaksOut b →
      Opens IsHead r → pieces '\n' b = pieces '\n' a ++ more →
      fence :: [] :: r = more ++ fence :: [] :: r' → more = [] := by
    intro a b r r' more hb hr hlonger hmore
    match more, hmore with
    | [], _ => rfl
    | [x], hmore =>
      have hsecond := (List.cons.inj (List.cons.inj hmore).2).1
      exact absurd hsecond (by decide)
    | [x, y], hmore =>
      have hthird := (List.cons.inj (List.cons.inj hmore).2).2
      exact absurd (hr fence (by rw [hthird]; rfl)) not_isHead_fence
    | x :: y :: z :: more, hmore =>
      obtain ⟨hfirst, hmore⟩ := List.cons.inj hmore
      obtain ⟨hsecond, hthird⟩ := List.cons.inj hmore
      rw [← hfirst, ← hsecond] at hlonger
      exact absurd ⟨pieces '\n' a, z, more, hlonger, hr z (by rw [hthird]; rfl)⟩ hb
  obtain ⟨more, hlonger, hmore⟩ | ⟨more, hlonger, hmore⟩ := List.append_eq_append_iff.mp h
  · obtain rfl := hshort htext' hrest hlonger hmore
    rw [List.append_nil, Text.pieces_inj] at hlonger
    exact ⟨hlonger.symm, (List.cons.inj (List.cons.inj hmore).2).2⟩
  · obtain rfl := hshort htext hrest' hlonger hmore
    rw [List.append_nil, Text.pieces_inj] at hlonger
    exact ⟨hlonger, (List.cons.inj (List.cons.inj hmore).2).2.symm⟩

/-! ### Matches and files -/

/-- The lines of a match, with those of its text one by one. -/
theorem flatMap_pieces_matchLines {m : RetrievalMatch} (h : '\n' ∉ m.language.toList) :
    (matchLines m).flatMap (pieces '\n') =
      matchHead m :: (fence ++ m.language.toList) ::
        (pieces '\n' m.text.toList ++ [fence, []]) := by
  have hfence : '\n' ∉ fence := by decide
  have hopen : '\n' ∉ fence ++ m.language.toList := by simp [hfence, h]
  have hlines : matchLines m =
      [matchHead m, fence ++ m.language.toList, m.text.toList, fence, []] := rfl
  simp only [hlines, List.flatMap_cons, List.flatMap_nil]
  rw [Text.pieces_of_not_mem (newline_not_mem_matchHead m), Text.pieces_of_not_mem hopen,
    Text.pieces_of_not_mem hfence, Text.pieces_of_not_mem List.not_mem_nil]
  rfl

/-- Whatever follows a match opens with a heading, of the next match or of the next file. The end of
a text is found by this. -/
theorem opens_flatMap_matchLines {found : List RetrievalMatch} {rest : List (List Char)}
    (hfound : ∀ m ∈ found, MatchTold m) (hrest : Opens (∃ id, · = fileHead id) rest) :
    Opens IsHead ((found.flatMap matchLines).flatMap (pieces '\n') ++ rest) := by
  -- Either no match follows, and then the next file's heading does, or one does.
  cases found with
  | nil =>
    intro line hline
    obtain ⟨id, rfl⟩ := hrest line hline
    exact .ofFile id
  | cons m found =>
    intro line hline
    rw [List.flatMap_cons, List.flatMap_append,
      flatMap_pieces_matchLines (hfound m List.mem_cons_self).language] at hline
    obtain rfl := Option.some.inj hline
    exact .ofMatch m

/-- The matches of a file can be told if what follows is the front of a file. -/
theorem foundLines_inj {found found' : List RetrievalMatch} {rest rest' : List (List Char)}
    (hfound : ∀ m ∈ found, MatchTold m) (hfound' : ∀ m ∈ found', MatchTold m)
    (hrest : Opens (∃ id, · = fileHead id) rest) (hrest' : Opens (∃ id, · = fileHead id) rest')
    (h : (found.flatMap matchLines).flatMap (pieces '\n') ++ rest =
      (found'.flatMap matchLines).flatMap (pieces '\n') ++ rest') :
    found.map shownMatch = found'.map shownMatch ∧ rest = rest' := by
  -- The lines of the text are not cut off by counting: `closes_inj` finds where they end.
  induction found generalizing found' with
  | nil =>
    cases found' with
    | nil => exact ⟨rfl, h⟩
    | cons n found' =>
      rw [List.flatMap_cons, List.flatMap_append,
        flatMap_pieces_matchLines (hfound' n List.mem_cons_self).language] at h
      obtain ⟨id, hid⟩ := hrest (matchHead n) (congrArg List.head? h)
      exact absurd hid (matchHead_ne_fileHead n id)
  | cons m found ih =>
    obtain ⟨hm, hfound⟩ := List.forall_mem_cons.mp hfound
    rw [List.flatMap_cons, List.flatMap_append, flatMap_pieces_matchLines hm.language] at h
    cases found' with
    | nil =>
      obtain ⟨id, hid⟩ := hrest' (matchHead m) (congrArg List.head? h.symm)
      exact absurd hid (matchHead_ne_fileHead m id)
    | cons n found' =>
      obtain ⟨hn, hfound'⟩ := List.forall_mem_cons.mp hfound'
      rw [List.flatMap_cons, List.flatMap_append, flatMap_pieces_matchLines hn.language] at h
      obtain ⟨hhead, h⟩ := List.cons.inj h
      obtain ⟨hlanguage, h⟩ := List.cons.inj h
      simp only [List.append_eq, List.append_assoc, List.cons_append, List.nil_append] at h
      obtain ⟨htext, h⟩ := closes_inj hm.text hn.text (opens_flatMap_matchLines hfound hrest)
        (opens_flatMap_matchLines hfound' hrest') h
      obtain ⟨htail, hrests⟩ := ih hfound hfound' h
      obtain ⟨hindex, hmethod, hscore⟩ := matchHead_inj hhead
      have hshown : shownMatch m = shownMatch n := by
        rw [List.append_cancel_left_eq, String.toList_inj] at hlanguage
        rw [String.toList_inj] at htext
        rw [shownMatch, shownMatch, hindex, hmethod, hscore, hlanguage, htext]
      exact ⟨by rw [List.map_cons, List.map_cons, hshown, htail], hrests⟩

/-- The lines of a file, one by one. -/
theorem flatMap_pieces_fileLines {f : FileMatches} (h : '\n' ∉ String.toList f.fileId) :
    (fileLines f).flatMap (pieces '\n') =
      fileHead f.fileId :: [] :: (f.found.flatMap matchLines).flatMap (pieces '\n') := by
  show pieces '\n' (fileHead f.fileId) ++ (pieces '\n' [] ++ _) = _
  rw [Text.pieces_of_not_mem (newline_not_mem_fileHead h), Text.pieces_of_not_mem List.not_mem_nil]
  rfl

/-- The files after the first are what the last match of a file is followed by. -/
theorem opens_flatMap_fileLines {files : List FileMatches} (hfiles : ∀ f ∈ files, FileTold f) :
    Opens (∃ id, · = fileHead id) ((files.flatMap fileLines).flatMap (pieces '\n')) := by
  cases files with
  | nil => exact fun line hline => absurd hline (by simp)
  | cons f files =>
    intro line hline
    rw [List.flatMap_cons, List.flatMap_append,
      flatMap_pieces_fileLines (hfiles f List.mem_cons_self).name] at hline
    exact ⟨f.fileId, (Option.some.inj hline).symm⟩

/-- Files and their matches can be told. -/
theorem fileLines_inj {files files' : List FileMatches} (hfiles : ∀ f ∈ files, FileTold f)
    (hfiles' : ∀ f ∈ files', FileTold f)
    (h : (files.flatMap fileLines).flatMap (pieces '\n') =
      (files'.flatMap fileLines).flatMap (pieces '\n')) :
    files.map (fun f => (f.fileId, f.found.map shownMatch)) =
      files'.map fun f => (f.fileId, f.found.map shownMatch) := by
  induction files generalizing files' with
  | nil =>
    -- A rendering with files begins with a heading, and one without them has no line.
    cases files' with
    | nil => rfl
    | cons g files' => exact absurd h (by simp [fileLines, Text.pieces_ne_nil])
  | cons f files ih =>
    cases files' with
    | nil => exact absurd h (by simp [fileLines, Text.pieces_ne_nil])
    | cons g files' =>
      obtain ⟨hf, hfiles⟩ := List.forall_mem_cons.mp hfiles
      obtain ⟨hg, hfiles'⟩ := List.forall_mem_cons.mp hfiles'
      rw [List.flatMap_cons, List.flatMap_cons, List.flatMap_append, List.flatMap_append,
        flatMap_pieces_fileLines hf.name, flatMap_pieces_fileLines hg.name] at h
      -- The heading tells the file. Its matches end where the next heading opens, and the induction
      -- goes on from there.
      obtain ⟨hhead, h⟩ := List.cons.inj h
      obtain ⟨hfound, h⟩ := foundLines_inj hf.found hg.found (opens_flatMap_fileLines hfiles)
        (opens_flatMap_fileLines hfiles') (List.cons.inj h).2
      rw [List.map_cons, List.map_cons, fileHead_inj hhead, hfound, ih hfiles hfiles' h]

/-! ### Whole texts -/

/-- The line over everything. -/
def titleLine : List Char := "## Code Context".toList

/-- The line that stands in the place of files. -/
def nothingLine : List Char := "No relevant code context found.".toList

/-- The lines of the question. -/
def questionLines (query : String) : List (List Char) :=
  if Text.trim query.toList = [] then [] else ["**Query:** ".toList ++ Text.trim query.toList, []]

/-- The lines of what was found. -/
def bodyLines (r : Retrieval) : List (List Char) :=
  (if r.isEmpty then [nothingLine, []] else []) ++ r.files.flatMap fileLines

/-- The rendering in four parts, of which only the third depends on what was retrieved. -/
theorem markdownLines_eq (r : Retrieval) (query : String) (issue? : Option IssueContext) :
    markdownLines r query issue? = titleLine :: [] ::
      (questionLines query ++ (bodyLines r ++ (issue?.map issueLines).getD [])) := by
  show [titleLine, []] ++ questionLines query ++ (if r.isEmpty then [nothingLine, []] else []) ++
    r.files.flatMap fileLines ++ (issue?.map issueLines).getD [] = _
  rw [bodyLines]
  simp only [List.append_assoc, List.cons_append, List.nil_append]

/-- Retrievals are written alike for a question and an issue exactly if the lines of what was
found are the same. -/
theorem text_markdown_eq_iff (r s : Retrieval) (query : String) (issue? : Option IssueContext) :
    text .markdown r query issue? = text .markdown s query issue? ↔
      (bodyLines r).flatMap (pieces '\n') = (bodyLines s).flatMap (pieces '\n') := by
  show String.ofList (glue '\n' (markdownLines r query issue?)) =
    String.ofList (glue '\n' (markdownLines s query issue?)) ↔ _
  rw [String.ofList_inj, ← Text.pieces_inj '\n', markdownLines_eq, markdownLines_eq,
    Text.pieces_glue_eq_flatMap (List.cons_ne_nil _ _),
    Text.pieces_glue_eq_flatMap (List.cons_ne_nil _ _)]
  simp only [List.flatMap_cons, List.flatMap_append, List.append_cancel_left_eq,
    List.append_cancel_right_eq]

/-- The lines of a match, from what is shown of it. -/
def ShownMatch.lines (m : ShownMatch) : List (List Char) :=
  [("_chunk " ++ toString m.index ++ " via " ++ m.method.tag ++ " (").toList ++
      m.score ++ [')', '_'],
    fence ++ m.language.toList, m.text.toList, fence, []]

/-- The lines of a file, from what is shown of it. -/
def shownFileLines (f : FileId × List ShownMatch) : List (List Char) :=
  fileHead f.1 :: [] :: f.2.flatMap ShownMatch.lines

/-- The lines are written from what is shown, so equal shows give equal lines. -/
theorem flatMap_fileLines (r : Retrieval) :
    r.files.flatMap fileLines = (shown r).flatMap shownFileLines := by
  rw [shown, List.flatMap_map]
  refine List.flatMap_congr fun f _ => ?_
  show _ = fileHead f.fileId :: [] :: (f.found.map shownMatch).flatMap ShownMatch.lines
  rw [List.flatMap_map]
  rfl

/-- Nothing is shown exactly when nothing was retrieved. -/
theorem shown_eq_nil_iff {r : Retrieval} : shown r = [] ↔ r.files = [] :=
  List.map_eq_nil_iff

/-- What was found is written by what is shown of it. -/
theorem bodyLines_eq_of_shown {r s : Retrieval} (h : shown r = shown s) :
    bodyLines r = bodyLines s := by
  have hempty : r.isEmpty = s.isEmpty := by
    rw [Bool.eq_iff_iff, Retrieval.isEmpty, Retrieval.isEmpty, List.isEmpty_iff, List.isEmpty_iff,
      ← shown_eq_nil_iff, ← shown_eq_nil_iff, h]
  -- A score is written with two decimals, so retrievals that differ behind them are alike here.
  rw [bodyLines, bodyLines, hempty, flatMap_fileLines, flatMap_fileLines, h]

/-- An empty retrieval says so in its first line, which is no heading. -/
theorem head?_flatMap_bodyLines_of_nil {r : Retrieval} (h : r.files = []) :
    ((bodyLines r).flatMap (pieces '\n')).head? = some nothingLine := by
  have hline : '\n' ∉ nothingLine := by decide
  rw [bodyLines, Retrieval.isEmpty, h, List.isEmpty_nil, if_pos rfl]
  simp [Text.pieces_of_not_mem hline]

/-- Otherwise the body is the lines of the files. -/
theorem flatMap_bodyLines_of_ne_nil {r : Retrieval} (h : r.files ≠ []) :
    (bodyLines r).flatMap (pieces '\n') = (r.files.flatMap fileLines).flatMap (pieces '\n') := by
  rw [bodyLines, Retrieval.isEmpty, if_neg (by simpa using h), List.nil_append]

/-- A retrieval with files is written otherwise than one without. -/
theorem files_ne_nil_of_bodyLines {r s : Retrieval} (hr : ∀ f ∈ r.files, FileTold f)
    (h : (bodyLines r).flatMap (pieces '\n') = (bodyLines s).flatMap (pieces '\n'))
    (hne : r.files ≠ []) : s.files ≠ [] := by
  intro hnil
  have hhead := head?_flatMap_bodyLines_of_nil hnil
  rw [← h, flatMap_bodyLines_of_ne_nil hne] at hhead
  obtain ⟨id, hid⟩ := opens_flatMap_fileLines hr nothingLine hhead
  have hchar := congrArg List.head? hid
  rw [head?_fileHead] at hchar
  exact absurd hchar (by decide)

/-- What was found can be told if every file can. -/
theorem shown_eq_of_bodyLines {r s : Retrieval} (hr : ∀ f ∈ r.files, FileTold f)
    (hs : ∀ f ∈ s.files, FileTold f)
    (h : (bodyLines r).flatMap (pieces '\n') = (bodyLines s).flatMap (pieces '\n')) :
    shown r = shown s := by
  by_cases hne : r.files = []
  · have hne' : s.files = [] := by
      by_contra hne'
      exact files_ne_nil_of_bodyLines hs h.symm hne' hne
    rw [shown_eq_nil_iff.mpr hne, shown_eq_nil_iff.mpr hne']
  · have hne' := files_ne_nil_of_bodyLines hr h hne
    rw [flatMap_bodyLines_of_ne_nil hne, flatMap_bodyLines_of_ne_nil hne'] at h
    exact fileLines_inj hr hs h

/-! ### Matches inside of a text -/

/-- A match whose text holds the text of a match, the end of its fence, and another match up to the
end of its text. -/
def swallow (m n : RetrievalMatch) : RetrievalMatch :=
  { m with text := String.ofList (glue '\n'
      [m.text.toList, fence, [], matchHead n, fence ++ n.language.toList, n.text.toList]) }

/-- A match that swallows another one prints the lines of both: its text goes on through the first
one's closing fence and the second one's heading. -/
theorem flatMap_pieces_swallow (m n : RetrievalMatch) :
    (matchLines (swallow m n)).flatMap (pieces '\n') =
      (matchLines m).flatMap (pieces '\n') ++ (matchLines n).flatMap (pieces '\n') := by
  have htext : pieces '\n' (swallow m n).text.toList =
      [m.text.toList, fence, [], matchHead n, fence ++ n.language.toList,
        n.text.toList].flatMap (pieces '\n') := by
    rw [swallow, String.toList_ofList, Text.pieces_glue_eq_flatMap (List.cons_ne_nil _ _)]
  have hlines : ∀ m, matchLines m =
      [matchHead m, fence ++ m.language.toList, m.text.toList, fence, []] := fun _ => rfl
  have hhead : matchHead (swallow m n) = matchHead m := rfl
  have hlanguage : (swallow m n).language = m.language := rfl
  rw [hlines, hlines, hlines, hhead, hlanguage]
  simp only [List.flatMap_cons, List.flatMap_nil, htext, List.append_assoc, List.append_nil]

/-- Two neighbouring matches of a file are written like one match. -/
theorem text_markdown_swallow (m n : RetrievalMatch) (id : FileId)
    (before behind : List RetrievalMatch) (files files' : List FileMatches)
    (diagnostics diagnostics' : List Diagnostic) (query : String) (issue? : Option IssueContext) :
    text .markdown ⟨files ++ ⟨id, before ++ swallow m n :: behind⟩ :: files', diagnostics⟩ query
        issue? =
      text .markdown ⟨files ++ ⟨id, before ++ m :: n :: behind⟩ :: files', diagnostics'⟩ query
        issue? := by
  have hfile : ∀ found, fileLines ⟨id, found⟩ =
      [fileHead id, []] ++ found.flatMap matchLines := fun _ => rfl
  rw [text_markdown_eq_iff, flatMap_bodyLines_of_ne_nil (by simp),
    flatMap_bodyLines_of_ne_nil (by simp)]
  simp only [List.flatMap_append, List.flatMap_cons, hfile, flatMap_pieces_swallow,
    List.append_assoc]

/-- **What a retrieval in Markdown tells.** Take any question and issue. Retrievals in which no name
and no language tag has a line break and no text breaks out of its fence are written alike exactly
if they show the same files in the same order, each with the same chunks, methods, scores with two
decimals, languages and texts in the same order. Where a text breaks out nothing can be told: any
two neighbouring matches of a file are written like one match whose text holds the lines between
the two. -/
theorem markdown_eq_iff (query : String) (issue? : Option IssueContext) :
    (∀ r s : Retrieval, (∀ f ∈ r.files, FileTold f) → (∀ f ∈ s.files, FileTold f) →
      (text .markdown r query issue? = text .markdown s query issue? ↔ shown r = shown s)) ∧
    ∀ (m n : RetrievalMatch) (id : FileId) (before behind : List RetrievalMatch)
      (files files' : List FileMatches) (diagnostics diagnostics' : List Diagnostic),
      text .markdown ⟨files ++ ⟨id, before ++ swallow m n :: behind⟩ :: files', diagnostics⟩ query
          issue? =
        text .markdown ⟨files ++ ⟨id, before ++ m :: n :: behind⟩ :: files', diagnostics'⟩ query
          issue? := by
  refine ⟨fun r s hr hs => ?_, fun m n id before behind files files' diagnostics diagnostics' =>
    text_markdown_swallow m n id before behind files files' diagnostics diagnostics' query issue?⟩
  rw [text_markdown_eq_iff]
  exact ⟨shown_eq_of_bodyLines hr hs, fun h => by rw [bodyLines_eq_of_shown h]⟩

/-- A file in Markdown with a fence of its own, an empty line inside of it, is told from one that
goes on with another empty line. -/
theorem markdown_eq_iff_own_fence :
    let one : RetrievalMatch := ⟨"a.md", 0, "Usage:\n```\n\nrun\n```\n", .one, "md", .keyword⟩
    let other : RetrievalMatch := { one with text := "Usage:\n```\n\nrun\n```\n\n" }
    text .markdown ⟨[⟨"a.md", [one]⟩], []⟩ "run" none ≠
      text .markdown ⟨[⟨"a.md", [other]⟩], []⟩ "run" none := by
  intro one other h
  have hone : FileTold ⟨"a.md", [one]⟩ :=
    ⟨by decide, by
      simp only [List.forall_mem_singleton]
      exact ⟨by decide, not_breaksOut_of_head? (by decide)⟩⟩
  have hother : FileTold ⟨"a.md", [other]⟩ :=
    ⟨by decide, by
      simp only [List.forall_mem_singleton]
      exact ⟨by decide, not_breaksOut_of_head? (by decide)⟩⟩
  -- Neither text breaks out, so equal renderings would show equal texts.
  have hshown := ((markdown_eq_iff "run" none).1 ⟨[⟨"a.md", [one]⟩], []⟩ ⟨[⟨"a.md", [other]⟩], []⟩
    (by simpa using hone) (by simpa using hother)).mp h
  exact absurd hshown (by decide)

/-- One file in Markdown whose text breaks out is written like a file with two matches. -/
theorem markdown_ambiguous :
    let long : RetrievalMatch :=
      ⟨"a.md", 0, "one\n```\n\n_chunk 1 via keyword (1.00)_\n```md\ntwo", .one, "md", .keyword⟩
    let first : RetrievalMatch := ⟨"a.md", 0, "one", .one, "md", .keyword⟩
    let second : RetrievalMatch := ⟨"a.md", 1, "two", .one, "md", .keyword⟩
    text .markdown ⟨[⟨"a.md", [long]⟩], []⟩ "fences" none =
        text .markdown ⟨[⟨"a.md", [first, second]⟩], []⟩ "fences" none ∧
      [long].map (fun m => (m.chunkIndex, m.method, m.language, m.text)) ≠
        [first, second].map fun m => (m.chunkIndex, m.method, m.language, m.text) := by
  intro long first second
  have hlong : long = swallow first second := by decide
  refine ⟨?_, by decide⟩
  rw [hlong]
  exact text_markdown_swallow first second "a.md" [] [] [] [] [] [] "fences" none

end Context

end CodeAtlas
