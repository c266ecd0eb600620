import CodeAtlas.Graph.Resolve
import CodeAtlas.Proofs.FileId.Spelling

/-!
# `CodeAtlas.Proofs.Graph.Resolve`: what the path of an import means

A path is followed from the importing file's directory, and the first file wins that stands where
it leads: with one of the usual endings, or as the index file of a directory there. The theorems:

* `resolve_eq`, `direct?_eq`: the steps of a resolution, one after the other.
* `clean_eq_self`, `clean_append`: what cleaning leaves of a path.
* `find?_withEnding_iff`: a file is found by its ending if none with an ending before it exists.
* `resolve_any_spelling`: all spellings of a path without extension mean the same file, and so does
  each of them with an extension that is stripped.
* `resolve_full_name_iff`: a path with the full name of a file means this file exactly if it is not
  `Shadowed`. If it is, an extension was stripped that was needed to tell it from others.
* `resolve_index_file`: a path to a directory means its index file, but a path to the root means
  nothing, because the root has no id.
-/

set_option autoImplicit false

namespace CodeAtlas.Resolve

/-- The id of a path with an ending behind it. -/
def withEnding (base ending : List Char) : FileId :=
  String.ofList (base ++ ending)

/-- The id of the file with a name in a directory, which is given by its names. -/
def fileIn (dir : List (List Char)) (name : List Char) : FileId :=
  String.ofList (Text.glue '/' (dir ++ [name]))

/-- The endings that are tried before a given one. -/
def endingsBefore (ending : List Char) : List (List Char) :=
  endings.takeWhile (· ≠ ending)

/-- Whether a path with the full name of a file means another file or none: the extension is
stripped, and either no name is left of the file's name, or another file has the path with an ending
before the one of the file. -/
def Shadowed (files : FileSet) (id : FileId) : Prop :=
  FileId.extensionChars id.toList ∈ strippable ∧
    (¬FileId.IsName (FileId.stemChars id.toList) ∨
      ∃ e ∈ endingsBefore ('.' :: FileId.extensionChars id.toList),
        files.contains (withEnding (withoutExtension id.toList) e) = true)

instance (files : FileSet) (id : FileId) : Decidable (Shadowed files id) :=
  inferInstanceAs (Decidable (_ ∧ _))

variable {files : FileSet} {importer id target : FileId} {modulePath : String}
  {base cleaned ending ext : List Char}

/-! ### Steps of a resolution -/

/-- Files are looked for where the path leads first, and then by name. -/
theorem resolve_eq :
    resolve modulePath importer files =
      if clean modulePath.toList = [] then none
      else (direct? (clean modulePath.toList) importer files).or
        (byName? (clean modulePath.toList) importer files) := by
  rw [resolve]
  split
  · rfl
  · cases direct? (clean modulePath.toList) importer files with
    | none => rw [Option.none_or]
    | some id => rw [Option.some_or]

/-- The candidates for the place to which the path leads are tried, if there is one. -/
theorem direct?_eq :
    direct? cleaned importer files =
      (FileId.joinChars? (FileId.parentChars importer.toList) cleaned).bind fun base =>
        (candidates base).find? files.contains := by
  rw [direct?]
  cases FileId.joinChars? (FileId.parentChars importer.toList) cleaned <;> rfl

/-- Where a path spells an id, the candidates for the id are tried. -/
theorem direct?_of_spells (h : FileId.Spells (FileId.parentChars importer.toList) cleaned base) :
    direct? cleaned importer files = (candidates base).find? files.contains := by
  rw [direct?_eq, h.joinChars?_eq, Option.bind_some]

/-- A path that does not end with a name is not looked for by name. -/
theorem byName?_of_not_isName (h : ¬FileId.IsName (FileId.nameChars cleaned)) :
    byName? cleaned importer files = none := by
  have hstem := FileId.not_isName_stemChars h
  rw [byName?, if_pos]
  simp only [FileId.IsName] at hstem
  tauto

/-! ### Cleaning -/

/-- An extension that is stripped has no slash and no dot, does not end with a blank, and is one of
those that are tried. -/
theorem of_mem_strippable (h : ext ∈ strippable) :
    '/' ∉ ext ∧ '.' ∉ ext ∧ Text.Trimmed ('.' :: ext) ∧ '.' :: ext ∈ endings := by
  revert ext
  decide

/-- The extensions that are stripped are not empty, so stripping one makes a name shorter. -/
theorem ne_nil_of_mem_strippable (h : ext ∈ strippable) : ext ≠ [] := by
  rintro rfl
  exact absurd h (by decide)

/-- A path without blanks around it and without an extension to strip stays as it is. -/
theorem clean_eq_self (h : Text.Trimmed cleaned)
    (hext : FileId.extensionChars cleaned ∉ strippable) : clean cleaned = cleaned := by
  rw [clean, h.trim_eq, dropExtension, if_neg]
  simpa using hext

/-- An extension is dropped from behind a name. -/
theorem dropExtension_append {wanted : List Char → Bool} (hbase : FileId.nameChars base ≠ [])
    (hslash : '/' ∉ ext) (hdot : '.' ∉ ext) (hwanted : wanted ext = true) :
    dropExtension wanted (base ++ '.' :: ext) = base := by
  rw [dropExtension, (FileId.extensionChars_append hbase hslash hdot).1, if_pos hwanted]
  have hlength : (base ++ '.' :: ext).length - ext.length - 1 = base.length := by
    rw [List.length_append, List.length_cons]
    omega
  rw [hlength, List.take_left]

/-- An extension that can be stripped is. -/
theorem clean_append (h : Text.Trimmed (base ++ '.' :: ext)) (hbase : FileId.nameChars base ≠ [])
    (hext : ext ∈ strippable) : clean (base ++ '.' :: ext) = base := by
  obtain ⟨hslash, hdot, -, -⟩ := of_mem_strippable hext
  rw [clean, h.trim_eq]
  exact dropExtension_append hbase hslash hdot (by simpa using hext)

/-! ### Candidates -/

/-- An id that ends so is the candidate with that ending. -/
theorem withEnding_eq (h : target.toList = base ++ ending) : withEnding base ending = target := by
  rw [withEnding, ← h, String.ofList_toList]

/-- An element is the first that passes a test exactly if nothing before it does. -/
theorem find?_eq_some_iff_takeWhile {α : Type} [DecidableEq α] {p : α → Bool} {l : List α} {a : α}
    (ha : a ∈ l) (hp : p a = true) :
    l.find? p = some a ↔ ∀ b ∈ l.takeWhile (· ≠ a), p b = false := by
  induction l with
  | nil => exact absurd ha List.not_mem_nil
  | cons b l ih =>
    by_cases hab : b = a
    · simp [hab, hp]
    · have hmem : a ∈ l := (List.mem_cons.mp ha).resolve_left (Ne.symm hab)
      rw [List.takeWhile_cons_of_pos (by simpa using hab), List.forall_mem_cons, ← ih hmem]
      cases hb : p b with
      | true => simp [hb, hab]
      | false => simp [hb]

/-- The candidates of a base come in two parts: the base with each ending, and then the index files
in the directory of its name. -/
theorem candidates_eq (base : List Char) :
    candidates base = endings.map (withEnding base) ++
      indexNames.map fun name => String.ofList (base ++ '/' :: name) :=
  rfl

/-- A file is found by its ending if none with an ending before it exists. -/
theorem find?_withEnding_iff (hending : ending ∈ endings)
    (hexists : files.contains (withEnding base ending) = true) :
    (endings.map (withEnding base)).find? files.contains = some (withEnding base ending) ↔
      ∀ e ∈ endingsBefore ending, files.contains (withEnding base e) = false := by
  have hinj : Function.Injective (withEnding base) := by
    intro a b h
    exact List.append_cancel_left (String.ofList_injective h)
  rw [List.find?_map, Option.map_eq_some_iff]
  simp only [hinj.eq_iff, exists_eq_right]
  exact find?_eq_some_iff_takeWhile hending hexists

/-! ### Spellings of one file -/

/-- Where a cleaned path spells an id and a file exists that has the id and one of the endings, the
first such file is meant. -/
theorem resolve_of_spells
    (hspells : FileId.Spells (FileId.parentChars importer.toList) (clean modulePath.toList) base)
    (hending : ending ∈ endings) (hexists : files.contains (withEnding base ending) = true) :
    resolve modulePath importer files = (endings.map (withEnding base)).find? files.contains := by
  have hne : clean modulePath.toList ≠ [] := by
    intro hnil
    have hname := hspells.name
    rw [hnil] at hname
    exact hspells.name_ne_nil hname.symm
  have hsome : ((endings.map (withEnding base)).find? files.contains).isSome = true := by
    rw [List.find?_isSome]
    exact ⟨_, List.mem_map_of_mem hending, hexists⟩
  -- A file with an ending comes before every index file and before the search by name.
  rw [resolve_eq, if_neg hne, direct?_of_spells hspells, candidates_eq, List.find?_append,
    Option.or_of_isSome hsome, Option.or_of_isSome hsome]

/-- It is the one with a given ending if there is none with an ending before it. -/
theorem resolve_of_first
    (hspells : FileId.Spells (FileId.parentChars importer.toList) (clean modulePath.toList) base)
    (hending : ending ∈ endings) (hexists : files.contains (withEnding base ending) = true)
    (hfirst : ∀ e ∈ endingsBefore ending, files.contains (withEnding base e) = false) :
    resolve modulePath importer files = some (withEnding base ending) := by
  rw [resolve_of_spells hspells hending hexists]
  exact (find?_withEnding_iff hending hexists).mpr hfirst

/-- **All spellings of a path mean the same file.** Take a file whose id is a path and one of the
usual endings, such that no file has the path with an ending before it. However a text spells the
path from the importing file, it means this file, and so it does with any extension behind it that
is stripped. -/
theorem resolve_any_spelling (hending : ending ∈ endings)
    (hexists : files.contains (withEnding base ending) = true)
    (hfirst : ∀ e ∈ endingsBefore ending, files.contains (withEnding base e) = false)
    (hext : FileId.extensionChars base ∉ strippable) (htrimmed : Text.Trimmed modulePath.toList)
    (hspells : FileId.Spells (FileId.parentChars importer.toList) modulePath.toList base) :
    resolve modulePath importer files = some (withEnding base ending) ∧
      ∀ ext ∈ strippable, resolve (modulePath ++ "." ++ String.ofList ext) importer files =
        some (withEnding base ending) := by
  -- Only what is left of a text after cleaning matters, and that is the same text in both cases.
  have hresolve : ∀ m : String, clean m.toList = modulePath.toList →
      resolve m importer files = some (withEnding base ending) := by
    intro m hclean
    exact resolve_of_first (hclean ▸ hspells) hending hexists hfirst
  constructor
  · refine hresolve _ (clean_eq_self htrimmed ?_)
    rwa [FileId.extensionChars, hspells.name]
  · intro ext hmem
    have hname : FileId.nameChars modulePath.toList ≠ [] := hspells.name ▸ hspells.name_ne_nil
    obtain ⟨-, -, hdotted, -⟩ := of_mem_strippable hmem
    exact hresolve _ (by simpa using clean_append (htrimmed.append hdotted) hname hmem)

/-- A detour, a slash too many, and an extension that the file does not have. -/
theorem resolve_any_spelling_detour :
    let files : FileSet := ⟨["src/lib/v1.2.py", "src/lib/v1.2.ts", "src/lib/v1.js"]⟩
    ".ts".toList ∈ endings ∧ files.contains (withEnding "src/lib/v1.2".toList ".ts".toList) = true ∧
      (∀ e ∈ endingsBefore ".ts".toList,
        files.contains (withEnding "src/lib/v1.2".toList e) = false) ∧
      FileId.extensionChars "src/lib/v1.2".toList ∉ strippable ∧
      Text.Trimmed "../ui/./..//lib/v1.2".toList ∧
      FileId.Spells (FileId.parentChars "src/ui/app.js".toList) "../ui/./..//lib/v1.2".toList
        "src/lib/v1.2".toList ∧
      resolve "../ui/./..//lib/v1.2" "src/ui/app.js" files = some "src/lib/v1.2.ts" ∧
      resolve "../ui/./..//lib/v1.2.js" "src/ui/app.js" files = some "src/lib/v1.2.ts" := by
  intro files
  have hending : ".ts".toList ∈ endings := by decide
  have hexists : files.contains (withEnding "src/lib/v1.2".toList ".ts".toList) = true := by decide
  have hfirst : ∀ e ∈ endingsBefore ".ts".toList,
      files.contains (withEnding "src/lib/v1.2".toList e) = false := by decide
  have hext : FileId.extensionChars "src/lib/v1.2".toList ∉ strippable := by decide
  have htrimmed : Text.Trimmed "../ui/./..//lib/v1.2".toList := by decide
  have hspells : FileId.Spells (FileId.parentChars "src/ui/app.js".toList)
      "../ui/./..//lib/v1.2".toList "src/lib/v1.2".toList := by decide
  obtain ⟨hplain, hwith⟩ := resolve_any_spelling hending hexists hfirst hext htrimmed hspells
  exact ⟨hending, hexists, hfirst, hext, htrimmed, hspells, hplain, hwith "js".toList (by decide)⟩

/-! ### Full names -/

/-- A candidate has as many segments as the path, or it is an index file behind the path. -/
theorem pieces_of_mem_candidates {goal : List (List Char)} (hne : goal ≠ [])
    (hnames : ∀ name ∈ goal, '/' ∉ name) (h : id ∈ candidates (Text.glue '/' goal)) :
    (Text.pieces '/' id.toList).length = goal.length ∨
      ∃ name ∈ indexNames, Text.pieces '/' id.toList = goal ++ [name] := by
  have hendings : ∀ e ∈ endings, '/' ∉ e := by decide
  have hindexes : ∀ name ∈ indexNames, '/' ∉ name := by decide
  have hpieces := Text.pieces_glue hne hnames
  rw [candidates_eq, List.mem_append, List.mem_map, List.mem_map] at h
  rcases h with ⟨e, he, rfl⟩ | ⟨name, hname, rfl⟩
  · -- An ending goes to the last name and adds no segment.
    left
    rcases List.eq_nil_or_concat goal with rfl | ⟨front, last, rfl⟩
    · exact absurd rfl hne
    · rw [List.concat_eq_append] at hpieces ⊢
      rw [withEnding, String.toList_ofList, Text.pieces_append_of_not_mem hpieces (hendings e he)]
      simp
  · right
    refine ⟨name, hname, ?_⟩
    rw [String.toList_ofList, Text.pieces_append_sep, hpieces,
      Text.pieces_of_not_mem (hindexes name hname)]

/-- A path that is left without a last name does not lead to a file in the directory before it. -/
theorem resolve_ne_of_not_isName {front above : List (List Char)} {stem name : List Char}
    (hfront : FileId.Leads (FileId.segments (FileId.parentChars importer.toList)) front above)
    (hclean : Text.pieces '/' (clean modulePath.toList) = front ++ [stem])
    (hstem : ¬FileId.IsName stem) (hid : Text.pieces '/' id.toList = above ++ [name])
    (hname : name ∉ indexNames) : resolve modulePath importer files ≠ some id := by
  rw [resolve_eq]
  split
  · simp
  have hlast : FileId.nameChars (clean modulePath.toList) = stem := by
    obtain ⟨front', h⟩ := FileId.exists_pieces_eq_concat (clean modulePath.toList)
    exact (List.append_singleton_inj.mp (h.symm.trans hclean)).2
  rw [byName?_of_not_isName (by rwa [hlast]), Option.or_none, direct?_eq, Ne,
    Option.bind_eq_some_iff]
  rintro ⟨base, hjoin, hfind⟩
  obtain ⟨goal, hleads, hne, rfl⟩ := FileId.joinChars?_eq_some_iff.mp hjoin
  have hfree : ∀ name ∈ goal, '/' ∉ name := fun name hmem => (hleads.names name hmem).2
  rw [hclean] at hleads
  -- The path is not longer than the directory, and the file's name is no index name.
  have hprefix := (hfront.prefix_of_not_isName hleads hstem).length_le
  rcases pieces_of_mem_candidates hne hfree (List.mem_of_find?_eq_some hfind) with
    hlength | ⟨index, hindex, hpieces⟩
  · rw [hid, List.length_append, List.length_singleton] at hlength
    omega
  · rw [hid] at hpieces
    rw [(List.append_singleton_inj.mp hpieces).2] at hname
    exact hname hindex

/-- A path that begins with a step from the directory and spells the id of a file has no blanks
around it. -/
theorem trimmed_of_spells {dir path : List Char} (hid : FileId.Canonical id)
    (hfront : ['.', '/'] <+: path ∨ ['.', '.', '/'] <+: path)
    (hspells : FileId.Spells dir path id.toList) : Text.Trimmed path := by
  -- The path begins with a dot and ends as the id does, and ids are trimmed.
  have hlast : path.getLast? = id.toList.getLast? := by
    have hname : FileId.nameChars path ≠ [] := hspells.name ▸ hspells.name_ne_nil
    rw [← FileId.getLast?_nameChars hname, ← FileId.getLast?_nameChars hspells.name_ne_nil,
      hspells.name]
  have hhead : path.head? = some '.' := by
    rcases hfront with ⟨rest, rfl⟩ | ⟨rest, rfl⟩ <;> rfl
  refine ⟨?_, ?_, ?_⟩
  · rintro rfl
    simp at hhead
  · intro c hc
    obtain rfl := Option.some.inj (hhead.symm.trans hc)
    decide
  · rw [hlast]
    exact hid.trimmed.last

/-- The parts of an id with an extension that is stripped. -/
theorem parts_of_append (hname : FileId.nameChars base ≠ []) (hext : ext ∈ strippable) :
    FileId.extensionChars (base ++ '.' :: ext) = ext ∧
      FileId.stemChars (base ++ '.' :: ext) = FileId.nameChars base ∧
        withoutExtension (base ++ '.' :: ext) = base := by
  obtain ⟨hslash, hdot, -, -⟩ := of_mem_strippable hext
  obtain ⟨hextension, hstem⟩ := FileId.extensionChars_append hname hslash hdot
  have hwanted := decide_eq_true (ne_nil_of_mem_strippable hext)
  exact ⟨hextension, hstem, dropExtension_append hname hslash hdot hwanted⟩

/-- No index file has a name that is a segment without a name and more behind it. -/
theorem append_not_mem_indexNames {segment behind : List Char} (hne : segment ≠ [])
    (h : ¬FileId.IsName segment) : segment ++ behind ∉ indexNames := by
  have hall : ∀ name ∈ indexNames, name.head? ≠ some '.' := by decide
  have hdot : (segment ++ behind).head? = some '.' := by
    have hcases : segment = ['.'] ∨ segment = ['.', '.'] := by
      simp only [FileId.IsName] at h
      tauto
    rcases hcases with rfl | rfl <;> rfl
  exact fun hmem => hall _ hmem hdot

/-- A path with the full name of a file whose extension is stripped: the first file with the rest of
the path and an ending is meant, unless the rest has no name at its end. -/
theorem resolve_stripped (hid : target.toList = base ++ '.' :: ext)
    (hname : FileId.nameChars base ≠ []) (hext : ext ∈ strippable)
    (hexists : files.contains target = true)
    (htarget : FileId.IsName (FileId.nameChars target.toList))
    (htrimmed : Text.Trimmed modulePath.toList)
    (hspells : FileId.Spells (FileId.parentChars importer.toList) modulePath.toList
      target.toList) :
    if FileId.IsName (FileId.nameChars base) then
      resolve modulePath importer files =
        (endings.map (withEnding base)).find? files.contains
    else resolve modulePath importer files ≠ some target := by
  obtain ⟨hslash, hdot, -, hending⟩ := of_mem_strippable hext
  have hbehind : '/' ∉ '.' :: ext := by simp [hslash]
  -- The path ends with the same extension, and loses it.
  have hsame : FileId.extensionChars modulePath.toList = ext := by
    rw [FileId.extensionChars, hspells.name, hid]
    exact (FileId.extensionChars_append hname hslash hdot).1
  obtain ⟨path, hpath, hpathName⟩ : ∃ path, modulePath.toList = path ++ '.' :: ext ∧
      FileId.nameChars path ≠ [] := by
    rw [← hsame] at hext ⊢
    exact FileId.exists_append_extension (ne_nil_of_mem_strippable hext)
  have hclean : clean modulePath.toList = path := by
    rw [hpath] at htrimmed ⊢
    exact clean_append htrimmed hpathName hext
  rw [hpath, hid] at hspells
  rw [hid] at htarget
  split
  · rename_i hstem
    have hspells' := hspells.of_append hbehind htarget hstem
    refine resolve_of_spells (hclean ▸ hspells') hending ?_
    rwa [withEnding_eq hid]
  · rename_i hstem
    obtain ⟨front, above, hfront, habove, hleads⟩ := hspells.exists_front hbehind htarget
    have hpieces := Text.pieces_append_of_not_mem habove hbehind
    exact resolve_ne_of_not_isName hleads (hclean ▸ hfront) hstem (hid ▸ hpieces)
      (append_not_mem_indexNames hname hstem)

/-- A path with the full name of a file whose extension is not stripped means this file. -/
theorem resolve_unstripped (hext : FileId.extensionChars target.toList ∉ strippable)
    (hexists : files.contains target = true) (htrimmed : Text.Trimmed modulePath.toList)
    (hspells : FileId.Spells (FileId.parentChars importer.toList) modulePath.toList
      target.toList) :
    resolve modulePath importer files = some target := by
  have hclean : clean modulePath.toList = modulePath.toList := by
    refine clean_eq_self htrimmed ?_
    rwa [FileId.extensionChars, hspells.name]
  -- The id itself is the first candidate.
  have hself : withEnding target.toList [] = target := withEnding_eq (by simp)
  have hbare : [] ∈ endings := by decide
  rw [← hclean] at hspells
  have hfirst := resolve_of_first hspells hbare (hself.symm ▸ hexists) fun e he =>
    absurd he List.not_mem_nil
  rwa [hself] at hfirst

/-- **A path with the full name of a file means this file unless the file is shadowed.** Take a file
whose id is written as ids of files are, and a path that begins with `./` or `../` and spells the
id from the importing file. It means the file exactly if nothing shadows it. As long as a name is
left without the extension, it means the first file that has an ending behind this name. -/
theorem resolve_full_name_iff (hexists : files.contains target = true)
    (hid : FileId.Canonical target)
    (hfront : ['.', '/'] <+: modulePath.toList ∨ ['.', '.', '/'] <+: modulePath.toList)
    (hspells : FileId.Spells (FileId.parentChars importer.toList) modulePath.toList
      target.toList) :
    (resolve modulePath importer files = some target ↔ ¬Shadowed files target) ∧
      (FileId.extensionChars target.toList ∈ strippable →
        FileId.IsName (FileId.stemChars target.toList) →
          resolve modulePath importer files =
            (endings.map (withEnding (withoutExtension target.toList))).find? files.contains) := by
  have htrimmed := trimmed_of_spells hid hfront hspells
  by_cases hext : FileId.extensionChars target.toList ∈ strippable
  · obtain ⟨base, hbase, hname⟩ :=
      FileId.exists_append_extension (ne_nil_of_mem_strippable hext)
    have hstripped := resolve_stripped hbase hname hext hexists
      (hid.names _ (FileId.nameChars_mem_pieces _)) htrimmed hspells
    obtain ⟨-, hstem, hbare⟩ := parts_of_append hname hext
    rw [← hbase] at hstem hbare
    rw [Shadowed, hstem, hbare]
    -- What is left without the extension may be `.` or `..`. The path is then taken for one to a
    -- directory, and does not mean the file.
    by_cases hstemName : FileId.IsName (FileId.nameChars base)
    · obtain ⟨-, -, -, hending⟩ := of_mem_strippable hext
      have hself := withEnding_eq hbase
      have hfirst := find?_withEnding_iff hending (hself.symm ▸ hexists)
      rw [if_pos hstemName] at hstripped
      rw [hself] at hfirst
      rw [hstripped, hfirst]
      refine ⟨?_, fun _ _ => rfl⟩
      simp [hext, hstemName]
    · rw [if_neg hstemName] at hstripped
      exact ⟨iff_of_false hstripped (not_not.mpr ⟨hext, .inl hstemName⟩),
        fun _ h => absurd h hstemName⟩
  · have hresolve := resolve_unstripped hext hexists htrimmed hspells
    exact ⟨iff_of_true hresolve fun h => hext h.1, fun h => absurd h hext⟩

/-- A file with two siblings, of which one has an ending that is tried later. -/
theorem resolve_full_name_iff_siblings :
    let files : FileSet := ⟨["src/b.mjs", "src/b.ts", "src/b.x.js"]⟩
    files.contains "src/b.ts" = true ∧ FileId.Canonical "src/b.ts" ∧
      ['.', '.', '/'] <+: "../src/b.ts".toList ∧
      FileId.Spells (FileId.parentChars "src/m.js".toList) "../src/b.ts".toList
        "src/b.ts".toList ∧
      resolve "../src/b.ts" "src/m.js" files = some "src/b.ts" := by
  intro files
  have hexists : files.contains "src/b.ts" = true := by decide
  have hid : FileId.Canonical "src/b.ts" := by decide
  have hfront : ['.', '.', '/'] <+: "../src/b.ts".toList := by decide
  have hspells : FileId.Spells (FileId.parentChars "src/m.js".toList) "../src/b.ts".toList
      "src/b.ts".toList := by decide
  refine ⟨hexists, hid, hfront, hspells, ?_⟩
  exact (resolve_full_name_iff hexists hid (.inr hfront) hspells).1.mpr (by decide)

/-- Of two siblings the one with the ending that is tried first is meant, although the path has the
full name of the other one. -/
theorem resolve_full_name_fails :
    let files : FileSet := ⟨["src/a.js", "src/a.ts", "src/m.js"]⟩
    (∀ id ∈ files.ids, FileId.Canonical id) ∧ files.contains "src/a.ts" = true ∧
      ['.', '/'] <+: "./a.ts".toList ∧
      FileId.Spells (FileId.parentChars "src/m.js".toList) "./a.ts".toList "src/a.ts".toList ∧
      resolve "./a.ts" "src/m.js" files = some "src/a.js" := by
  decide

/-! ### Index files -/

/-- **A path to a directory means the directory's index file, but not at the root.** Take a path
without blanks around it and without an extension to strip that leads from the importing file to a
directory, such that no file has the directory's id or an ending behind it. If the directory has
index files, the first of them is meant, unless the directory is the root: then the path means
nothing. -/
theorem resolve_index_file {dir : List (List Char)} (htrimmed : Text.Trimmed modulePath.toList)
    (hext : FileId.extensionChars modulePath.toList ∉ strippable)
    (hleads : FileId.Leads (FileId.segments (FileId.parentChars importer.toList))
      (Text.pieces '/' modulePath.toList) dir)
    (hfree : ∀ e ∈ endings, files.contains (withEnding (Text.glue '/' dir) e) = false)
    (hindex : ∃ name ∈ indexNames, files.contains (fileIn dir name) = true) :
    ∃ id, (indexNames.map (fileIn dir)).find? files.contains = some id ∧
      resolve modulePath importer files = if dir = [] then none else some id := by
  have hclean := clean_eq_self htrimmed hext
  obtain ⟨id, hid⟩ : ∃ id, (indexNames.map (fileIn dir)).find? files.contains = some id := by
    rw [← Option.isSome_iff_exists, List.find?_isSome]
    obtain ⟨name, hname, hexists⟩ := hindex
    exact ⟨_, List.mem_map_of_mem hname, hexists⟩
  refine ⟨id, hid, ?_⟩
  rw [resolve_eq, hclean, if_neg htrimmed.ne_nil, direct?_eq, FileId.joinChars?_of_leads hleads]
  split
  · -- Nothing is reached, and a path to the root has no name at its end to look for.
    rename_i hroot
    obtain ⟨front, hpieces⟩ := FileId.exists_pieces_eq_concat modulePath.toList
    rw [hroot, hpieces] at hleads
    exact byName?_of_not_isName (FileId.not_isName_of_leads_nil hleads)
  · rename_i hne
    have hcandidates : (candidates (Text.glue '/' dir)).find? files.contains = some id := by
      -- Files with the directory's id come first, and there are none.
      have hnone : (endings.map (withEnding (Text.glue '/' dir))).find? files.contains = none := by
        rw [List.find?_eq_none]
        rintro _ hmem
        obtain ⟨e, he, rfl⟩ := List.mem_map.mp hmem
        rw [hfree e he]
        exact Bool.false_ne_true
      have hnames : fileIn dir = fun name =>
          String.ofList (Text.glue '/' dir ++ '/' :: name) := by
        funext name
        rw [fileIn, Text.glue_concat hne]
      rw [candidates_eq, List.find?_append, hnone, Option.none_or, ← hnames]
      exact hid
    rw [Option.bind_some, hcandidates, Option.some_or]

/-- A package that is asked for from inside, past a directory beside it. -/
theorem resolve_index_file_inside :
    let files : FileSet := ⟨["pkg/__init__.py", "pkg/app.py", "pkg/mod.rs"]⟩
    Text.Trimmed "ui//../.".toList ∧ FileId.extensionChars "ui//../.".toList ∉ strippable ∧
      FileId.Leads (FileId.segments (FileId.parentChars "pkg/app.py".toList))
        (Text.pieces '/' "ui//../.".toList) ["pkg".toList] ∧
      (∀ e ∈ endings, files.contains (withEnding (Text.glue '/' ["pkg".toList]) e) = false) ∧
      (∃ name ∈ indexNames, files.contains (fileIn ["pkg".toList] name) = true) ∧
      resolve "ui//../." "pkg/app.py" files = some "pkg/__init__.py" := by
  intro files
  have htrimmed : Text.Trimmed "ui//../.".toList := by decide
  have hext : FileId.extensionChars "ui//../.".toList ∉ strippable := by decide
  have hleads : FileId.Leads (FileId.segments (FileId.parentChars "pkg/app.py".toList))
      (Text.pieces '/' "ui//../.".toList) ["pkg".toList] := by decide
  have hfree : ∀ e ∈ endings,
      files.contains (withEnding (Text.glue '/' ["pkg".toList]) e) = false := by decide
  have hindex : ∃ name ∈ indexNames, files.contains (fileIn ["pkg".toList] name) = true := by
    decide
  obtain ⟨id, hid, hresolve⟩ := resolve_index_file htrimmed hext hleads hfree hindex
  have hfirst : (indexNames.map (fileIn ["pkg".toList])).find? files.contains =
      some "pkg/__init__.py" := by decide
  -- The theorem says that some index file is found, and this one is the first.
  obtain rfl := Option.some.inj (hid.symm.trans hfirst)
  exact ⟨htrimmed, hext, hleads, hfree, hindex, hresolve⟩

/-- The index file of the root is not found from a directory below. -/
theorem resolve_index_file_fails :
    let files : FileSet := ⟨["index.js", "src/app.js"]⟩
    Text.Trimmed "..".toList ∧ FileId.extensionChars "..".toList ∉ strippable ∧
      FileId.Leads (FileId.segments (FileId.parentChars "src/app.js".toList))
        (Text.pieces '/' "..".toList) [] ∧
      (∀ e ∈ endings, files.contains (withEnding (Text.glue '/' []) e) = false) ∧
      (indexNames.map (fileIn [])).find? files.contains = some "index.js" ∧
      resolve ".." "src/app.js" files = none := by
  decide

end CodeAtlas.Resolve
