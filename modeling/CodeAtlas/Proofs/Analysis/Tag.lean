import CodeAtlas.Graph.Build
import CodeAtlas.Proofs.FileId.OfPath
import CodeAtlas.Proofs.FileId.Spelling

/-!
# `CodeAtlas.Proofs.Analysis.Tag`: language tags of files

A file that is read gets its language tag from the last component of its path, a file that is not
from the last name of its id. The theorems:

* `extensionOf?_eq_some_iff`: an extension stands behind the last dot of a name, with something
  before that dot.
* `tagOf_of_hasExtension`, `tagOf_of_not_hasExtension`: the tag of a name.
* `exists_inner_of_namesOf`, `fileName?_of_ofPath?`: however a path is written, its last component
  is the last name of its id, unless it is a `..`.
* `language_ofPath_eq`: the two tags are the same, and which it is.
-/

set_option autoImplicit false

namespace CodeAtlas

/-- Whether a name has an extension: behind its last dot, and with something before that dot. -/
def Path.HasExtension (name ext : List Char) : Prop :=
  ∃ stem, name = stem ++ '.' :: ext ∧ stem ≠ [] ∧ '.' ∉ ext

variable {name ext : List Char}

/-! ### Tags of names -/

/-- The extension of a name as it is found, by cutting at the last dot, is the one that
`HasExtension` describes. -/
theorem Path.extensionOf?_eq_some_iff : extensionOf? name = some ext ↔ HasExtension name ext := by
  rw [extensionOf?, HasExtension]
  constructor
  · intro h
    split at h
    · -- The cut is at the last dot, so none stands behind it; an empty stem is a name like
      -- `.profile`.
      rename_i stem behind hcut
      split at h
      · cases h
      · rename_i hstem
        obtain rfl := Option.some.inj h
        obtain ⟨hsplit, hdot⟩ := Text.cutLast_eq_some_iff.mp hcut
        exact ⟨stem, hsplit, hstem, hdot⟩
    · cases h
  · rintro ⟨stem, rfl, hstem, hdot⟩
    rw [Text.cutLast_append hdot]
    exact if_neg hstem

/-- The tag of a name with an extension is the extension, unless it is empty. -/
theorem SourceFile.tagOf_of_hasExtension (h : Path.HasExtension name ext) (hne : ext ≠ []) :
    tagOf ((Path.extensionOf? name).getD []) = String.ofList ext := by
  rw [Path.extensionOf?_eq_some_iff.mpr h]
  exact if_neg hne

/-- The tag of a name without an extension, or with an empty one, is `unknown`. -/
theorem SourceFile.tagOf_of_not_hasExtension (h : ∀ ext, ext ≠ [] → ¬Path.HasExtension name ext) :
    tagOf ((Path.extensionOf? name).getD []) = "unknown" := by
  refine if_pos ?_
  cases hext : Path.extensionOf? name with
  | none => rfl
  | some ext =>
    by_contra hne
    exact h ext hne (Path.extensionOf?_eq_some_iff.mp hext)

/-! ### The last name of a path -/

/-- A path with a name among its components ends with a component of its body. -/
theorem Path.exists_inner_of_namesOf {p : Path} (h : namesOf p.components ≠ []) :
    ∃ before c, p.components = before ++ [c] ∧ c.Inner := by
  have hsplit : p.components = frontOf p.text.toList ++ bodyOf p.text.toList := componentsOf_eq _
  rcases List.eq_nil_or_concat (bodyOf p.text.toList) with hnone | ⟨body, c, hbody⟩
  · -- A path without a body is a root, a dot or nothing, and none of these is a name.
    have hfront : namesOf (frontOf p.text.toList) = [] := by
      rw [frontOf]
      split
      · rfl
      · split <;> rfl
    rw [hsplit, hnone, List.append_nil] at h
    exact absurd hfront h
  · rw [List.concat_eq_append] at hbody
    refine ⟨frontOf p.text.toList ++ body, c, ?_, ?_⟩
    · rw [hsplit, hbody, List.append_assoc]
    · have hmem : c ∈ bodyOf p.text.toList := by simp [hbody]
      exact inner_of_mem_bodyOf hmem

namespace FileId

/-- The last name of an id that is glued from names is the last of these. -/
theorem nameChars_glue_concat (names : List (List Char)) (h : '/' ∉ name) :
    nameChars (Text.glue '/' (names ++ [name])) = name := by
  by_cases hnames : names = []
  · subst hnames
    exact (parentChars_of_not_mem h).2
  · rw [Text.glue_concat hnames, nameChars, Text.cutLast_append h]

/-- The last component of a path is the last name of its id, unless it is a `..`. -/
theorem fileName?_of_ofPath? {root path : Path} {id : FileId} (h : ofPath? root path = some id)
    (hlast : path.components.getLast? ≠ some .parent) :
    path.fileName? = some (nameChars id.toList) := by
  obtain ⟨rest, hrest, hne, rfl⟩ := ofPath?_eq_some_iff.mp h
  have hnames : Path.namesOf path.components ≠ [] := by
    rw [hrest, Path.namesOf_append]
    exact List.append_ne_nil_of_right_ne_nil _ hne
  obtain ⟨before, c, hcomponents, hinner⟩ := Path.exists_inner_of_namesOf hnames
  rw [hcomponents, List.getLast?_concat] at hlast
  rw [Path.fileName?, hcomponents, List.getLast?_concat]
  cases c with
  | root => exact hinner.elim
  | current => exact hinner.elim
  | parent => exact absurd rfl hlast
  | name text =>
    -- There is something behind the root, and it ends where the path ends.
    rcases List.eq_nil_or_concat rest with rfl | ⟨between, c, rfl⟩
    · exact absurd rfl hne
    · rw [List.concat_eq_append, ← List.append_assoc, hcomponents] at hrest
      obtain ⟨-, rfl⟩ := List.append_singleton_inj.mp hrest
      have hbehind : Path.namesOf (between ++ [.name text]) = Path.namesOf between ++ [text] :=
        Path.namesOf_append between [.name text]
      rw [List.concat_eq_append, hbehind, String.toList_ofList,
        nameChars_glue_concat _ hinner.2.2.2]

end FileId

/-- **A file has one language tag, whether it is read or not.** Take any root, and any path with an
id in it that does not end with `..`, however it is written. The tag that the file gets when it is
read, from the last component of its path, is the tag that it gets otherwise, from the last name of
its id. If that name has an extension and it is not empty, it is the tag, and else the tag is
`unknown`. -/
theorem language_ofPath_eq (root path : Path) (id : FileId) (text : String)
    (hid : FileId.ofPath? root path = some id)
    (hlast : path.components.getLast? ≠ some .parent) :
    (SourceFile.ofPath root path text).language = (GraphBuild.placeholder path id).language ∧
    (∀ ext, ext ≠ [] → Path.HasExtension id.name.toList ext →
      (SourceFile.ofPath root path text).language = String.ofList ext) ∧
    ((∀ ext, ext ≠ [] → ¬Path.HasExtension id.name.toList ext) →
      (SourceFile.ofPath root path text).language = "unknown") := by
  have hname : id.name.toList = FileId.nameChars id.toList := String.toList_ofList
  have hlanguage : (SourceFile.ofPath root path text).language
      = SourceFile.tagOf ((Path.extensionOf? id.name.toList).getD []) := by
    show SourceFile.tagOf (path.extension?.getD []) = _
    rw [Path.extension?, FileId.fileName?_of_ofPath? hid hlast, hname]
    rfl
  -- Both tags are now read off the same name, and what is left is about names alone.
  rw [hlanguage]
  refine ⟨?_, fun ext hne hext => SourceFile.tagOf_of_hasExtension hext hne,
    SourceFile.tagOf_of_not_hasExtension⟩
  rw [hname]
  rfl

/-- Two dots in front of a name that has an extension, a name that begins with its only dot, and one
that ends with it, on paths with more slashes and dots than they need. -/
theorem language_ofPath_eq_dots :
    (SourceFile.ofPath ⟨"/repo"⟩ ⟨"/repo//src/./..a/"⟩ "").language
        = (GraphBuild.placeholder ⟨"/repo//src/./..a/"⟩ "src/..a").language ∧
      (SourceFile.ofPath ⟨"/repo"⟩ ⟨"/repo//src/./..a/"⟩ "").language = "a" ∧
      (SourceFile.ofPath ⟨"."⟩ ⟨"./.gitignore/."⟩ "").language = "unknown" ∧
      (SourceFile.ofPath ⟨"."⟩ ⟨".//lib/a."⟩ "").language = "unknown" := by
  obtain ⟨hsame, htag, -⟩ := language_ofPath_eq ⟨"/repo"⟩ ⟨"/repo//src/./..a/"⟩ "src/..a" ""
    (by decide) (by decide)
  refine ⟨hsame, htag ['a'] (by decide) ⟨['.'], by decide, by decide, by decide⟩, ?_, ?_⟩
  · refine (language_ofPath_eq ⟨"."⟩ ⟨"./.gitignore/."⟩ ".gitignore" "" (by decide)
      (by decide)).2.2 fun ext _ hext => ?_
    have hnone : Path.extensionOf? (FileId.name ".gitignore").toList = none := by decide
    rw [Path.extensionOf?_eq_some_iff.mpr hext] at hnone
    cases hnone
  · refine (language_ofPath_eq ⟨"."⟩ ⟨".//lib/a."⟩ "lib/a." "" (by decide)
      (by decide)).2.2 fun ext hne hext => ?_
    have hempty : Path.extensionOf? (FileId.name "lib/a.").toList = some [] := by decide
    rw [Path.extensionOf?_eq_some_iff.mpr hext] at hempty
    exact hne (Option.some.inj hempty)

end CodeAtlas
