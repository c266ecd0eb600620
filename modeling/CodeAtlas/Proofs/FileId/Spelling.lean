import CodeAtlas.Proofs.FileId.Ancestors
import CodeAtlas.Proofs.FileId.Walk
import CodeAtlas.Proofs.Text.Blank

/-!
# `CodeAtlas.Proofs.FileId.Spelling`: ids that are spelled by relative texts

A relative text spells an id from a directory if it leads to the id and ends with the id's last
name (`Spells`). On the way it may stay and turn as often as it likes. The theorems:

* `nameChars_append`, `extensionChars_append`, `exists_append_extension`: what is put behind an id
  goes to its last name, and an id with an extension is what stands before it, a dot, and the
  extension.
* `Spells.joinChars?_eq`: joining finds an id that is spelled.
* `Spells.exists_front`, `Spells.of_append`: the part before the last name leads to the directory
  of the id, and an ending that the text and the id have in common can be left out.
-/

set_option autoImplicit false

namespace CodeAtlas.FileId

/-! ### Names and extensions -/

variable {cs base ext : List Char}

/-- An id is what stands before its last name, and then the name. Another name can stand there. -/
theorem exists_append_nameChars (cs : List Char) :
    '/' ∉ nameChars cs ∧ ∃ lead, cs = lead ++ nameChars cs ∧
      ∀ name, '/' ∉ name → nameChars (lead ++ name) = name := by
  by_cases hslash : '/' ∈ cs
  · obtain ⟨hsplit, hname⟩ := eq_append_of_mem hslash
    refine ⟨hname, parentChars cs ++ ['/'], by simpa using hsplit, fun name hfree => ?_⟩
    rw [List.append_assoc, List.singleton_append, nameChars, Text.cutLast_append hfree]
  · rw [(parentChars_of_not_mem hslash).2]
    exact ⟨hslash, [], rfl, fun name hfree => (parentChars_of_not_mem hfree).2⟩

/-- What is put behind an id goes to its last name, so an ending may be tried without looking at the
directory. -/
theorem nameChars_append (cs : List Char) {behind : List Char} (h : '/' ∉ behind) :
    nameChars (cs ++ behind) = nameChars cs ++ behind := by
  obtain ⟨hname, lead, hsplit, hnames⟩ := exists_append_nameChars cs
  have hboth : '/' ∉ nameChars cs ++ behind := by simp [hname, h]
  rw [← hnames _ hboth, ← List.append_assoc, ← hsplit]

/-- The pieces of an id with a slash are those of its directory and the last name. -/
theorem pieces_eq_pieces_parentChars (hslash : '/' ∈ cs) :
    Text.pieces '/' cs = Text.pieces '/' (parentChars cs) ++ [nameChars cs] := by
  obtain ⟨hsplit, hname⟩ := eq_append_of_mem hslash
  conv_lhs => rw [hsplit, Text.pieces_append_sep, Text.pieces_of_not_mem hname]

/-- The last name of an id is its last piece. -/
theorem exists_pieces_eq_concat (cs : List Char) :
    ∃ front, Text.pieces '/' cs = front ++ [nameChars cs] := by
  by_cases hslash : '/' ∈ cs
  · exact ⟨_, pieces_eq_pieces_parentChars hslash⟩
  · rw [Text.pieces_of_not_mem hslash, (parentChars_of_not_mem hslash).2]
    exact ⟨[], rfl⟩

/-- The name of an id is one of its pieces, for it is the last one. -/
theorem nameChars_mem_pieces (cs : List Char) : nameChars cs ∈ Text.pieces '/' cs := by
  obtain ⟨front, h⟩ := exists_pieces_eq_concat cs
  simp [h]

/-- An id ends as its last name does. -/
theorem getLast?_nameChars (h : nameChars cs ≠ []) : (nameChars cs).getLast? = cs.getLast? := by
  obtain ⟨-, lead, hsplit, -⟩ := exists_append_nameChars cs
  conv_rhs => rw [hsplit, List.getLast?_append_of_ne_nil _ h]

/-- A dot and more behind an id with a name are its extension, and the name is its stem. -/
theorem extensionChars_append (hbase : nameChars base ≠ []) (hslash : '/' ∉ ext)
    (hdot : '.' ∉ ext) :
    extensionChars (base ++ '.' :: ext) = ext ∧
      stemChars (base ++ '.' :: ext) = nameChars base := by
  have hbehind : '/' ∉ '.' :: ext := by simp [hslash]
  have hcut := Text.cutLast_append hdot (nameChars base)
  rw [extensionChars, stemChars, nameChars_append base hbehind, Path.extensionOf?, hcut]
  simp [hbase]

/-- An id with an extension is what stands before it, a dot, and the extension. -/
theorem exists_append_extension (h : extensionChars cs ≠ []) :
    ∃ base, cs = base ++ '.' :: extensionChars cs ∧ nameChars base ≠ [] := by
  obtain ⟨hslash, lead, hsplit, hnames⟩ := exists_append_nameChars cs
  rw [extensionChars, Path.extensionOf?] at h ⊢
  cases hcut : Text.cutLast '.' (nameChars cs) with
  | none => simp [hcut] at h
  | some cut =>
    obtain ⟨stem, ext⟩ := cut
    have hstem : stem ≠ [] := by
      rintro rfl
      simp [hcut] at h
    obtain ⟨hname, -⟩ := Text.cutLast_eq_some_iff.mp hcut
    -- The stem is part of the last name, and a name has no slash.
    have hfree : '/' ∉ stem := by
      intro hmem
      exact hslash (hname ▸ List.mem_append_left _ hmem)
    simp only [if_neg hstem, Option.getD_some]
    refine ⟨lead ++ stem, ?_, by rwa [hnames stem hfree]⟩
    rw [List.append_assoc, ← hname]
    exact hsplit

/-- The stem of a last segment that is no name is no name either. -/
theorem not_isName_stemChars (h : ¬IsName (nameChars cs)) : ¬IsName (stemChars cs) := by
  have hcases : nameChars cs = [] ∨ nameChars cs = ['.'] ∨ nameChars cs = ['.', '.'] := by
    simp only [IsName] at h
    tauto
  rw [stemChars]
  rcases hcases with hname | hname | hname <;> rw [hname] <;> decide

/-! ### Spellings -/

/-- Whether an id is written as ids of files are: its segments are names, and it neither begins
nor ends with a blank. -/
structure Canonical (id : FileId) : Prop where
  names : ∀ name ∈ Text.pieces '/' id.toList, IsName name
  trimmed : Text.Trimmed id.toList

instance (id : FileId) : Decidable (Canonical id) :=
  decidable_of_iff ((∀ name ∈ Text.pieces '/' id.toList, IsName name) ∧ Text.Trimmed id.toList)
    ⟨fun ⟨hnames, htrimmed⟩ => ⟨hnames, htrimmed⟩, fun h => ⟨h.names, h.trimmed⟩⟩

/-- Whether a relative text spells an id from a directory: it leads there, and its last segment is
the id's last name. -/
structure Spells (dir relative id : List Char) : Prop where
  leads : Leads (segments dir) (Text.pieces '/' relative) (Text.pieces '/' id)
  name : nameChars relative = nameChars id

instance (dir relative id : List Char) : Decidable (Spells dir relative id) :=
  decidable_of_iff (Leads (segments dir) (Text.pieces '/' relative) (Text.pieces '/' id) ∧
      nameChars relative = nameChars id)
    ⟨fun ⟨hleads, hname⟩ => ⟨hleads, hname⟩, fun h => ⟨h.leads, h.name⟩⟩

namespace Spells

variable {dir relative id behind : List Char}

/-- An id that is spelled has a name, since a walk leads to names only. -/
theorem name_ne_nil (h : Spells dir relative id) : nameChars id ≠ [] :=
  (h.leads.names (nameChars id) (nameChars_mem_pieces id)).1

/-- Joining finds an id that is spelled. -/
theorem joinChars?_eq (h : Spells dir relative id) : joinChars? dir relative = some id := by
  rw [joinChars?_of_leads h.leads, if_neg (Text.pieces_ne_nil '/' id), Text.glue_pieces]

/-- If a text and an id that it spells end alike, then the part before the last name leads to the
directory of the id, with the ending or without. -/
theorem exists_front (h : Spells dir (relative ++ behind) (id ++ behind)) (hslash : '/' ∉ behind)
    (hname : IsName (nameChars (id ++ behind))) :
    ∃ front above, Text.pieces '/' relative = front ++ [nameChars id] ∧
      Text.pieces '/' id = above ++ [nameChars id] ∧ Leads (segments dir) front above := by
  have hsame : nameChars relative = nameChars id := by
    have hboth := h.name
    rw [nameChars_append _ hslash, nameChars_append _ hslash] at hboth
    exact List.append_cancel_right hboth
  -- Both end with the same name, so that one step can be taken off both walks.
  obtain ⟨front, hfront⟩ := exists_pieces_eq_concat relative
  obtain ⟨above, habove⟩ := exists_pieces_eq_concat id
  rw [hsame] at hfront
  refine ⟨front, above, hfront, habove, ?_⟩
  have hleads := h.leads
  rw [nameChars_append _ hslash] at hname
  rwa [Text.pieces_append_of_not_mem hfront hslash, Text.pieces_append_of_not_mem habove hslash,
    leads_concat_name_iff hname] at hleads

/-- If a text spells an id, it does so without an ending that both have, as long as a name is
left. -/
theorem of_append (h : Spells dir (relative ++ behind) (id ++ behind)) (hslash : '/' ∉ behind)
    (hname : IsName (nameChars (id ++ behind))) (hleft : IsName (nameChars id)) :
    Spells dir relative id := by
  obtain ⟨front, above, hfront, habove, hleads⟩ := h.exists_front hslash hname
  obtain ⟨front', hfront'⟩ := exists_pieces_eq_concat relative
  refine ⟨?_, (List.append_singleton_inj.mp (hfront'.symm.trans hfront)).2⟩
  rwa [hfront, habove, leads_concat_name_iff hleft]

end Spells

end CodeAtlas.FileId
