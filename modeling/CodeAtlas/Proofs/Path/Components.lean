import CodeAtlas.Path.Basic
import CodeAtlas.Proofs.Text.Pieces

/-!
# `CodeAtlas.Proofs.Path.Components`: paths and their components

The components of a path are what stands at its front, the root or a leading dot, and then the
`..` and the names that its pieces stand for. The theorems:

* `componentsOf_eq`: the front and the body of a text.
* `bodyOf_append_slash`, `bodyOf_glue`: the body is read piece by piece, and a body that is
  written is read back.
* `componentsOf_textOf`: so are the components of a path, whatever path they came from.
* `components_join`, `components_join_glue`: joining a relative path puts its body behind the
  components, and joining what is glued from names puts these behind them.
-/

set_option autoImplicit false

namespace CodeAtlas.Path

/-- What stands at the front of a path's components before its body. -/
def frontOf (cs : List Char) : List Component :=
  if cs.head? = some '/' then [.root]
  else if (Text.pieces '/' cs).head? = some ['.'] then [.current]
  else []

/-- Whether a component can stand in the body of a path. -/
def Component.Inner : Component → Prop
  | .root | .current => False
  | .parent => True
  | .name text => text ≠ [] ∧ text ≠ ['.'] ∧ text ≠ ['.', '.'] ∧ '/' ∉ text

/-- The components of a text are those of its front, which its first character tells, and those of
its body. -/
theorem componentsOf_eq (cs : List Char) : componentsOf cs = frontOf cs ++ bodyOf cs := by
  rw [componentsOf.eq_def, frontOf]
  split
  · rw [List.head?_cons, if_pos rfl]
    rfl
  · rename_i hslash
    have hhead : cs.head? ≠ some '/' := by
      intro hhead
      obtain ⟨rest, rfl⟩ := List.head?_eq_some_iff.mp hhead
      exact hslash rest rfl
    rw [if_neg hhead]
    split <;> rfl

/-! ### Bodies -/

/-- The pieces of a text stand for components of a body. -/
theorem inner_of_mem_bodyOf {cs : List Char} {c : Component} (h : c ∈ bodyOf cs) : c.Inner := by
  obtain ⟨piece, hpiece, hc⟩ := List.mem_filterMap.mp h
  rw [Component.ofPiece?] at hc
  split at hc
  · exact absurd hc (by simp)
  · rename_i hnone
    rw [not_or] at hnone
    split at hc
    · obtain rfl := Option.some.inj hc
      exact trivial
    · rename_i hparent
      obtain rfl := Option.some.inj hc
      exact ⟨hnone.1, hnone.2, hparent, Text.not_mem_of_mem_pieces hpiece⟩

/-- A component of a body is what its text stands for. -/
theorem Component.Inner.ofPiece?_text {c : Component} (h : c.Inner) :
    Component.ofPiece? c.text = some c := by
  cases c with
  | root => exact h.elim
  | current => exact h.elim
  | parent => rfl
  | name text =>
    obtain ⟨hempty, hdot, hdots, -⟩ := h
    simp [Component.ofPiece?, Component.text, hempty, hdot, hdots]

/-- The text of an inner component has no slash in it, so components can be glued and cut again. -/
theorem Component.Inner.not_mem_text {c : Component} (h : c.Inner) : '/' ∉ c.text := by
  cases c with
  | root => exact h.elim
  | current => exact h.elim
  | parent => decide
  | name text => exact h.2.2.2

/-- The body of a text is that of the part before a slash and that of the part behind it. -/
theorem bodyOf_append_slash (a b : List Char) :
    bodyOf (a ++ '/' :: b) = bodyOf a ++ bodyOf b := by
  rw [bodyOf, Text.pieces_append_sep, List.filterMap_append]
  rfl

/-- A body that is written is read back. -/
theorem bodyOf_glue {cs : List Component} (h : ∀ c ∈ cs, c.Inner) :
    bodyOf (Text.glue '/' (cs.map Component.text)) = cs := by
  cases cs with
  | nil => rfl
  | cons c cs =>
    -- Components have no slash in them, so the pieces of the text are the components' texts.
    have hpieces : Text.pieces '/' (Text.glue '/' ((c :: cs).map Component.text))
        = (c :: cs).map Component.text := by
      refine Text.pieces_glue (by simp) ?_
      intro name hname
      obtain ⟨d, hd, rfl⟩ := List.mem_map.mp hname
      exact (h d hd).not_mem_text
    rw [bodyOf, hpieces, List.filterMap_map]
    refine (List.filterMap_congr fun d hd => ?_).trans List.filterMap_some
    exact (h d hd).ofPiece?_text

/-! ### Fronts -/

/-- What stands behind a slash has no part in the front. -/
theorem frontOf_append_slash {a : List Char} (h : a ≠ []) (b : List Char) :
    frontOf (a ++ '/' :: b) = frontOf a := by
  rw [frontOf, frontOf, List.head?_append_of_ne_nil _ h, Text.pieces_append_sep,
    List.head?_append_of_ne_nil _ (Text.pieces_ne_nil '/' a)]

/-- A text that begins with a slash leads from the top. -/
theorem frontOf_slash (b : List Char) : frontOf ('/' :: b) = [.root] := rfl

/-- A body as it is written has nothing at the front. -/
theorem frontOf_glue {cs : List Component} (h : ∀ c ∈ cs, c.Inner) :
    frontOf (Text.glue '/' (cs.map Component.text)) = [] := by
  -- What stands behind the first component cannot put anything at the front.
  cases cs with
  | nil => decide
  | cons c cs =>
    have hc := h c List.mem_cons_self
    have hne : c.text ≠ [] ∧ c.text ≠ ['.'] := by
      cases c with
      | root => exact hc.elim
      | current => exact hc.elim
      | parent => decide
      | name text => exact ⟨hc.1, hc.2.1⟩
    have hfront : frontOf c.text = [] := by
      have hhead : c.text.head? ≠ some '/' := fun hhead =>
        hc.not_mem_text (List.mem_of_mem_head? hhead)
      rw [frontOf, if_neg hhead, Text.pieces_of_not_mem hc.not_mem_text, List.head?_cons,
        if_neg (by simpa using hne.2)]
    cases cs with
    | nil => exact hfront
    | cons d cs =>
      show frontOf (c.text ++ '/' :: Text.glue '/' ((d :: cs).map Component.text)) = []
      rw [frontOf_append_slash hne.1, hfront]

/-! ### Whole paths -/

/-- A body that is written behind the root, or behind nothing, is read back. -/
theorem componentsOf_textOf_append {front body : List Component}
    (hfront : front = [] ∨ front = [.root]) (hbody : ∀ c ∈ body, c.Inner) :
    componentsOf (textOf (front ++ body)) = front ++ body := by
  rcases hfront with rfl | rfl
  · -- Without a front the text is the body, of which the first component is not the root.
    have htext : textOf ([] ++ body) = Text.glue '/' (body.map Component.text) := by
      rw [List.nil_append, textOf.eq_def]
      split
      · exact (hbody .root List.mem_cons_self).elim
      · rfl
    rw [htext, componentsOf_eq, frontOf_glue hbody, bodyOf_glue hbody]
  · show componentsOf ('/' :: Text.glue '/' (body.map Component.text)) = .root :: body
    have hread := bodyOf_append_slash [] (Text.glue '/' (body.map Component.text))
    rw [List.nil_append, bodyOf_glue hbody] at hread
    rw [componentsOf_eq, frontOf_slash, hread]
    rfl

/-- The components of a path are read back from the text that is written from them. -/
theorem componentsOf_textOf (cs : List Char) :
    componentsOf (textOf (componentsOf cs)) = componentsOf cs := by
  have hbody : ∀ c ∈ bodyOf cs, c.Inner := fun _ => inner_of_mem_bodyOf
  rw [componentsOf_eq cs]
  -- All that counts of the body is that its components are inner ones; the cases are those of the
  -- front.
  generalize bodyOf cs = body at hbody ⊢
  rw [frontOf]
  split
  · exact componentsOf_textOf_append (.inr rfl) hbody
  split
  · show componentsOf (Text.glue '/' (['.'] :: body.map Component.text)) = .current :: body
    cases body with
    | nil => decide
    | cons c body =>
      show componentsOf (['.'] ++ '/' :: Text.glue '/' ((c :: body).map Component.text)) = _
      rw [componentsOf_eq, frontOf_append_slash (by simp), bodyOf_append_slash,
        bodyOf_glue hbody]
      rfl
  · exact componentsOf_textOf_append (.inl rfl) hbody

/-- The path that is written from the components of a path has these components. -/
theorem components_ofComponents (p : Path) :
    (ofComponents p.components).components = p.components := by
  rw [ofComponents, components, String.toList_ofList]
  exact componentsOf_textOf p.text.toList

/-- So has a path that is written from the root, or nothing, and the components of a body. -/
theorem components_ofComponents_append {front body : List Component}
    (hfront : front = [] ∨ front = [.root]) (hbody : ∀ c ∈ body, c.Inner) :
    (ofComponents (front ++ body)).components = front ++ body := by
  rw [ofComponents, components, String.toList_ofList]
  exact componentsOf_textOf_append hfront hbody

/-- Only the empty path has no components. -/
theorem components_ne_nil {p : Path} (h : p.text ≠ "") : p.components ≠ [] := by
  have hne : p.text.toList ≠ [] := by simpa using h
  rw [components, componentsOf_eq, frontOf]
  split
  · exact List.cons_ne_nil _ _
  rename_i hslash
  split
  · exact List.cons_ne_nil _ _
  rename_i hdot
  -- The first piece is neither empty nor a dot, so it stands for a component.
  obtain ⟨c, rest, hc⟩ := List.exists_cons_of_ne_nil hne
  obtain ⟨first, others, hrest⟩ :=
    List.exists_cons_of_ne_nil (Text.pieces_ne_nil '/' rest)
  rw [hc, List.head?_cons, Option.some.injEq] at hslash
  have hpieces : Text.pieces '/' p.text.toList = (c :: first) :: others := by
    rw [hc, Text.pieces, if_neg hslash, hrest]
  rw [hpieces, List.head?_cons, Option.some.injEq] at hdot
  have hsome : ∃ d, Component.ofPiece? (c :: first) = some d := by
    rw [Component.ofPiece?, if_neg (by simpa using hdot)]
    split <;> exact ⟨_, rfl⟩
  obtain ⟨d, hd⟩ := hsome
  rw [List.nil_append, bodyOf, hpieces, List.filterMap_cons, hd]
  exact List.cons_ne_nil _ _

/-- A path is absolute if its first character is a slash. -/
theorem isAbsolute_iff {p : Path} : p.isAbsolute = true ↔ p.text.toList.head? = some '/' := by
  simp [isAbsolute]

/-- The components of an absolute path are the root and a body. -/
theorem components_of_isAbsolute {p : Path} (h : p.isAbsolute = true) :
    p.components = .root :: bodyOf p.text.toList := by
  rw [components, componentsOf_eq, frontOf, if_pos (isAbsolute_iff.mp h)]
  rfl

/-- A path that begins with the root is absolute. -/
theorem isAbsolute_of_components {p : Path} {rest : List Component}
    (h : p.components = .root :: rest) : p.isAbsolute = true := by
  by_contra habs
  rw [isAbsolute_iff] at habs
  rw [components, componentsOf_eq, frontOf, if_neg habs] at h
  split at h
  · exact absurd h (by simp)
  · rw [List.nil_append] at h
    exact inner_of_mem_bodyOf (h.symm ▸ List.mem_cons_self : Component.root ∈ bodyOf p.text.toList)

/-- The body of a text never leads back to the top. -/
theorem root_not_mem_bodyOf (cs : List Char) : Component.root ∉ bodyOf cs :=
  fun h => inner_of_mem_bodyOf h

/-- A relative path does not have the root among its components. -/
theorem root_not_mem_components {p : Path} (h : p.isAbsolute = false) :
    Component.root ∉ p.components := by
  have hslash : p.text.toList.head? ≠ some '/' := by simpa [isAbsolute] using h
  rw [components, componentsOf_eq, frontOf, if_neg hslash, List.mem_append, not_or]
  refine ⟨?_, root_not_mem_bodyOf _⟩
  split <;> simp

/-- A name among the components of a path is one of its body. -/
theorem inner_of_name_mem {p : Path} {text : List Char} (h : Component.name text ∈ p.components) :
    (Component.name text).Inner := by
  rw [components, componentsOf_eq, List.mem_append] at h
  rcases h with h | h
  · rw [frontOf] at h
    split at h
    · simp at h
    · split at h <;> simp at h
  · exact inner_of_mem_bodyOf h

/-- Joining a relative path puts its body behind the components of a path. -/
theorem components_join {p q : Path} (hp : p.text ≠ "") (hq : q.isAbsolute = false) :
    (p.join q).components = p.components ++ bodyOf q.text.toList := by
  have hne : p.text.toList ≠ [] := by simpa using hp
  -- The text is split at the slash between the two, which may be the last character of `p`.
  have hsplit : ∃ a, (p.join q).text.toList = a ++ '/' :: q.text.toList ∧
      frontOf (a ++ '/' :: q.text.toList) = frontOf p.text.toList ∧
        bodyOf a = bodyOf p.text.toList := by
    rw [join]
    split
    · rename_i hlast
      exact absurd (List.getLast?_eq_none_iff.mp hlast) hne
    · rename_i last hlast
      rw [hq, if_neg (by simp)]
      obtain ⟨a, ha⟩ := List.getLast?_eq_some_iff.mp hlast
      split
      · rename_i hslash
        rw [hslash] at ha
        have hbody := bodyOf_append_slash a []
        refine ⟨a, by simp [ha], ?_, ?_⟩
        · rw [ha]
          cases a with
          | nil => rfl
          | cons c a => rw [frontOf_append_slash (by simp), frontOf_append_slash (by simp)]
        · rw [ha, hbody]
          simp [bodyOf, Text.pieces, Component.ofPiece?]
      · exact ⟨p.text.toList, by simp, frontOf_append_slash hne _, rfl⟩
  obtain ⟨a, htext, hfront, hbody⟩ := hsplit
  rw [components, htext, componentsOf_eq, hfront, bodyOf_append_slash, hbody, components,
    componentsOf_eq, List.append_assoc]

/-- An absolute path is not empty, which is asked of the front of a join. -/
theorem text_ne_of_isAbsolute {p : Path} (h : p.isAbsolute = true) : p.text ≠ "" := by
  intro hempty
  rw [isAbsolute_iff, hempty] at h
  exact absurd h (by simp)

/-- Joining what is glued from names puts these behind the components of a path. -/
theorem components_join_glue {p : Path} (hp : p.text ≠ "") {names : List (List Char)}
    (hnames : ∀ name ∈ names, (Component.name name).Inner) :
    (p.join ⟨String.ofList (Text.glue '/' names)⟩).components
      = p.components ++ names.map .name := by
  have hinner : ∀ c ∈ names.map Component.name, c.Inner := by
    intro c hc
    obtain ⟨name, hname, rfl⟩ := List.mem_map.mp hc
    exact hnames name hname
  have htexts : (names.map Component.name).map Component.text = names := by
    rw [List.map_map]
    exact List.map_id _
  have hbody := bodyOf_glue hinner
  have hfront := frontOf_glue hinner
  rw [htexts] at hbody hfront
  -- Names that are glued do not begin with a slash, or the front would be the root.
  have hrelative : (⟨String.ofList (Text.glue '/' names)⟩ : Path).isAbsolute = false := by
    by_contra habs
    rw [Bool.not_eq_false, isAbsolute_iff, String.toList_ofList] at habs
    rw [frontOf, if_pos habs] at hfront
    exact absurd hfront (List.cons_ne_nil _ _)
  rw [components_join hp hrelative, String.toList_ofList, hbody]

/-! ### Beginnings -/

/-- A path begins with the components of another exactly if its own are these and others
behind them. -/
theorem componentsBehind?_eq_some_iff {p root : Path} {rest : List Component} :
    p.componentsBehind? root = some rest ↔ p.components = root.components ++ rest := by
  rw [componentsBehind?]
  generalize root.components = as
  generalize p.components = bs
  fun_induction componentsBehind?.go as bs with
  | case1 bs => simp
  | case2 a as => simp
  | case3 a as bs ih => rw [ih, List.cons_append, List.cons.injEq, eq_self, true_and]
  | case4 a as b bs hne => simp [Ne.symm hne]

end CodeAtlas.Path
