import CodeAtlas.Text.Utf8

/-!
# `CodeAtlas.Proofs.Text.Utf8`: texts cut at byte offsets

An offset into a text counts the bytes of its UTF-8 form. The theorems:

* `isBoundary_iff`: an offset is a character boundary exactly if the text splits there.
* `exists_append_of_isBoundary`: a boundary that does not lie before the end of a first part
  splits the second part.
* `slice?_append`: the slice between the two offsets at which a middle part begins and ends is
  that part. Every other fact about slices follows from this one, because all slices that are
  taken have their ends on boundaries (`slice?_eq_some_iff`).
* `exists_append_of_slice?`: a slice between the ends of another one is a part of it.
-/

set_option autoImplicit false

namespace CodeAtlas.Text

/-- The byte offset at which the `i`th character of a text begins. The offset of the end
belongs to the number of characters. -/
def offset (cs : List Char) (i : Nat) : Nat :=
  byteSize (cs.take i)

/-- Whether an offset lies on a character boundary of a text, its end included. -/
def IsBoundary (cs : List Char) (n : Nat) : Prop :=
  ∃ i ≤ cs.length, offset cs i = n

instance (cs : List Char) (n : Nat) : Decidable (IsBoundary cs n) :=
  inferInstanceAs (Decidable (∃ i ≤ cs.length, offset cs i = n))

/-! ### Sizes -/

/-- The size of a text is the sum of the sizes of its parts. -/
theorem byteSize_append (a b : List Char) :
    byteSize (a ++ b) = byteSize a + byteSize b := by
  induction a with
  | nil => simp [byteSize]
  | cons c a ih =>
    simp only [List.cons_append, byteSize, ih]
    omega

/-- Only the empty text has no bytes. -/
theorem eq_nil_of_byteSize_eq_zero {a : List Char} (h : byteSize a = 0) : a = [] := by
  cases a with
  | nil => rfl
  | cons c a =>
    have hc := Char.utf8Size_pos c
    simp only [byteSize] at h
    omega

/-- The offset of the character behind a first part is the size of that part. -/
theorem offset_append_length (a b : List Char) : offset (a ++ b) a.length = byteSize a := by
  rw [offset, List.take_left]

/-- One character further the offset has grown by the size of the character. -/
theorem offset_succ {cs : List Char} {i : Nat} (h : i < cs.length) :
    offset cs (i + 1) = offset cs i + cs[i].utf8Size := by
  rw [offset, List.take_succ_eq_append_getElem h, byteSize_append]
  simp [byteSize, offset]

/-! ### Boundaries -/

/-- An offset is a boundary exactly if it is the size of a first part of the text. -/
theorem isBoundary_iff {cs : List Char} {n : Nat} :
    IsBoundary cs n ↔ ∃ a b, cs = a ++ b ∧ byteSize a = n := by
  constructor
  · rintro ⟨i, -, h⟩
    exact ⟨cs.take i, cs.drop i, (List.take_append_drop i cs).symm, h⟩
  · rintro ⟨a, b, rfl, rfl⟩
    exact ⟨a.length, by simp, offset_append_length a b⟩

/-- Of two first parts of one text the shorter one is a first part of the longer one. -/
theorem exists_append_of_byteSize_le {a b a' b' : List Char} (h : a ++ b = a' ++ b')
    (hle : byteSize a ≤ byteSize a') : ∃ m, a' = a ++ m ∧ b = m ++ b' := by
  rcases List.append_eq_append_iff.mp h with ⟨m, ha, hb⟩ | ⟨m, ha, hb⟩
  · exact ⟨m, ha, hb⟩
  · -- The second part begins inside the first, so it can only begin at its very end.
    have hm : m = [] := by
      rw [ha, byteSize_append] at hle
      exact eq_nil_of_byteSize_eq_zero (by omega)
    subst hm
    exact ⟨[], by simpa using ha.symm, by simpa using hb.symm⟩

/-- A boundary that does not lie before the end of a first part splits the rest. -/
theorem exists_append_of_isBoundary {a b : List Char} {n : Nat}
    (h : IsBoundary (a ++ b) n) (hle : byteSize a ≤ n) :
    ∃ m rest, b = m ++ rest ∧ n = byteSize a + byteSize m := by
  obtain ⟨a', b', hsplit, rfl⟩ := isBoundary_iff.mp h
  obtain ⟨m, rfl, hb⟩ := exists_append_of_byteSize_le hsplit hle
  exact ⟨m, b', hb, byteSize_append a m⟩

/-! ### Slices -/

/-- A number of bytes that holds the first character drops it and the rest of its bytes. -/
theorem dropBytes?_cons {c : Char} {n : Nat} (h : c.utf8Size ≤ n) (rest : List Char) :
    dropBytes? n (c :: rest) = dropBytes? (n - c.utf8Size) rest := by
  have hc := Char.utf8Size_pos c
  cases n with
  | zero => omega
  | succ n => rw [dropBytes?, if_pos h]

/-- A number of bytes that holds the first character takes it and the rest of its bytes. -/
theorem takeBytes?_cons {c : Char} {n : Nat} (h : c.utf8Size ≤ n) (rest : List Char) :
    takeBytes? n (c :: rest) = (takeBytes? (n - c.utf8Size) rest).map (c :: ·) := by
  have hc := Char.utf8Size_pos c
  cases n with
  | zero => omega
  | succ n => rw [takeBytes?, if_pos h]

/-- What stands behind the first part of a text. -/
theorem dropBytes?_append (a b : List Char) : dropBytes? (byteSize a) (a ++ b) = some b := by
  induction a with
  | nil => simp [byteSize, dropBytes?]
  | cons c a ih =>
    rw [List.cons_append, byteSize, dropBytes?_cons (Nat.le_add_right _ _),
      Nat.add_sub_cancel_left, ih]

/-- The first part of a text. -/
theorem takeBytes?_append (a b : List Char) : takeBytes? (byteSize a) (a ++ b) = some a := by
  induction a with
  | nil => simp [byteSize, takeBytes?]
  | cons c a ih =>
    rw [List.cons_append, byteSize, takeBytes?_cons (Nat.le_add_right _ _),
      Nat.add_sub_cancel_left, ih, Option.map_some]

/-- The slice between the offsets at which a middle part begins and ends is that part. -/
theorem slice?_append (a b c : List Char) :
    slice? (a ++ (b ++ c)) (byteSize a) (byteSize a + byteSize b) = some b := by
  rw [slice?, if_pos (Nat.le_add_right _ _), dropBytes?_append, Nat.add_sub_cancel_left]
  exact takeBytes?_append b c

/-- What stands behind a number of bytes is what is left of the text behind that many. -/
theorem dropBytes?_eq_some_iff {n : Nat} {cs b : List Char} :
    dropBytes? n cs = some b ↔ ∃ a, cs = a ++ b ∧ byteSize a = n := by
  constructor
  · intro h
    -- The cases that give nothing are a text that is too short and a cut inside a character.
    fun_induction dropBytes? n cs with
    | case1 cs =>
      obtain rfl := Option.some.inj h
      exact ⟨[], rfl, rfl⟩
    | case2 n => simp at h
    | case3 n c rest hle ih =>
      obtain ⟨a, rfl, ha⟩ := ih h
      refine ⟨c :: a, rfl, ?_⟩
      rw [byteSize]
      omega
    | case4 n c rest hlt => simp at h
  · rintro ⟨a, rfl, rfl⟩
    exact dropBytes?_append a b

/-- The text of a number of bytes is the first part of the text that has that many. -/
theorem takeBytes?_eq_some_iff {n : Nat} {cs a : List Char} :
    takeBytes? n cs = some a ↔ ∃ b, cs = a ++ b ∧ byteSize a = n := by
  constructor
  · intro h
    -- The same cases as in `dropBytes?_eq_some_iff`, with the characters collected.
    fun_induction takeBytes? n cs generalizing a with
    | case1 cs =>
      obtain rfl := Option.some.inj h
      exact ⟨cs, rfl, rfl⟩
    | case2 n => simp at h
    | case3 n c rest hle ih =>
      obtain ⟨a, ha, rfl⟩ := Option.map_eq_some_iff.mp h
      obtain ⟨b, rfl, hsize⟩ := ih ha
      refine ⟨b, rfl, ?_⟩
      rw [byteSize]
      omega
    | case4 n c rest hlt => simp at h
  · rintro ⟨b, rfl, rfl⟩
    exact takeBytes?_append a b

/-- A slice is a middle part of the text that begins and ends at the given offsets. -/
theorem slice?_eq_some_iff {cs b : List Char} {start stop : Nat} :
    slice? cs start stop = some b ↔
      ∃ a c, cs = a ++ (b ++ c) ∧ byteSize a = start ∧ start + byteSize b = stop := by
  constructor
  · intro h
    rw [slice?] at h
    split at h
    · rename_i hle
      -- The front is dropped first, and the slice is taken from what is left.
      obtain ⟨rest, hrest, hb⟩ := Option.bind_eq_some_iff.mp h
      obtain ⟨a, rfl, rfl⟩ := dropBytes?_eq_some_iff.mp hrest
      obtain ⟨c, rfl, hsize⟩ := takeBytes?_eq_some_iff.mp hb
      exact ⟨a, c, rfl, rfl, by omega⟩
    · simp at h
  · rintro ⟨a, c, rfl, rfl, rfl⟩
    exact slice?_append a b c

/-- A slice between the ends of another slice is a part of it. -/
theorem exists_append_of_slice? {cs inner outer : List Char} {start stop start' stop' : Nat}
    (hinner : slice? cs start' stop' = some inner) (houter : slice? cs start stop = some outer)
    (hstart : start ≤ start') (hstop : stop' ≤ stop) :
    ∃ front rest, outer = front ++ (inner ++ rest) ∧ start' = start + byteSize front := by
  obtain ⟨a', c', hcs', ha', hsize'⟩ := slice?_eq_some_iff.mp hinner
  obtain ⟨a, c, hcs, ha, hsize⟩ := slice?_eq_some_iff.mp houter
  obtain ⟨front, rfl, hrest⟩ :=
    exists_append_of_byteSize_le (hcs.symm.trans hcs') (by omega)
  rw [byteSize_append] at ha'
  rw [← List.append_assoc] at hrest
  obtain ⟨rest, rfl, -⟩ :=
    exists_append_of_byteSize_le hrest.symm (by rw [byteSize_append]; omega)
  exact ⟨front, rest, by simp, by omega⟩

end CodeAtlas.Text
