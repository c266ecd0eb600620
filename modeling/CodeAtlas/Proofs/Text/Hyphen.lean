import CodeAtlas.Proofs.Text.Pieces

/-!
# `CodeAtlas.Proofs.Text.Hyphen`: texts with a hyphen between them

What can be told of two texts from the text `a ++ "-" ++ b`. In general it is not which two they
were (`hyphen_eq_iff`). A decimal number has no hyphen (`hyphen_not_mem_toString`), so a number
behind the hyphen can be told (`hyphen_toString_inj`), and a number before it as well if the
other text has a number there (`toString_hyphen_inj`).
-/

set_option autoImplicit false

namespace CodeAtlas.Text

variable {a b a' b' : String} {m n : Nat}

/-- Two parts glued by a hyphen, as characters. -/
theorem toList_hyphen (a b : String) : (a ++ "-" ++ b).toList = a.toList ++ '-' :: b.toList := by
  simp

/-- The hyphen counts one. -/
theorem length_hyphen (a b : String) : (a ++ "-" ++ b).length = a.length + 1 + b.length := by
  rw [String.length_append, String.length_append]
  rfl

/-- A text with a hyphen between two parts has a hyphen. -/
theorem hyphen_mem (a b : String) : '-' ∈ (a ++ "-" ++ b).toList := by
  rw [toList_hyphen]
  exact List.mem_append_right _ List.mem_cons_self

/-- A text is not its own beginning before a hyphen. -/
theorem ne_hyphen (a b : String) : a ≠ a ++ "-" ++ b := by
  intro h
  have hlength := congrArg String.length h
  rw [length_hyphen] at hlength
  omega

/-- Two pairs of texts give one text with a hyphen between them if they are equal, or if they
overlap in a text between two hyphens. -/
theorem hyphen_eq_iff :
    a ++ "-" ++ b = a' ++ "-" ++ b' ↔
      (a = a' ∧ b = b') ∨ (∃ m, a' = a ++ "-" ++ m ∧ b = m ++ "-" ++ b') ∨
        ∃ m, a = a' ++ "-" ++ m ∧ b' = m ++ "-" ++ b := by
  -- The overlap is a list of characters there and a text here.
  have hexists : ∀ {p : List Char → Prop}, (∃ m, p m) ↔ ∃ m : String, p m.toList :=
    ⟨fun ⟨m, hm⟩ => ⟨String.ofList m, by simpa using hm⟩, fun ⟨m, hm⟩ => ⟨m.toList, hm⟩⟩
  rw [← String.toList_inj, toList_hyphen, toList_hyphen, append_sep_eq_iff, hexists, hexists]
  simp only [← toList_hyphen, String.toList_inj]

/-- A common beginning can be left out. -/
theorem beginning_hyphen_eq_iff (start : String) :
    start ++ a ++ "-" ++ b = start ++ a' ++ "-" ++ b' ↔ a ++ "-" ++ b = a' ++ "-" ++ b' := by
  simp only [String.append_assoc, String.append_right_inj]

/-- Gluing three parts leaves no trace of which two came first, which is why a hyphen inside a part
can make two ids one. -/
theorem hyphen_assoc (a b c : String) :
    a ++ "-" ++ b ++ "-" ++ c = a ++ "-" ++ (b ++ "-" ++ c) := by
  simp only [String.append_assoc]

/-! ### Numbers -/

/-- A decimal number has only digits. -/
theorem isDigit_of_mem_toString {c : Char} (h : c ∈ (toString n).toList) : c.isDigit = true := by
  rw [Nat.toString_eq_ofList_toDigits, String.toList_ofList] at h
  exact Nat.isDigit_of_mem_toDigits (by omega) (by omega) h

/-- A decimal number has no hyphen. -/
theorem hyphen_not_mem_toString (n : Nat) : '-' ∉ (toString n).toList :=
  fun h => absurd (isDigit_of_mem_toString h) (by decide)

/-- Different numbers are written differently. -/
theorem toString_inj : toString m = toString n ↔ m = n := by
  constructor
  · intro h
    rw [Nat.toString_eq_ofList_toDigits, Nat.toString_eq_ofList_toDigits,
      String.ofList_inj] at h
    have hdigits := congrArg (fun ds => Nat.ofDigitChars 10 ds 0) h
    simpa only [Nat.ofDigitChars_ten_toDigits] using hdigits
  · rintro rfl
    rfl

/-- A number behind the last hyphen can be told, and so can the text before it. -/
theorem hyphen_toString_inj :
    a ++ "-" ++ toString m = a' ++ "-" ++ toString n ↔ a = a' ∧ m = n := by
  rw [← String.toList_inj, toList_hyphen, toList_hyphen,
    append_sep_inj_of_right (hyphen_not_mem_toString m) (hyphen_not_mem_toString n),
    String.toList_inj, String.toList_inj, toString_inj]

/-- A number before the first hyphen is also the beginning of what the other text has there. -/
theorem toString_hyphen_eq_iff :
    toString n ++ "-" ++ b = a' ++ "-" ++ b' ↔
      (a' = toString n ∧ b = b') ∨ ∃ m, a' = toString n ++ "-" ++ m ∧ b = m ++ "-" ++ b' := by
  rw [hyphen_eq_iff]
  constructor
  · rintro (⟨rfl, rfl⟩ | hover | ⟨m, hn, -⟩)
    · exact .inl ⟨rfl, rfl⟩
    · exact .inr hover
    · -- The number would be longer than what stands before the hyphen on the other side.
      exact absurd (hn ▸ hyphen_mem a' m) (hyphen_not_mem_toString n)
  · rintro (⟨rfl, rfl⟩ | hover)
    · exact .inl ⟨rfl, rfl⟩
    · exact .inr (.inl hover)

/-- Of two numbers before the first hyphen, each can be told. -/
theorem toString_hyphen_inj :
    toString m ++ "-" ++ b = toString n ++ "-" ++ b' ↔ m = n ∧ b = b' := by
  rw [toString_hyphen_eq_iff, toString_inj]
  constructor
  · rintro (⟨rfl, rfl⟩ | ⟨k, hn, -⟩)
    · exact ⟨rfl, rfl⟩
    · exact absurd (hn ▸ hyphen_mem (toString m) k) (hyphen_not_mem_toString n)
  · rintro ⟨rfl, rfl⟩
    exact .inl ⟨rfl, rfl⟩

end CodeAtlas.Text
