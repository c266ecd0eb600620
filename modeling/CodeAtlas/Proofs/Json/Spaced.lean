import CodeAtlas.Json.Basic
import CodeAtlas.Json.Draft

/-!
# `CodeAtlas.Proofs.Json.Spaced`: the forms of a value

The two forms of a value differ only in the space between the lexemes. `spaced` writes a value
with any space; `spaced_tight` and `spaced_lines` say that it gives both forms, so that what is
proved of it holds of either.
-/

set_option autoImplicit false

namespace CodeAtlas.Json

/-- The space of a writing: at the front of a line on each level, and behind the colon of a
member. -/
structure Spacing where
  line : Nat → List Char
  pad : List Char
  line_isSpace : ∀ level, ∀ c ∈ line level, Draft.isSpace c = true
  pad_isSpace : ∀ c ∈ pad, Draft.isSpace c = true

namespace Spacing

/-- No space at all. -/
def tight : Spacing where
  line := fun _ => []
  pad := []
  line_isSpace := fun _ _ hc => absurd hc List.not_mem_nil
  pad_isSpace := fun _ hc => absurd hc List.not_mem_nil

/-- One item to a line. -/
def lines : Spacing where
  line := indent
  pad := [' ']
  line_isSpace := by
    intro level c hc
    obtain rfl | hc := List.mem_cons.mp hc
    · decide
    · rw [(List.mem_replicate.mp hc).2]
      decide
  pad_isSpace := List.forall_mem_singleton.mpr (by decide)

end Spacing

mutual

/-- A value at a level with some space. -/
def spaced (s : Spacing) (level : Nat) : Json → List Char
  | .null => ['n', 'u', 'l', 'l']
  | .bool b => boolText b
  | .number text => text
  | .string text => quote text
  | .array [] => ['[', ']']
  | .array (item :: items) =>
    '[' :: s.line (level + 1) ++ spaced s (level + 1) item ++ spacedItems s level items
  | .object [] => ['\x7b', '\x7d']
  | .object ((name, value) :: members) =>
    '\x7b' :: s.line (level + 1) ++ quote name ++ ':' :: s.pad ++ spaced s (level + 1) value ++
      spacedMembers s level members

/-- The items behind the first one, and the bracket that closes the array. -/
def spacedItems (s : Spacing) (level : Nat) : List Json → List Char
  | [] => s.line level ++ [']']
  | item :: items =>
    ',' :: s.line (level + 1) ++ spaced s (level + 1) item ++ spacedItems s level items

/-- The members behind the first one, and the brace that closes the object. -/
def spacedMembers (s : Spacing) (level : Nat) : List (List Char × Json) → List Char
  | [] => s.line level ++ ['\x7d']
  | (name, value) :: members =>
    ',' :: s.line (level + 1) ++ quote name ++ ':' :: s.pad ++ spaced s (level + 1) value ++
      spacedMembers s level members

end

mutual

/-- Without line breaks a document is written in the compact form. -/
theorem spaced_tight (level : Nat) : ∀ j, spaced .tight level j = compact j
  | .null | .bool _ | .number _ | .string _ | .array [] | .object [] => rfl
  | .array (item :: items) => by
    rw [spaced, spaced_tight _ item, spacedItems_tight level items]
    rfl
  | .object ((name, value) :: members) => by
    rw [spaced, spaced_tight _ value, spacedMembers_tight level members]
    simp [compact, Spacing.tight]

/-- The items of an array, in the compact form. -/
theorem spacedItems_tight (level : Nat) :
    ∀ items, spacedItems .tight level items = compactItems items
  | [] => rfl
  | item :: items => by
    rw [spacedItems, spaced_tight _ item, spacedItems_tight level items]
    rfl

/-- The members of an object, in the compact form. -/
theorem spacedMembers_tight (level : Nat) :
    ∀ members, spacedMembers .tight level members = compactMembers members
  | [] => rfl
  | (name, value) :: members => by
    rw [spacedMembers, spaced_tight _ value, spacedMembers_tight level members]
    simp [compactMembers, Spacing.tight]

end

mutual

/-- With line breaks a document is written in the pretty form. -/
theorem spaced_lines (level : Nat) : ∀ j, spaced .lines level j = prettyAt level j
  | .null | .bool _ | .number _ | .string _ | .array [] | .object [] => rfl
  | .array (item :: items) => by
    rw [spaced, spaced_lines _ item, spacedItems_lines level items]
    rfl
  | .object ((name, value) :: members) => by
    rw [spaced, spaced_lines _ value, spacedMembers_lines level members]
    simp [prettyAt, Spacing.lines]

/-- The items of an array, in the pretty form. -/
theorem spacedItems_lines (level : Nat) :
    ∀ items, spacedItems .lines level items = prettyItems level items
  | [] => rfl
  | item :: items => by
    rw [spacedItems, spaced_lines _ item, spacedItems_lines level items]
    rfl

/-- The members of an object, in the pretty form. -/
theorem spacedMembers_lines (level : Nat) :
    ∀ members, spacedMembers .lines level members = prettyMembers level members
  | [] => rfl
  | (name, value) :: members => by
    rw [spacedMembers, spaced_lines _ value, spacedMembers_lines level members]
    simp [prettyMembers, Spacing.lines]

end

end CodeAtlas.Json
