import CodeAtlas.Text.Pieces

/-!
# `CodeAtlas.Language.Specifier`: how imports are spelled

An import names a module by a path, by names joined with dots, or by such names behind dots
that say how many packages to climb. All are rewritten into a text with slashes.
-/

set_option autoImplicit false

namespace CodeAtlas

/-- How a language spells the specifiers of its imports. -/
inductive SpecifierStyle where
  /-- A relative or bare path. -/
  | path
  /-- Names joined with dots. -/
  | dotted
  /-- Names joined with dots, behind dots for the levels to climb. -/
  | dottedRelative
deriving DecidableEq, Repr

namespace SpecifierStyle

/-- A text with slashes for dots. -/
def slashed (cs : List Char) : List Char :=
  cs.map fun c => if c = '.' then '/' else c

/-- The text that climbs `n` levels. -/
def climb (n : Nat) : List Char :=
  Text.glue '/' (List.replicate n ['.', '.'])

/-- The relative form of a specifier: one dot stays in the package of the importer, and each
further dot climbs one level. -/
def relative (dots : Nat) (rest : List Char) : List Char :=
  match dots with
  | 0 => rest
  | 1 => if rest = [] then ['.'] else '.' :: '/' :: rest
  | n + 2 => if rest = [] then climb (n + 1) else climb (n + 1) ++ '/' :: rest

/-- A specifier with slashes between its parts. -/
def normalizeChars (style : SpecifierStyle) (specifier : List Char) : List Char :=
  match style with
  | .path => specifier
  | .dotted => slashed specifier
  | .dottedRelative =>
    relative (specifier.takeWhile (· = '.')).length (slashed (specifier.dropWhile (· = '.')))

/-- A specifier with slashes between its parts. -/
def normalize (style : SpecifierStyle) (specifier : String) : String :=
  String.ofList (style.normalizeChars specifier.toList)

end SpecifierStyle

end CodeAtlas
