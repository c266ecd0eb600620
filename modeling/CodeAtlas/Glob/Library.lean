import CodeAtlas.Glob.Parse

/-!
# `CodeAtlas.Glob.Library`: sets of patterns

A scan tests names against sets of patterns, and relies on nothing but the interface below: which
texts make a pattern, and what a set of such texts tests. A library may refuse a set whose patterns
it takes one by one, for instance because they are too large together. Then nothing is matched,
neither what is wanted nor what is left out.

`GlobLibrary.standard` fills the interface with the patterns of this library, which refuses no set.
-/

set_option autoImplicit false

namespace CodeAtlas

/-- A library of path patterns, as far as a scan uses one. -/
structure GlobLibrary where
  /-- Whether a text makes a pattern. -/
  accepts : String → Bool
  /-- What the set of the patterns of some texts tests, unless the set is refused. -/
  build? : List String → Option (String → Bool)

namespace GlobLibrary

/-- What some texts test together: texts that make no pattern are passed over, and a set that is
refused tests nothing. -/
def matcher (lib : GlobLibrary) (patterns : List String) : String → Bool :=
  match lib.build? (patterns.filter lib.accepts) with
  | some test => test
  | none => fun _ => false

/-- The patterns of this library. -/
def standard : GlobLibrary where
  accepts pattern := (Glob.ofText? pattern).isSome
  build? patterns :=
    let globs := patterns.filterMap Glob.ofText?
    some fun text =>
      let bytes := Text.bytes text.toList
      globs.any fun g => g.isMatch bytes

end GlobLibrary

end CodeAtlas
