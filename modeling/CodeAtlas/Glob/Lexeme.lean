import CodeAtlas.Glob.Basic

/-!
# `CodeAtlas.Glob.Lexeme`: the marks of a pattern

A pattern is first cut into its marks: characters, escaped characters and bracketed classes.
-/

set_option autoImplicit false

namespace CodeAtlas.Glob

/-- A mark of a pattern. -/
inductive Lexeme where
  | char (c : Char)
  /-- A character behind a backslash, which means only itself. -/
  | escaped (c : Char)
  /-- A class with its ranges. -/
  | range (negated : Bool) (ranges : List (Char × Char))
deriving DecidableEq, Repr

/-- Where a reader of marks stands. -/
inductive LexemeState where
  | outside
  /-- Behind a backslash. -/
  | escape
  /-- Behind an opening bracket. -/
  | opened
  /-- In a class, with the ranges so far from the last to the first. -/
  | inside (negated : Bool) (ranges : List (Char × Char)) (afterDash : Bool)

/-- A character in a class. The last range is widened by a character behind a dash; a range
that goes backwards is none. -/
def extend? (ranges : List (Char × Char)) (afterDash : Bool) (c : Char) :
    Option (List (Char × Char)) :=
  match afterDash, ranges with
  | true, (low, _) :: others => if c < low then none else some ((low, c) :: others)
  | _, _ => some ((c, c) :: ranges)

/-- The ranges of a class that ends; a dash at its end means itself. -/
def closedRanges (ranges : List (Char × Char)) (afterDash : Bool) : List (Char × Char) :=
  (if afterDash then ('-', '-') :: ranges else ranges).reverse

/-- One character read in a state: the mark that it completes, and the state behind it. -/
def lexemeStep : LexemeState → Char → Option (Option Lexeme × LexemeState)
  | .outside, '\\' => some (none, .escape)
  | .outside, '[' => some (none, .opened)
  | .outside, c => some (some (.char c), .outside)
  | .escape, c => some (some (.escaped c), .outside)
  | .opened, c =>
    if c = '!' || c = '^' then some (none, .inside true [] false)
    else some (none, .inside false [(c, c)] false)
  | .inside negated [] _, c => some (none, .inside negated [(c, c)] false)
  | .inside negated ranges afterDash, c =>
    if c = ']' then some (some (.range negated (closedRanges ranges afterDash)), .outside)
    else if c = '-' && !afterDash then some (none, .inside negated ranges true)
    else (extend? ranges afterDash c).map fun ranges => (none, .inside negated ranges false)

/-- The marks of a text from a state on. A pattern that ends inside a class or behind a
backslash has none. -/
def lexemesFrom : LexemeState → List Char → Option (List Lexeme)
  | .outside, [] => some []
  | _, [] => none
  | state, c :: rest =>
    match lexemeStep state c with
    | none => none
    | some (mark, state) => (lexemesFrom state rest).map fun marks => mark.toList ++ marks

/-- The marks of a pattern. -/
def lexemes (pattern : List Char) : Option (List Lexeme) :=
  lexemesFrom .outside pattern

end CodeAtlas.Glob
