import CodeAtlas.Glob.Lexeme

/-!
# `CodeAtlas.Glob.Parse`: patterns out of their texts

Braces may be nested. What two stars mean depends on what stands around them; anywhere but
between slashes they are two single ones.
-/

set_option autoImplicit false

namespace CodeAtlas.Glob

/-- An open brace: the branch in which it stands and the finished alternatives behind it. All
lists of items and of alternatives run from the last to the first. -/
structure OpenBrace where
  before : List GlobItem
  alternatives : List (List GlobItem)

/-- A pattern in the making. -/
structure Draft where
  /-- The items of the branch in the making. -/
  branch : List GlobItem
  /-- The braces around it, the innermost first. -/
  braces : List OpenBrace

namespace Draft

/-- The pattern with one more item. -/
def push (d : Draft) (item : GlobItem) : Draft :=
  { d with branch := item :: d.branch }

/-- The pattern with one more character. -/
def pushChar (d : Draft) (c : Char) : Draft :=
  { d with branch := (Text.charBytes c).reverse.map GlobItem.byte ++ d.branch }

/-- The ranges of bytes of a range of characters: the bytes of its ends stand for themselves
except for the range from the last byte of the one to the first byte of the other. -/
def byteRanges (r : Char × Char) : List (UInt8 × UInt8) :=
  let low := Text.charBytes r.1
  let high := Text.charBytes r.2
  if r.1 = r.2 then low.map fun b => (b, b)
  else
    low.dropLast.map (fun b => (b, b)) ++ [(low.getLastD 0, high.headD 0)] ++
      high.tail.map fun b => (b, b)

/-- Takes the item away that two stars swallow, the slash before them; stars that were directories
at the front or at the end stay what they are. -/
def joinStars (d : Draft) (joined : GlobItem) : Draft :=
  match d.branch with
  | .front :: _ | .inside :: _ => d
  | _ :: rest => { d with branch := joined :: rest }
  | [] => d.push joined

/-- Alternatives that match something, the first one first. -/
def alternatives (d : Draft) (brace : OpenBrace) : List (List GlobItem) :=
  ((d.branch :: brace.alternatives).map List.reverse).reverse.filter fun items =>
    !items.all isVoid
where
  /-- Whether an item is a choice without alternatives. -/
  isVoid : GlobItem → Bool
    | .choice [] => true
    | _ => false

end Draft

/-- Two stars behind a character, before given marks: the pattern with them, whether they
swallow the mark behind them. -/
def doubleStar (previous : Option Char) (d : Draft) (rest : List Lexeme) : Draft × Bool :=
  let single := (d.push .star).push .star
  let slash := rest.head? = some (.char '/')
  let inBrace := !d.braces.isEmpty
  if d.branch.isEmpty then
    if slash || rest.isEmpty then (d.push .front, slash) else (single, false)
  else if previous ≠ some '/' && !(inBrace && (previous = some ',' || previous = some '\x7b')) then
    (single, false)
  else if rest.isEmpty ||
      (inBrace && (rest.head? = some (.char ',') || rest.head? = some (.char '\x7d'))) then
    (d.joinStars .inside, false)
  else if slash then (d.joinStars .between, true)
  else (single, false)

/-- The pattern that marks make behind what was read of them, if its braces match. -/
def parseFrom (previous : Option Char) (d : Draft) : List Lexeme → Option (List GlobItem)
  | [] => if d.braces.isEmpty then some d.branch.reverse else none
  | .char '?' :: rest => parseFrom (some '?') (d.push .any) rest
  | .char '*' :: .char '*' :: rest =>
    match doubleStar previous d rest, rest with
    | (d, true), _ :: rest => parseFrom (some '/') d rest
    | (d, _), rest => parseFrom (some '*') d rest
  | .char '*' :: rest => parseFrom (some '*') (d.push .star) rest
  | .char '\x7b' :: rest => parseFrom (some '\x7b') ⟨[], ⟨d.branch, []⟩ :: d.braces⟩ rest
  | .char '\x7d' :: rest =>
    match d.braces with
    | [] => none
    | brace :: braces =>
      parseFrom (some '\x7d') ⟨.choice (d.alternatives brace) :: brace.before, braces⟩ rest
  | .char ',' :: rest =>
    match d.braces with
    | [] => parseFrom (some ',') (d.pushChar ',') rest
    | brace :: braces =>
      parseFrom (some ',')
        ⟨[], { brace with alternatives := d.branch :: brace.alternatives } :: braces⟩ rest
  | .range negated ranges :: rest =>
    parseFrom (some ']') (d.push (.range negated (ranges.flatMap Draft.byteRanges))) rest
  | .char c :: rest | .escaped c :: rest => parseFrom (some c) (d.pushChar c) rest

/-- The pattern with a given text, if the text makes one. -/
def ofText? (pattern : String) : Option Glob :=
  ((lexemes pattern.toList).bind (parseFrom none ⟨[], []⟩)).map Glob.mk

end CodeAtlas.Glob
