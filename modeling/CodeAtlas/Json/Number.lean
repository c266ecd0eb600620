/-!
# `CodeAtlas.Json.Number`: numbers as they are written

A number's text is a sign, a whole part, a fraction and an exponent. It is an integer if it
has neither fraction nor exponent and is not a zero with a sign, and it is too large if it
rounds to no finite binary number of double precision.
-/

set_option autoImplicit false

namespace CodeAtlas.Json

/-- The number that digits write. -/
def digitsValue (digits : List Char) : Nat :=
  digits.foldl (fun n c => 10 * n + (c.toNat - 48)) 0

/-- Ten to the power of a natural number. -/
def tenTo (n : Nat) : Nat := Nat.pow 10 n

/-- The parts of a number's text. -/
structure NumberParts where
  negative : Bool
  whole : List Char
  fraction : List Char
  exponent : Int
  /-- Whether a fraction or an exponent is written. -/
  scientific : Bool

/-- The value of an exponent behind its mark. -/
def exponentValue (cs : List Char) : Int :=
  match cs with
  | '-' :: digits => -(digitsValue digits : Int)
  | '+' :: digits => digitsValue digits
  | digits => digitsValue digits

/-- The parts of a number's text. -/
def NumberParts.ofText (text : List Char) : NumberParts :=
  let negative := text.head? = some '-'
  let unsigned := if negative then text.drop 1 else text
  let whole := unsigned.takeWhile Char.isDigit
  let rest := unsigned.drop whole.length
  let fraction := if rest.head? = some '.' then (rest.drop 1).takeWhile Char.isDigit else []
  let behind := if rest.head? = some '.' then rest.drop (fraction.length + 1) else rest
  ⟨negative, whole, fraction, exponentValue (behind.drop 1), !rest.isEmpty⟩

/-- The integer that a number's text writes, if it writes one. -/
def integer? (text : List Char) : Option Int :=
  let parts := NumberParts.ofText text
  let n := digitsValue parts.whole
  if parts.scientific || (parts.negative && n = 0) then none
  else some (if parts.negative then -(n : Int) else n)

/-- Whether a number rounds to no finite number of double precision: whether it reaches half
a unit in the last place beyond the largest one. -/
def tooLarge (text : List Char) : Bool :=
  let parts := NumberParts.ofText text
  let digits := digitsValue (parts.whole ++ parts.fraction)
  let power := parts.exponent - parts.fraction.length
  let limit := (1 <<< 1024) - (1 <<< 970)
  if digits = 0 then false
  else if (400 : Int) < power then true
  else if 0 ≤ power then limit ≤ digits * tenTo power.toNat
  else if (parts.whole.length : Int) + parts.exponent < 300 then false
  else limit * tenTo (-power).toNat ≤ digits

end CodeAtlas.Json
