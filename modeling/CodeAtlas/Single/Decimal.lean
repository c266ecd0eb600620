import CodeAtlas.Json.Basic
import CodeAtlas.Single.Rounding

/-!
# `CodeAtlas.Single.Decimal`: numbers of single precision as decimal texts

In documents a number has the fewest digits that read back as the same number, and of those
the ones nearest to it. In texts for people it has a fixed count of decimals, its exact value
rounded to the nearest, a half to the even neighbour.
-/

set_option autoImplicit false

namespace CodeAtlas.Single

/-! ### The fewest digits -/

/-- The bounds of the values that round to a number: two numerators over a denominator. -/
def bounds (x : Single) : Nat × Nat × Nat :=
  let (m, q) := x.parts
  -- in quarters of the unit, since below a power of two the numbers are half as far apart
  let below := if m = 0x800000 && (-149 : Int) < q then 1 else 2
  let scale := if 0 ≤ q then 1 <<< q.toNat else 1
  let den := if 0 ≤ q then 4 else 4 <<< (-q).toNat
  ((4 * m - below) * scale, (4 * m + 2) * scale, den)

/-- Whether a decimal number lies within the bounds; the bounds themselves count if the
significand is even. -/
def roundsTo (x : Single) (c : Nat) (power : Int) : Bool :=
  let (low, high, den) := x.bounds
  let num := if 0 ≤ power then c * Json.tenTo power.toNat * den else c * den
  let unit := if 0 ≤ power then 1 else Json.tenTo (-power).toNat
  if x.parts.1 % 2 = 0 then low * unit ≤ num && num ≤ high * unit
  else low * unit < num && num < high * unit

/-- The power of ten of the first digit of a number that is not zero. -/
def leadingPower (x : Single) : Int :=
  let (num, den) := x.quotient
  let reached (k : Nat) : Bool :=
    -- ten to the power of `k - 46` is at most the number
    if 46 ≤ k then den * Json.tenTo (k - 46) ≤ num else den ≤ num * Json.tenTo (46 - k)
  ((List.range 86).countP reached : Int) - 47

/-- The nearest decimal number with a given last place that reads back, if one does. -/
def onGrid? (x : Single) (power : Int) : Option Nat :=
  let (num, den) := x.quotient
  let n := if 0 ≤ power then num else num * Json.tenTo (-power).toNat
  let d := if 0 ≤ power then den * Json.tenTo power.toNat else den
  let near := roundDiv n d
  let other := if near * d ≤ n then near + 1 else near - 1
  if x.roundsTo near power then some near
  else if x.roundsTo other power then some other
  else none

/-- The digits of a number without the zeros at its end, and their count. -/
def withoutZeros (fuel c : Nat) (power : Int) : Nat × Int :=
  match fuel with
  | 0 => (c, power)
  | fuel + 1 => if c ≠ 0 ∧ c % 10 = 0 then withoutZeros fuel (c / 10) (power + 1) else (c, power)

/-- The fewest digits that read back as a number, and the power of ten of the last of them. -/
def fewestDigits (x : Single) : Nat × Int :=
  let top := x.leadingPower
  match (List.range 9).findSome? fun (n : Nat) =>
      (x.onGrid? (top - n)).map fun c => (c, top - (n : Int)) with
  | some (c, power) => withoutZeros 10 c power
  | none => (0, 0)

/-! ### Texts -/

/-- The sign of a number. -/
def signText (x : Single) : List Char :=
  if x.negative then ['-'] else []

/-- Digits with the point behind a given power of ten. Numbers from a millionth up to ten
trillions are written out with at least one decimal, all others with an exponent. -/
def positional (c : Nat) (power : Int) : List Char :=
  let digits := Nat.toDigits 10 c
  let top := power + digits.length - 1
  if top < -6 ∨ 13 ≤ top then
    let mantissa := match digits with
      | [d] => [d]
      | d :: rest => d :: '.' :: rest
      | [] => []
    mantissa ++ 'e' :: (if top < 0 then '-' else '+') :: Nat.toDigits 10 top.natAbs
  else if 0 ≤ power then digits ++ List.replicate power.toNat '0' ++ ['.', '0']
  else if 0 ≤ top then
    digits.take (top.toNat + 1) ++ '.' :: digits.drop (top.toNat + 1)
  else '0' :: '.' :: List.replicate (-top - 1).toNat '0' ++ digits

/-- A number in a document. What is no finite number is `null`. -/
def toJson (x : Single) : Json :=
  if !x.isFinite then .null
  else if x.isZero then .number (x.signText ++ ['0', '.', '0'])
  else .number (x.signText ++ positional x.fewestDigits.1 x.fewestDigits.2)

/-- A natural number with leading zeros up to a count of digits. -/
def padded (width n : Nat) : List Char :=
  let digits := Nat.toDigits 10 n
  List.replicate (width - digits.length) '0' ++ digits

/-- A number with a fixed count of decimals. -/
def fixed (places : Nat) (x : Single) : List Char :=
  if x.isNaN then ['N', 'a', 'N']
  else if !x.isFinite then x.signText ++ ['i', 'n', 'f']
  else
    let (num, den) := x.quotient
    let n := roundDiv (num * Json.tenTo places) den
    let decimals := if places = 0 then [] else '.' :: padded places (n % Json.tenTo places)
    x.signText ++ Nat.toDigits 10 (n / Json.tenTo places) ++ decimals

end CodeAtlas.Single
