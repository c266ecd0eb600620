import CodeAtlas.Json.Number
import CodeAtlas.Single.Basic

/-!
# `CodeAtlas.Single.Rounding`: from decimal to binary

A decimal number is rounded to the nearest binary number with a given count of digits, a half
to the even neighbour. A number of a text is first rounded to double and then to single
precision.
-/

set_option autoImplicit false

namespace CodeAtlas

/-- The integer nearest to a quotient; of two, the even one. -/
def roundDiv (num den : Nat) : Nat :=
  let whole := num / den
  let rest := num % den
  if den < 2 * rest || (2 * rest = den && whole % 2 = 1) then whole + 1 else whole

/-- The significand and the exponent of the binary number nearest to a quotient. It has the
given count of digits and an exponent that is not below the least one. -/
def nearestBinary (digits : Nat) (least : Int) (num den : Nat) : Nat × Int :=
  if num = 0 then (0, least)
  else
    let scaled (q : Int) : Nat × Nat :=
      if 0 ≤ q then (num, den <<< q.toNat) else (num <<< (-q).toNat, den)
    let low : Int := (num.log2 : Int) - den.log2 - digits
    let (n, d) := scaled low
    let q := max least (if d <<< digits ≤ n then low + 1 else low)
    let (n, d) := scaled q
    (roundDiv n d, q)

namespace Single

/-- The number with a given sign, significand and exponent; too large a value is infinite. The
significand has 24 digits or counts the smallest unit, or is the least number with 25 digits. -/
def ofParts (negative : Bool) (m : Nat) (q : Int) : Single :=
  let (m, q) := if m = 0x1000000 then (0x800000, q + 1) else (m, q)
  let magnitude :=
    if m < 0x800000 then m
    else min infinityBits ((q + 150).toNat * 0x800000 + (m - 0x800000))
  ⟨UInt32.ofNat ((if negative then 0x80000000 else 0) + magnitude)⟩

/-- The number that a number's text writes, by way of double precision. -/
def ofNumber (text : List Char) : Single :=
  let parts := Json.NumberParts.ofText text
  let digits := Json.digitsValue (parts.whole ++ parts.fraction)
  let power := parts.exponent - parts.fraction.length
  let length : Int := (parts.whole ++ parts.fraction).length
  if digits = 0 ∨ power + length < -400 then ofParts parts.negative 0 0
  else if 400 < power then ofParts parts.negative 0x800000 200
  else
    let (m, q) := nearestBinary 53 (-1074)
      (if 0 ≤ power then digits * Json.tenTo power.toNat else digits)
      (if 0 ≤ power then 1 else Json.tenTo (-power).toNat)
    let (m, q) := nearestBinary 24 (-149) (if 0 ≤ q then m <<< q.toNat else m)
      (if 0 ≤ q then 1 else 1 <<< (-q).toNat)
    ofParts parts.negative m q

end Single

end CodeAtlas
