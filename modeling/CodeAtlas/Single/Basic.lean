/-!
# `CodeAtlas.Single.Basic`: numbers of single precision

A number of single precision is its 32 bits, so that two zeros and the many values that are no
number stay apart. Numbers are compared by their rank, an integer that grows with the value and
is the same for both zeros; what is no number has no place among them.
-/

set_option autoImplicit false

namespace CodeAtlas

/-- A binary number of single precision. -/
structure Single where
  bits : UInt32
deriving DecidableEq, Repr, Inhabited

namespace Single

/-- The bits without the sign. -/
def magnitude (x : Single) : Nat :=
  x.bits.toNat % 0x80000000

/-- Whether the sign bit is set. -/
def negative (x : Single) : Bool :=
  0x80000000 ≤ x.bits.toNat

/-- The bits of the infinity without a sign. -/
def infinityBits : Nat := 0x7f800000

/-- Whether the bits stand for no number. -/
def isNaN (x : Single) : Bool :=
  infinityBits < x.magnitude

/-- Whether the bits stand for a number with finitely many digits. -/
def isFinite (x : Single) : Bool :=
  x.magnitude < infinityBits

/-- Whether the number is a zero of either sign. -/
def isZero (x : Single) : Bool :=
  x.magnitude = 0

def zero : Single := ⟨0⟩
def negativeZero : Single := ⟨0x80000000⟩
def one : Single := ⟨0x3f800000⟩

/-- An integer that orders the numbers as their values do. -/
def rank (x : Single) : Int :=
  if x.negative then -(x.magnitude : Int) else x.magnitude

/-- Whether two numbers have the same value. What is no number equals nothing. -/
def same (x y : Single) : Bool :=
  !x.isNaN && !y.isNaN && x.rank = y.rank

/-- How the value of one number compares with another's. What is no number compares with
nothing. -/
def compare? (x y : Single) : Option Ordering :=
  if x.isNaN || y.isNaN then none else some (compare x.rank y.rank)

/-! ### Arithmetic -/

def ofFloat32 (x : Float32) : Single := ⟨x.toBits⟩
def toFloat32 (x : Single) : Float32 := Float32.ofBits x.bits

def add (x y : Single) : Single := ofFloat32 (x.toFloat32 + y.toFloat32)
def mul (x y : Single) : Single := ofFloat32 (x.toFloat32 * y.toFloat32)
def div (x y : Single) : Single := ofFloat32 (x.toFloat32 / y.toFloat32)
def sqrt (x : Single) : Single := ofFloat32 x.toFloat32.sqrt

/-- The sum of a list from left to right. The sum of no numbers is the zero that changes no
other number, the one with a sign. -/
def sum (xs : List Single) : Single :=
  xs.foldl add negativeZero

/-! ### Values -/

/-- The significand and the exponent of the unit that it counts: the absolute value of a finite
number is the first times two to the power of the second. -/
def parts (x : Single) : Nat × Int :=
  let exponent : Nat := x.magnitude / 0x800000
  let fraction : Nat := x.magnitude % 0x800000
  if exponent = 0 then (fraction, -149) else (fraction + 0x800000, (exponent : Int) - 150)

/-- The absolute value of a finite number as a quotient. -/
def quotient (x : Single) : Nat × Nat :=
  let (m, q) := x.parts
  if 0 ≤ q then (m <<< q.toNat, 1) else (m, 1 <<< (-q).toNat)

/-! ### The four bytes of a number -/

/-- The bytes of a number, the lowest first. -/
def bytes (x : Single) : List UInt8 :=
  let n := x.bits.toNat
  [n, n / 0x100, n / 0x10000, n / 0x1000000].map UInt8.ofNat

/-- The number with four given bytes, the lowest first. -/
def ofBytes (a b c d : UInt8) : Single :=
  ⟨UInt32.ofNat (a.toNat + 0x100 * b.toNat + 0x10000 * c.toNat + 0x1000000 * d.toNat)⟩

end Single

end CodeAtlas
