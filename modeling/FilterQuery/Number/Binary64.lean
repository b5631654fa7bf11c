/-!
# Binary floating-point numbers

A number of the 64-bit binary format is kept as its word: a sign bit, eleven
exponent bits and fifty-two fraction bits.  A finite number is exactly `±
mantissa · 2 ^ exponent`, and every operation below is that exact value rounded
once, to the nearest number of the format with ties to the even one.  Nothing
here calls the machine's own floating-point unit, so each operation can be
computed with.
-/

namespace FilterQuery

-- Powers are the built-in ones.
attribute [local instance (high)] instPowNat

/-- A number of the 64-bit binary format, infinities and not-a-number
included. -/
structure Binary64 where
  bits : UInt64
  deriving DecidableEq, Inhabited, Repr

namespace Binary64

/-- The weight of the sign bit. -/
def signWeight : Nat := 0x8000000000000000

/-- The weight of the lowest exponent bit, above all fraction bits. -/
def exponentWeight : Nat := 0x10000000000000

/-- The sign bit is set. -/
def isNegative (x : Binary64) : Bool :=
  signWeight ≤ x.bits.toNat

/-- The word without its sign bit.  It grows with the distance from zero. -/
def magnitude (x : Binary64) : Nat :=
  x.bits.toNat % signWeight

/-- The eleven exponent bits. -/
def exponentField (x : Binary64) : Nat :=
  x.magnitude / exponentWeight

/-- The fifty-two fraction bits. -/
def fractionField (x : Binary64) : Nat :=
  x.magnitude % exponentWeight

/-- The magnitude of the infinities. -/
def infiniteMagnitude : Nat := 2047 * exponentWeight

def isNaN (x : Binary64) : Bool :=
  infiniteMagnitude < x.magnitude

def isInfinite (x : Binary64) : Bool :=
  x.magnitude == infiniteMagnitude

def isFinite (x : Binary64) : Bool :=
  x.magnitude < infiniteMagnitude

/-- Either of the two zeros. -/
def isZero (x : Binary64) : Bool :=
  x.magnitude == 0

/-- A finite number is `± mantissa · 2 ^ exponent`; the leading bit is implied
except next to zero. -/
def mantissa (x : Binary64) : Nat :=
  if x.exponentField = 0 then x.fractionField else exponentWeight + x.fractionField

/-- The power of two that goes with `mantissa`. -/
def exponent (x : Binary64) : Int :=
  if x.exponentField = 0 then -1074 else (x.exponentField : Int) - 1075

/-- The number with a given sign and magnitude. -/
def ofMagnitude (negative : Bool) (magnitude : Nat) : Binary64 :=
  ⟨UInt64.ofNat ((if negative then signWeight else 0) + magnitude)⟩

def zero : Binary64 := ofMagnitude false 0

def infinity (negative : Bool) : Binary64 := ofMagnitude negative infiniteMagnitude

def nan : Binary64 := ofMagnitude false (infiniteMagnitude + exponentWeight / 2)

/-- The same number with the other sign. -/
def neg (x : Binary64) : Binary64 :=
  ofMagnitude (!x.isNegative) x.magnitude

/-- The quotient of two naturals rounded to the nearest natural, a tie to the
even one. -/
def divideToEven (num den : Nat) : Nat :=
  let q := num / den
  let r := num % den
  if den < 2 * r ∨ (2 * r = den ∧ q % 2 = 1) then q + 1 else q

/-- Multiplies a fraction by a power of two. -/
def scaleBinary (num den : Nat) (power : Int) : Nat × Nat :=
  if 0 ≤ power then (num * 2 ^ power.toNat, den) else (num, den * 2 ^ (-power).toNat)

/-- The power of two that the last bit stands for when `num / den` is written
with `digits` bits, but not below `lowest`. -/
def lastBitExponent (digits : Nat) (lowest : Int) (num den : Nat) : Int :=
  let guess : Int := (num.log2 : Int) - (den.log2 : Int) - digits
  let (n, d) := scaleBinary num den (-guess)
  max lowest (if n < 2 ^ digits * d then guess else guess + 1)

/-- The number nearest to `num / den`, a tie to the one with an even mantissa;
too large a fraction gives an infinity. -/
def ofRatio (negative : Bool) (num den : Nat) : Binary64 :=
  if num = 0 then ofMagnitude negative 0
  else
    let e := lastBitExponent 53 (-1074) num den
    let (n, d) := scaleBinary num den (-e)
    ofMagnitude negative
      (min infiniteMagnitude ((e + 1074).toNat * exponentWeight + divideToEven n d))

/-- The number nearest to an integer. -/
def ofInt (n : Int) : Binary64 :=
  ofRatio (n < 0) n.natAbs 1

/-- The distance of a finite number from zero as a fraction. -/
def ratio (x : Binary64) : Nat × Nat :=
  scaleBinary x.mantissa 1 x.exponent

/-- The sum of two numbers that are finite and not negative, rounded. -/
def addMagnitudes (x y : Binary64) : Binary64 :=
  let (a, b) := x.ratio
  let (c, d) := y.ratio
  ofRatio false (a * d + c * b) (b * d)

/-- The product of two numbers that are finite and not negative, rounded. -/
def mulMagnitudes (x y : Binary64) : Binary64 :=
  let (a, b) := x.ratio
  let (c, d) := y.ratio
  ofRatio false (a * c) (b * d)

/-- The quotient of two numbers that are finite and positive, rounded. -/
def divMagnitudes (x y : Binary64) : Binary64 :=
  let (a, b) := x.ratio
  let (c, d) := y.ratio
  ofRatio false (a * d) (b * c)

/-- The whole number nearest to a finite number that is not negative, halves
away from zero. -/
def roundMagnitude (x : Binary64) : Binary64 :=
  let (a, b) := x.ratio
  ofRatio false ((2 * a + b) / (2 * b)) 1

/-- The nearest number of the 32-bit format, widened again. -/
def toSingle (x : Binary64) : Binary64 :=
  if x.isFinite && !x.isZero then
    let (num, den) := x.ratio
    let e := lastBitExponent 24 (-149) num den
    let (n, d) := scaleBinary num den (-e)
    let q := divideToEven n d
    if 0 < e + 24 - 128 ∨ (e + 24 = 128 ∧ q = 0x1000000) then infinity x.isNegative
    else
      let (n, d) := scaleBinary q 1 e
      ofRatio x.isNegative n d
  else x

/-- The place of a number that is not not-a-number on the line; the two zeros
share theirs. -/
def place (x : Binary64) : Int :=
  if x.isNegative then -(x.magnitude : Int) else x.magnitude

/-- The order of two numbers; not-a-number has no place in it. -/
def compare? (x y : Binary64) : Option Ordering :=
  if x.isNaN || y.isNaN then none else some (compare x.place y.place)

end Binary64

end FilterQuery
