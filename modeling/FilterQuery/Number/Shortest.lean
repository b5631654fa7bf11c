import FilterQuery.Number.Binary64
import FilterQuery.Number.Digits

/-!
# The shortest decimal text of a binary number

A finite number is written with the fewest digits that read back as the same
number, and among those with the digits nearest to it; which of two equally near
ones it is differs between plain text and data formats.  The reals that read
back as `m · 2 ^ e` form an interval around it, which holds its ends when `m` is
even.  For each count of digits the two neighbours of the number on that decimal
grid are tried: the first grid with a hit wins.
-/

namespace FilterQuery.Binary64

-- Powers are the built-in ones.
attribute [local instance (high)] instPowNat

/-- The reals that round to a positive number, as fractions over one
denominator. -/
structure RoundingInterval where
  low : Nat
  value : Nat
  high : Nat
  denominator : Nat
  closed : Bool

/-- The rounding interval of a positive number: half a unit of the last place to
each side, but only a quarter below a power of two, where the numbers lie
closer. -/
def roundingInterval (x : Binary64) : RoundingInterval :=
  let m := x.mantissa
  let below := if x.fractionField = 0 ∧ 1 < x.exponentField then 1 else 2
  let (scale, denominator) := scaleBinary 1 1 (x.exponent - 2)
  { low := (4 * m - below) * scale
    value := 4 * m * scale
    high := (4 * m + 2) * scale
    denominator
    closed := m % 2 = 0 }

/-- The fraction `num / den` lies in the interval. -/
def RoundingInterval.holds (i : RoundingInterval) (num den : Nat) : Bool :=
  let low := i.low * den
  let high := i.high * den
  let x := num * i.denominator
  if i.closed then low ≤ x && x ≤ high else low < x && x < high

/-- A decimal number `digits · 10 ^ exponent`. -/
structure Decimal10 where
  digits : Nat
  exponent : Int
  deriving DecidableEq, Repr

/-- Multiplies a fraction by a power of ten. -/
def scaleDecimal (num den : Nat) (power : Int) : Nat × Nat :=
  if 0 ≤ power then (num * 10 ^ power.toNat, den) else (num, den * 10 ^ (-power).toNat)

/-- Which of two equally near digit strings is taken. -/
inductive Tie where
  | upper
  | even
  deriving DecidableEq, Repr

/-- The nearer of the interval value's two neighbours on the grid of the
multiples of `10 ^ exponent` that lies in the interval. -/
def RoundingInterval.hit? (i : RoundingInterval) (tie : Tie) (exponent : Int) :
    Option Decimal10 :=
  let (num, den) := scaleDecimal i.value i.denominator (-exponent)
  let lower := num / den
  let inside (d : Nat) : Bool :=
    let (n, m) := scaleDecimal d 1 exponent
    i.holds n m
  let twice := 2 * (num % den)
  let lowerFirst := twice < den || (twice = den && tie = .even && lower % 2 = 0)
  let nearest := if lowerFirst then [lower, lower + 1] else [lower + 1, lower]
  (nearest.find? inside).map fun d => ⟨d, exponent⟩

/-- The exponent of the first digit of `num / den`: the largest `p` with `10 ^ p
≤ num / den`. -/
def leadingExponent (num den : Nat) : Int :=
  let whole := num / den
  if 0 < whole then ((Number.digits whole).length : Int) - 1
  else -((Number.digits ((den - 1) / num)).length : Int)

/-- Drops zeros from the end of the digits, at most `fuel` of them. -/
def Decimal10.stripZeros (d : Decimal10) : Nat → Decimal10
  | 0 => d
  | fuel + 1 =>
    if d.digits % 10 = 0 ∧ d.digits ≠ 0 then
      stripZeros ⟨d.digits / 10, d.exponent + 1⟩ fuel
    else d

/-- The fewest digits that read back as a positive number, the nearest of
those. -/
def shortest (x : Binary64) (tie : Tie) : Decimal10 :=
  let i := x.roundingInterval
  let first := leadingExponent i.value i.denominator
  let found := (List.range 17).findSome? fun (n : Nat) => i.hit? tie (first - (n : Int))
  ((found.getD ⟨0, 0⟩).stripZeros 18)

/-- Digits with a point after `whole` of them, counted from the first; zeros
fill the gaps. -/
def placePoint (ds : List Char) (whole : Int) : List Char × List Char :=
  if whole ≤ 0 then (['0'], List.replicate (-whole).toNat '0' ++ ds)
  else
    let n := whole.toNat
    (ds.take n ++ List.replicate (n - ds.length) '0', ds.drop n)

/-- The text of a number that is not finite, or of its sign and the text of its
magnitude. -/
def withSign (x : Binary64) (body : List Char) : String :=
  if x.isNaN then "NaN"
  else
    let text := if x.isInfinite then ['i', 'n', 'f'] else body
    String.ofList (if x.isNegative then '-' :: text else text)

/-- The text of a number in positional notation throughout, with a point only
before a fraction; of two equally near texts the one further from zero. -/
def toText (x : Binary64) : String :=
  x.withSign <|
    if x.isZero then ['0']
    else
      let d := x.shortest .upper
      let ds := Number.digits d.digits
      let (whole, fraction) := placePoint ds (ds.length + d.exponent)
      if fraction.isEmpty then whole else whole ++ '.' :: fraction

/-- The text of a finite number as data formats write it: always with a fraction
or an exponent, which always has a sign; positional for first digits from the
fifth decimal place up to the sixteenth whole one; of two equally near texts the
one that ends in an even digit. -/
def toDataText (x : Binary64) : String :=
  x.withSign <|
    if x.isZero then ['0', '.', '0']
    else
      let d := x.shortest .even
      let ds := Number.digits d.digits
      let point := ds.length + d.exponent
      if -5 < point ∧ point ≤ 16 then
        let (whole, fraction) := placePoint ds point
        whole ++ '.' :: (if fraction.isEmpty then ['0'] else fraction)
      else
        let power := point - 1
        let mantissa := match ds with
          | c :: [] => [c]
          | c :: rest => c :: '.' :: rest
          | [] => []
        let sign := if power < 0 then '-' else '+'
        mantissa ++ 'e' :: sign :: Number.digits power.natAbs

end FilterQuery.Binary64
