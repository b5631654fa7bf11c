import FilterQuery.Number.Binary64
import FilterQuery.Number.Digits

/-!
# Decimal numbers

A decimal number is a sign, a whole number below `2 ^ 96` and a scale of at most
28: the count of digits after the point.  The scale is part of the number's
text, so `1.50` stays `1.50`, but not of its value: two decimals compare as the
fractions they denote.
-/

namespace FilterQuery

-- Powers are the built-in ones.
attribute [local instance (high)] instPowNat

/-- The number `± coefficient · 10 ^ -scale`. -/
structure Decimal where
  negative : Bool
  coefficient : Nat
  scale : Nat
  deriving DecidableEq, Inhabited, Repr

namespace Decimal

/-- Coefficients lie below this bound. -/
def bound : Nat := 0x1000000000000000000000000

/-- The largest scale. -/
def maxScale : Nat := 28

/-- The decimal of an integer. -/
def ofInt (n : Int) : Decimal :=
  ⟨n < 0, n.natAbs, 0⟩

/-- The coefficient with its sign. -/
def signed (d : Decimal) : Int :=
  if d.negative then -(d.coefficient : Int) else d.coefficient

/-- The order of the fractions that two decimals denote. -/
protected def compare (a b : Decimal) : Ordering :=
  Ord.compare (a.signed * 10 ^ b.scale) (b.signed * 10 ^ a.scale)

/-- The decimal in positional notation with exactly `scale` digits after the
point. -/
def toText (d : Decimal) : String :=
  let ds := Number.digits d.coefficient
  let ds := List.replicate (d.scale + 1 - ds.length) '0' ++ ds
  let whole := ds.take (ds.length - d.scale)
  let body := if d.scale = 0 then whole else whole ++ '.' :: ds.drop (ds.length - d.scale)
  String.ofList (if d.negative then '-' :: body else body)

/-- The part of a numeral read so far.  Underscores are passed over after the
first digit.  Digits that no longer fit after the point are dropped, and the
first of them decides the rounding, a five going up. -/
structure Reading where
  coefficient : Nat := 0
  scale : Nat := 0
  /-- The point has been read. -/
  afterPoint : Bool := false
  /-- A digit has been read. -/
  hasDigit : Bool := false

/-- Drops the rest of a fraction that has no more room, and rounds by its first
digit. -/
def Reading.roundBy (r : Reading) (rest : List Char) : Option Reading :=
  if rest.all fun c => c.isDigit || c = '_' then
    if rest.find? Char.isDigit |>.all (Number.digitValue · < 5) then some r
    else if r.coefficient + 1 < bound then some { r with coefficient := r.coefficient + 1 }
    else if r.scale = 0 then none
    else some { r with coefficient := (r.coefficient + 5) / 10, scale := r.scale - 1 }
  else none

/-- What a numeral has come to is long from here on. -/
def longFrom : Nat := (UInt64.size - 1) / 10 - 255

/-- Rounds by the text behind the last digit that has room.  An underscore that
stands there first is passed over in a long numeral only; in another one it
counts as a zero. -/
def Reading.roundAtEnd (r : Reading) (rest : List Char) : Option Reading :=
  match rest with
  | '_' :: rest => r.roundBy (if r.coefficient / 10 < longFrom then '0' :: rest else rest)
  | rest => r.roundBy rest

/-- Reads the digits, the point and the underscores of a numeral without a
sign. -/
def Reading.run (r : Reading) : List Char → Option Reading
  | [] => if r.hasDigit then some r else none
  | c :: cs =>
    if r.afterPoint && r.scale = maxScale then r.roundAtEnd (c :: cs)
    else if c.isDigit then
      let next := 10 * r.coefficient + Number.digitValue c
      if next < bound then
        Reading.run { r with
          coefficient := next
          scale := if r.afterPoint then r.scale + 1 else 0
          hasDigit := true } cs
      else if r.afterPoint then r.roundBy (c :: cs)
      else none
    else if c = '.' && !r.afterPoint then Reading.run { r with afterPoint := true } cs
    else if c = '_' && r.hasDigit then Reading.run r cs
    else none

/-- A decimal in positional notation. A zero has no sign. -/
def ofPositional? (cs : List Char) : Option Decimal :=
  let (negative, body) := Number.splitSign cs
  (Reading.run {} body).map fun r =>
    ⟨negative && r.coefficient ≠ 0, r.coefficient, r.scale⟩

/-- A coefficient without its last `count` digits, a half going up. -/
def dropDigits (coefficient count : Nat) : Nat :=
  (2 * coefficient + 10 ^ count) / (2 * 10 ^ count)

/-- Multiplies a decimal by a power of ten: a shift of the point, which drops
the digits that the scale has no room for, or a whole number where the point
would move past all digits. -/
def shiftPoint? (d : Decimal) (power : Int) : Option Decimal :=
  if power ≤ d.scale then
    let scale := (d.scale - power).toNat
    some { d with
      coefficient := dropDigits d.coefficient (scale - maxScale), scale := min scale maxScale }
  else
    let coefficient := d.coefficient * 10 ^ (power - d.scale).toNat
    if coefficient < bound then some ⟨d.negative, coefficient, 0⟩ else none

/-- The power of ten written after an `e`, at most 28 to either side. -/
def readPower? (cs : List Char) : Option Int :=
  let (negative, body) := match cs with
    | '-' :: r => (true, r)
    | r => (false, r)
  (Number.readUInt32? body).bind fun n =>
    if n.toNat ≤ maxScale then some (if negative then -(n.toNat : Int) else n.toNat) else none

/-- A decimal in positional notation, or one followed by `e` and a power of
ten. -/
def ofText? (s : String) : Option Decimal :=
  let cs := s.toList
  match ofPositional? cs with
  | some d => some d
  | none =>
    let isMark (c : Char) : Bool := c = 'e' || c = 'E'
    match cs.dropWhile (!isMark ·) with
    | [] => none
    | _ :: power => do
      let d ← ofPositional? (cs.takeWhile (!isMark ·))
      let p ← readPower? power
      d.shiftPoint? p

/-- A number `value · 10 ^ tens · 5 ^ fives` under conversion. -/
structure Scaled where
  value : Nat
  tens : Int
  fives : Int

/-- Divides a coefficient by ten, a half going up. -/
def dropDigit (n : Nat) : Nat :=
  if 5 ≤ n % 10 then n / 10 + 1 else n / 10

/-- Multiplies the fives in while there are any. An even value gives up a two
instead, and so does one that has no room left. -/
def Scaled.multiplyFives : Nat → Scaled → Scaled
  | 0, s => s
  | fuel + 1, s =>
    if 0 < s.fives then
      multiplyFives fuel <|
        if s.value % 2 = 0 then ⟨s.value / 2, s.tens + 1, s.fives - 1⟩
        else if s.value * 5 < bound then ⟨s.value * 5, s.tens, s.fives - 1⟩
        else ⟨s.value / 2, s.tens + 1, s.fives - 1⟩
    else s

/-- Divides the missing fives out, doubling instead while the top bit is
free. -/
def Scaled.divideFives : Nat → Scaled → Option Scaled
  | 0, s => some s
  | fuel + 1, s =>
    if s.fives < 0 then
      if s.value < bound / 2 then divideFives fuel ⟨s.value * 2, s.tens - 1, s.fives + 1⟩
      else if -s.fives < s.tens * 2 then none
      else divideFives fuel ⟨s.value / 5, s.tens, s.fives + 1⟩
    else some s

/-- Multiplies the tens in, failing beyond the bound. -/
def Scaled.multiplyTens : Nat → Scaled → Option Scaled
  | 0, s => some s
  | fuel + 1, s =>
    if 0 < s.tens then
      let value := s.value * 10
      if value < bound then multiplyTens fuel { s with value, tens := s.tens - 1 } else none
    else some s

/-- Drops digits until the scale is allowed. -/
def Scaled.fitScale : Nat → Scaled → Scaled
  | 0, s => s
  | fuel + 1, s =>
    if s.tens < -(maxScale : Int) then
      fitScale fuel <|
        if s.value < 10 then { s with value := 0, tens := 0 }
        else { s with value := dropDigit s.value, tens := s.tens + 1 }
    else s

/-- Drops the digits after the point that a binary number does not vouch for. -/
def Scaled.fitPrecision : Nat → Scaled → Scaled
  | 0, s => s
  | fuel + 1, s =>
    if s.tens < 0 ∧ Binary64.exponentWeight ≤ s.value then
      fitPrecision fuel { s with value := dropDigit s.value, tens := s.tens + 1 }
    else s

/-- Drops zeros from the end of the fraction. -/
def Scaled.stripZeros : Nat → Scaled → Scaled
  | 0, s => s
  | fuel + 1, s =>
    if s.tens < 0 ∧ s.value % 10 = 0 then
      stripZeros fuel { s with value := s.value / 10, tens := s.tens + 1 }
    else s

/-- The decimal of a finite binary number, to the digits that the binary number
vouches for; none where it is out of range. -/
def ofBinary? (x : Binary64) : Option Decimal :=
  if !x.isFinite then none
  else if x.isZero then some ⟨x.isNegative, 0, 0⟩
  else do
    let start : Scaled := ⟨x.mantissa, x.exponent, -x.exponent⟩
    let s ← (start.multiplyFives 1100).divideFives 1100
    let s ← s.multiplyTens 1100
    let s := ((s.fitScale 1200).fitPrecision 100).stripZeros 100
    return ⟨x.isNegative, s.value, (-s.tens).toNat⟩

/-- The power of ten as a binary number, by repeated squaring and rounding. -/
def binaryPower (base : Binary64) (fuel n : Nat) (acc : Binary64) : Binary64 :=
  match fuel with
  | 0 => acc
  | fuel + 1 =>
    let acc := if n % 2 = 1 then acc.mulMagnitudes base else acc
    if n / 2 = 0 then acc else binaryPower (base.mulMagnitudes base) fuel (n / 2) acc

/-- The binary number near a decimal: whole part and fraction apart, then their
sum rounded to the scale. -/
def toBinary (d : Decimal) : Binary64 :=
  if d.scale = 0 then Binary64.ofInt d.signed
  else
    let unit := 10 ^ d.scale
    let whole := Binary64.ofRatio false (d.coefficient / unit) 1
    let rest := d.coefficient % unit
    let result :=
      if rest = 0 then whole
      else
        let fraction :=
          (Binary64.ofRatio false rest 1).divMagnitudes (Binary64.ofRatio false unit 1)
        let sum := whole.addMagnitudes fraction
        let power := binaryPower (Binary64.ofInt 10) 6 d.scale (Binary64.ofInt 1)
        (sum.mulMagnitudes power).roundMagnitude.divMagnitudes power
    if d.negative then result.neg else result

/-- The sum of two decimals at the larger scale, with digits of the fraction
given up where the coefficient does not fit; none where the whole part does not.
Where one of them is zero, it is the other one as it stands. -/
def add? (a b : Decimal) : Option Decimal :=
  if a.coefficient = 0 then some b
  else if b.coefficient = 0 then some a
  else
    let scale := max a.scale b.scale
    let sum := a.signed * 10 ^ (scale - a.scale) + b.signed * 10 ^ (scale - b.scale)
    let fits := (List.range (scale + 1)).find? fun n =>
      Binary64.divideToEven sum.natAbs (10 ^ n) < bound
    fits.map fun n => ⟨sum < 0, Binary64.divideToEven sum.natAbs (10 ^ n), scale - n⟩

end Decimal

end FilterQuery
