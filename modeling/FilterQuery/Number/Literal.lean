import FilterQuery.Number.Binary64
import FilterQuery.Number.Digits

/-!
# Reading binary numbers

A numeral is a sign, digits with a point among them, and a power of ten after an
`e`; only the digits are required, and one is enough.  The number read is the
one nearest to what the numeral denotes.
-/

namespace FilterQuery.Number

-- Powers are the built-in ones.
attribute [local instance (high)] instPowNat

/-- An unsigned decimal numeral: all its digits as one coefficient, and the
power of ten it is multiplied by. -/
structure Literal where
  coefficient : Nat
  power : Int
  deriving DecidableEq, Repr

/-- The power of ten written after the digits: none at all, or an `e` with an
integer. -/
def readExponent? : List Char → Option Int
  | [] => some 0
  | c :: cs => if c = 'e' || c = 'E' then readInt? cs else none

/-- An unsigned numeral. -/
def Literal.read? (cs : List Char) : Option Literal :=
  let whole := cs.takeWhile Char.isDigit
  let (fraction, rest) := match cs.dropWhile Char.isDigit with
    | '.' :: r => (r.takeWhile Char.isDigit, r.dropWhile Char.isDigit)
    | r => ([], r)
  if whole.isEmpty && fraction.isEmpty then none
  else (readExponent? rest).map fun e => ⟨ofDigits (whole ++ fraction), e - fraction.length⟩

/-- The number nearest to a numeral. Powers far outside the range are not
written out. -/
def Literal.toBinary (l : Literal) (negative : Bool) : Binary64 :=
  let size : Int := (digits l.coefficient).length + l.power
  if l.coefficient = 0 || size < -400 then Binary64.ofMagnitude negative 0
  else if 400 < size then Binary64.infinity negative
  else if 0 ≤ l.power then Binary64.ofRatio negative (l.coefficient * 10 ^ l.power.toNat) 1
  else Binary64.ofRatio negative l.coefficient (10 ^ (-l.power).toNat)

end FilterQuery.Number

namespace FilterQuery.Binary64

/-- A number with an optional sign; the names of the infinities and of
not-a-number are numbers too. -/
def ofText? (s : String) : Option Binary64 :=
  let (negative, body) := Number.splitSign s.toList
  let name := String.ofList (body.map Char.toLower)
  if name = "inf" || name = "infinity" then some (infinity negative)
  else if name = "nan" then some (if negative then nan.neg else nan)
  else (Number.Literal.read? body).map (·.toBinary negative)

end FilterQuery.Binary64
