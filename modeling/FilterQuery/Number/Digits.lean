/-!
# Decimal digits

Numerals are read and written digit by digit; only the ten ASCII digits count.
-/

namespace FilterQuery.Number

/-- The value of a digit. -/
def digitValue (c : Char) : Nat :=
  c.toNat - '0'.toNat

/-- The value of a hexadecimal digit. -/
def hexValue? (c : Char) : Option Nat :=
  if c.isDigit then some (digitValue c)
  else if 'a' ≤ c && c ≤ 'f' then some (c.toNat - 'a'.toNat + 10)
  else if 'A' ≤ c && c ≤ 'F' then some (c.toNat - 'A'.toNat + 10)
  else none

/-- The number that a run of digits denotes. -/
def ofDigits (cs : List Char) : Nat :=
  cs.foldl (fun n c => 10 * n + digitValue c) 0

/-- The digits of a number, without leading zeros. -/
def digits (n : Nat) : List Char :=
  Nat.toDigits 10 n

/-- The sign of a numeral and what follows it: true after a minus sign, and a
plus sign is dropped. -/
def splitSign : List Char → Bool × List Char
  | '-' :: cs => (true, cs)
  | '+' :: cs => (false, cs)
  | cs => (false, cs)

/-- A run of at least one digit and nothing else. -/
def readNat? (cs : List Char) : Option Nat :=
  if !cs.isEmpty && cs.all Char.isDigit then some (ofDigits cs) else none

/-- An integer with an optional sign. -/
def readInt? (cs : List Char) : Option Int :=
  let (negative, body) := splitSign cs
  (readNat? body).map fun n => if negative then -(n : Int) else n

/-- An integer of the 64-bit range with an optional sign. -/
def readInt64? (cs : List Char) : Option Int64 :=
  (readInt? cs).bind fun n =>
    if Int64.minValue.toInt ≤ n ∧ n ≤ Int64.maxValue.toInt then some (Int64.ofInt n) else none

/-- A natural of the 32-bit range; a plus sign may stand before it. -/
def readUInt32? (cs : List Char) : Option UInt32 :=
  let body := match cs with
    | '+' :: r => r
    | r => r
  (readNat? body).bind fun n => if n < UInt32.size then some (UInt32.ofNat n) else none

end FilterQuery.Number
