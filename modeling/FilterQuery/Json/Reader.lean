import FilterQuery.Json
import FilterQuery.Number.Literal

/-!
# Reading JSON

One JSON value with nothing but blanks around it.  Objects and arrays nest at
most 127 deep.  A number is read as its first digits that fit 64 bits, scaled by
a power of ten; it must not exceed the binary format.
-/

namespace FilterQuery.Json

-- Powers are the built-in ones.
attribute [local instance (high)] instPowNat

/-- The blanks of JSON. -/
def isSpace (c : Char) : Bool :=
  c = ' ' || c = '\n' || c = '\t' || c = '\r'

def skipSpace (cs : List Char) : List Char :=
  cs.dropWhile isSpace

/-- Appends digits to a number for as long as it fits 64 bits; also gives how
many were taken. -/
def absorb (n : Nat) : List Char → Nat × Nat
  | [] => (n, 0)
  | c :: cs =>
    let next := 10 * n + FilterQuery.Number.digitValue c
    if next < UInt64.size then
      let (m, taken) := absorb next cs
      (m, taken + 1)
    else (n, 0)

/-- The largest power of ten that is a finite number. -/
def lastPower : Nat := 308

/-- Multiplies by a power of ten in steps that each round; none on overflow. -/
def scaleByTen (x : Binary64) (power : Int) : Nat → Option Binary64
  | 0 => some Binary64.zero
  | fuel + 1 =>
    if power.natAbs ≤ lastPower then
      let unit := Binary64.ofRatio false (10 ^ power.natAbs) 1
      if 0 ≤ power then
        let y := x.mulMagnitudes unit
        if y.isFinite then some y else none
      else some (x.divMagnitudes unit)
    else if x.isZero then some x
    else if 0 ≤ power then none
    else
      let unit := Binary64.ofRatio false (10 ^ lastPower) 1
      scaleByTen (x.divMagnitudes unit) (power + lastPower) fuel

/-- The power of ten after the digits of a number, and what follows it. -/
def readPower? (cs : List Char) : Option (Option Int × List Char) :=
  match cs with
  | 'e' :: r | 'E' :: r =>
    let (negative, r) := FilterQuery.Number.splitSign r
    let ds := r.takeWhile Char.isDigit
    if ds.isEmpty then none
    else
      let n : Int := FilterQuery.Number.ofDigits ds
      some (some (if negative then -n else n), r.dropWhile Char.isDigit)
  | _ => some (none, cs)

/-- The digits after the point of a number, and what follows them. -/
def readFraction? (cs : List Char) : Option (Option (List Char) × List Char) :=
  match cs with
  | '.' :: r =>
    let ds := r.takeWhile Char.isDigit
    if ds.isEmpty then none else some (some ds, r.dropWhile Char.isDigit)
  | _ => some (none, cs)

/-- An integer as it is kept: a negative one must fit 64 signed bits, and the
negative zero is no integer. -/
def ofSignedDigits (negative : Bool) (n : Nat) : Number :=
  if !negative then .integer n
  else if n = 0 || Int64.minValue.toInt.natAbs < n then .float (Binary64.ofRatio true n 1)
  else .integer (-(n : Int))

/-- A number at the head of the text. -/
def readNumber? (cs : List Char) : Option (Number × List Char) := do
  let (negative, body) := match cs with
    | '-' :: r => (true, r)
    | r => (false, r)
  let whole := body.takeWhile Char.isDigit
  if whole.isEmpty || (whole.head? = some '0' && whole.length ≠ 1) then none
  else
    let (fraction, rest) ← readFraction? (body.dropWhile Char.isDigit)
    let (power, rest) ← readPower? rest
    let (n, taken) := absorb 0 whole
    if taken = whole.length && fraction.isNone && power.isNone then
      some (ofSignedDigits negative n, rest)
    else
      let (n, places) := absorb n (fraction.getD [])
      let shift : Int := (whole.length : Int) - taken - places + power.getD 0
      let x ← scaleByTen (Binary64.ofRatio false n 1) shift 8
      some (.float (if negative then x.neg else x), rest)

/-- Four hexadecimal digits. -/
def readHex4? : List Char → Option (Nat × List Char)
  | a :: b :: c :: d :: rest => do
    let a ← FilterQuery.Number.hexValue? a
    let b ← FilterQuery.Number.hexValue? b
    let c ← FilterQuery.Number.hexValue? c
    let d ← FilterQuery.Number.hexValue? d
    return (((a * 16 + b) * 16 + c) * 16 + d, rest)
  | _ => none

/-- The character that stands for itself after a backslash, or is named by the
letter there. -/
def simpleEscape? (c : Char) : Option Char :=
  match c with
  | '"' | '\\' | '/' => some c
  | 'b' => some '\x08'
  | 'f' => some '\x0c'
  | 'n' => some '\n'
  | 'r' => some '\r'
  | 't' => some '\t'
  | _ => none

/-- A character given by its code unit, or by two that form a pair. -/
def readUnits? (cs : List Char) : Option (Char × List Char) := do
  let (high, rest) ← readHex4? cs
  if 0xD800 ≤ high && high < 0xDC00 then
    match rest with
    | '\\' :: 'u' :: r =>
      let (low, r) ← readHex4? r
      if 0xDC00 ≤ low && low < 0xE000 then
        some (Char.ofNat (0x10000 + (high - 0xD800) * 0x400 + (low - 0xDC00)), r)
      else none
    | _ => none
  else if 0xDC00 ≤ high && high < 0xE000 then none
  else some (Char.ofNat high, rest)

/-- The characters of a string up to its closing quote, and what follows. -/
def readChars? : Nat → List Char → Option (List Char × List Char)
  | 0, _ => none
  | _ + 1, [] => none
  | fuel + 1, c :: cs =>
    if c = '"' then some ([], cs)
    else do
      let (c, rest) ←
        if c = '\\' then
          match cs with
          | 'u' :: r => readUnits? r
          | e :: r => (simpleEscape? e).map fun x => (x, r)
          | [] => none
        else if c.toNat < 0x20 then none
        else some (c, cs)
      let (tail, rest) ← readChars? fuel rest
      some (c :: tail, rest)

/-- A string whose opening quote has been read. -/
def readString? (cs : List Char) : Option (String × List Char) :=
  (readChars? (cs.length + 1) cs).map fun (s, rest) => (String.ofList s, rest)

/-- A word at the head of the text. -/
def readWord? (word : String) (value : Json) (cs : List Char) : Option (Json × List Char) :=
  if word.toList.isPrefixOf cs then some (value, cs.drop word.toList.length) else none

mutual

/-- A value at the head of the text, in which `depth` levels of nesting are
left. -/
def readValue? (fuel depth : Nat) (cs : List Char) : Option (Json × List Char) :=
  match fuel with
  | 0 => none
  | fuel + 1 =>
    match skipSpace cs with
    | [] => none
    | c :: rest =>
      if c = '"' then (readString? rest).map fun (s, r) => (.string s, r)
      else if c = '[' then
        if depth ≤ 1 then none
        else
          match skipSpace rest with
          | ']' :: r => some (.array [], r)
          | r => (readItems? fuel (depth - 1) r).map fun (js, r) => (.array js, r)
      else if c = '\x7b' then
        if depth ≤ 1 then none
        else
          match skipSpace rest with
          | '\x7d' :: r => some (.object [], r)
          | r => (readMembers? fuel (depth - 1) r).map fun (ms, r) => (ofMembers ms, r)
      else if c = 'n' then readWord? "null" .null (c :: rest)
      else if c = 't' then readWord? "true" (.boolean true) (c :: rest)
      else if c = 'f' then readWord? "false" (.boolean false) (c :: rest)
      else (readNumber? (c :: rest)).map fun (n, r) => (.number n, r)

/-- The items of an array up to its closing bracket. -/
def readItems? (fuel depth : Nat) (cs : List Char) : Option (List Json × List Char) :=
  match fuel with
  | 0 => none
  | fuel + 1 => do
    let (j, rest) ← readValue? fuel depth cs
    match skipSpace rest with
    | ']' :: r => some ([j], r)
    | ',' :: r =>
      let (js, r) ← readItems? fuel depth r
      some (j :: js, r)
    | _ => none

/-- The members of an object up to its closing brace. -/
def readMembers? (fuel depth : Nat) (cs : List Char) :
    Option (List (String × Json) × List Char) :=
  match fuel with
  | 0 => none
  | fuel + 1 =>
    match skipSpace cs with
    | '"' :: r => do
      let (key, rest) ← readString? r
      match skipSpace rest with
      | ':' :: r =>
        let (value, rest) ← readValue? fuel depth r
        match skipSpace rest with
        | '\x7d' :: r => some ([(key, value)], r)
        | ',' :: r =>
          let (ms, r) ← readMembers? fuel depth r
          some ((key, value) :: ms, r)
        | _ => none
      | _ => none
    | _ => none

end

/-- The value that a JSON text denotes. -/
def parse? (s : String) : Option Json := do
  let cs := s.toList
  let (j, rest) ← readValue? (cs.length + 2) 128 cs
  if (skipSpace rest).isEmpty then some j else none

end FilterQuery.Json
