import FilterQuery.CharClass.Property
import FilterQuery.Pattern.Flags

/-!
# Escapes in patterns

A backslash takes the meaning from a sign and gives one to a letter: a control
character, a class, a condition on the place, or the code point that hexadecimal
digits spell.
-/

namespace FilterQuery.Pattern

/-- What a backslash and the characters behind it stand for. -/
inductive Escape where
  | char (c : Char)
  | letters (c : CharClass)
  | place (b : Boundary)
  deriving DecidableEq, Inhabited, Repr

namespace Escape

/-- A sign that stands for itself behind a backslash. -/
def isSign (c : Char) : Bool :=
  c.toNat < 0x80 && !c.isAlphanum && c ≠ '<' && c ≠ '>'

/-- What a single character stands for behind a backslash. -/
def ofChar? (flags : Flags) (c : Char) : Option Escape :=
  let word (p : WordPlace) := some (place (.word p flags.ascii))
  let named (any ascii : CharClass) (negated : Bool) : Option Escape :=
    let f := { flags with ignoreCase := false }
    (f.closed? (if flags.ascii then ascii else any) negated).map letters
  match c with
  | 'n' => some (char '\n')
  | 't' => some (char '\t')
  | 'r' => some (char '\r')
  | 'f' => some (char '\x0c')
  | 'v' => some (char '\x0b')
  | 'a' => some (char '\x07')
  | 'd' => named .digit .asciiDigit false
  | 'D' => named .digit .asciiDigit true
  | 's' => named .blank .asciiBlank false
  | 'S' => named .blank .asciiBlank true
  | 'w' => named .word .asciiWord false
  | 'W' => named .word .asciiWord true
  | 'b' => word .edge
  | 'B' => word .noEdge
  | '<' => word .start
  | '>' => word .stop
  | 'A' => some (place .textStart)
  | 'z' => some (place .textStop)
  | c => if isSign c then some (char c) else none

/-- The character whose code point hexadecimal digits spell. -/
def hexChar? (ds : List Char) : Option Char := do
  let values ← ds.mapM Number.hexValue?
  let n := values.foldl (fun n d => 16 * n + d) 0
  if !ds.isEmpty && (n < 0xD800 || 0xDFFF < n && n < 0x110000) then some (Char.ofNat n) else none

/-- The first `count` signs that mean something, and what is behind them. -/
def take? (flags : Flags) : (count : Nat) → List Char → Option (List Char × List Char)
  | 0, cs => some ([], cs)
  | count + 1, cs =>
    match flags.skip cs with
    | [] => none
    | c :: rest => (take? flags count rest).map fun (cs, rest) => (c :: cs, rest)

/-- The signs up to a closing brace, and what is behind that; `fuel` is at least
their number. -/
def takeBraced? (flags : Flags) : (fuel : Nat) → List Char → Option (List Char × List Char)
  | 0, _ => none
  | fuel + 1, cs =>
    match flags.skip cs with
    | [] => none
    | '\x7d' :: rest => some ([], rest)
    | c :: rest => (takeBraced? flags fuel rest).map fun (cs, rest) => (c :: cs, rest)

/-- A code point of `count` digits, or of any number of them in braces.  Two
digits may not spell more than an ASCII character where only those make
classes. -/
def readHex? (flags : Flags) (count : Nat) (cs : List Char) : Option (Escape × List Char) :=
  match flags.skip cs with
  | '\x7b' :: rest => do
    let (digits, rest) ← takeBraced? flags rest.length rest
    return (char (← hexChar? digits), rest)
  | cs => do
    let (digits, rest) ← take? flags count cs
    let c ← hexChar? digits
    if flags.ascii && count = 2 && 0x80 ≤ c.toNat then none else some (char c, rest)

/-- A class that has the property named by one letter or in braces. -/
def readProperty? (flags : Flags) (negated : Bool) (cs : List Char) :
    Option (Escape × List Char) := do
  let (query, rest) ← match flags.skip cs with
    | '\x7b' :: rest => takeBraced? flags rest.length rest
    | '\\' :: _ | [] => none
    | c :: rest => some ([c], rest)
  if flags.ascii then none
  let members ← CharClass.ofQuery? query
  return (letters (← flags.closed? members negated), rest)

/-- The place among words that a name in braces gives behind an escaped b. -/
def wordPlace? (name : List Char) : Option WordPlace :=
  match String.ofList name with
  | "start" => some .start
  | "end" => some .stop
  | "start-half" => some .startHalf
  | "end-half" => some .stopHalf
  | _ => none

/-- The edge of a word, from behind the escaped b on.  Braces with anything but
a name in them are left for a repetition. -/
def readEdge? (flags : Flags) (cs : List Char) : Option (Escape × List Char) :=
  let isNameChar (c : Char) : Bool := c.isAlpha || c = '-'
  match cs with
  | '\x7b' :: rest =>
    match flags.skip rest with
    | [] => none
    | c :: _ =>
      if isNameChar c then do
        let (name, behind) ← takeBraced? flags rest.length rest
        return (place (.word (← wordPlace? name) flags.ascii), behind)
      else some (place (.word .edge flags.ascii), cs)
  | _ => some (place (.word .edge flags.ascii), cs)

/-- What stands behind a backslash. -/
def read? (flags : Flags) : List Char → Option (Escape × List Char)
  | 'x' :: rest => readHex? flags 2 rest
  | 'u' :: rest => readHex? flags 4 rest
  | 'U' :: rest => readHex? flags 8 rest
  | 'p' :: rest => readProperty? flags false rest
  | 'P' :: rest => readProperty? flags true rest
  | 'b' :: rest => readEdge? flags rest
  | c :: rest => (ofChar? flags c).map (·, rest)
  | [] => none

end Escape

end FilterQuery.Pattern
