import FilterQuery.Number.Digits
import FilterQuery.Text.Folding
import FilterQuery.Text.Words

/-!
# Classes of characters

A class is a set of characters, kept as the ranges of code points that it
consists of.  The ranges rise, and between any two of them lies a character that
is not in the class, so that a class is given by one list only.  The code points
of surrogates are no characters: what lies on both sides of them adjoins.
-/

namespace FilterQuery

structure CharClass where
  /-- The first and the last code point of each range. -/
  ranges : List (Nat × Nat)
  deriving DecidableEq, Inhabited, Repr

namespace CharClass

/-- The largest code point. -/
def last : Nat := 0x10FFFF

/-- The code point of the character behind a given one. -/
def after (n : Nat) : Nat := if n = 0xD7FF then 0xE000 else n + 1

/-- The code point of the character in front of a given one. -/
def before (n : Nat) : Nat := if n = 0xE000 then 0xD7FF else n - 1

/-- The code point is in the class. -/
def has (s : CharClass) (n : Nat) : Bool := Text.inRanges s.ranges n

def holds (s : CharClass) (c : Char) : Bool := s.has c.toNat

def empty : CharClass := ⟨[]⟩

def all : CharClass := ⟨[(0, last)]⟩

/-- The characters from one code point to another. -/
def range (first last : Nat) : CharClass := ⟨[(first, last)]⟩

def single (c : Char) : CharClass := range c.toNat c.toNat

/-- Two rising lists as one; `fuel` is at least the sum of their lengths. -/
def mergeRanges : (fuel : Nat) → List (Nat × Nat) → List (Nat × Nat) → List (Nat × Nat)
  | 0, _, _ => []
  | _ + 1, [], others => others
  | _ + 1, ranges, [] => ranges
  | fuel + 1, r :: rs, s :: ss =>
    if r.1 ≤ s.1 then r :: mergeRanges fuel rs (s :: ss) else s :: mergeRanges fuel (r :: rs) ss

/-- Joins the ranges that overlap or adjoin, where no range of the list begins
before `r`. -/
def joinRanges (r : Nat × Nat) : List (Nat × Nat) → List (Nat × Nat)
  | [] => [r]
  | s :: rest =>
    if s.1 ≤ after r.2 then joinRanges (r.1, max r.2 s.2) rest else r :: joinRanges s rest

/-- The characters of either class. -/
def union (a b : CharClass) : CharClass :=
  match mergeRanges (a.ranges.length + b.ranges.length) a.ranges b.ranges with
  | [] => empty
  | r :: rest => ⟨joinRanges r rest⟩

/-- What lies between the ranges of a class from a code point on. -/
def gaps (first : Nat) : List (Nat × Nat) → List (Nat × Nat)
  | [] => if first ≤ last then [(first, last)] else []
  | r :: rest =>
    let others := gaps (after r.2) rest
    if first < r.1 then (first, before r.1) :: others else others

/-- The characters that are not in the class. -/
def complement (s : CharClass) : CharClass := ⟨gaps 0 s.ranges⟩

/-- The characters of both classes. -/
def inter (a b : CharClass) : CharClass := (a.complement.union b.complement).complement

/-- The characters of the first class that are not in the second one. -/
def difference (a b : CharClass) : CharClass := (a.complement.union b).complement

/-- The characters of just one of the classes. -/
def symmetricDifference (a b : CharClass) : CharClass := (a.union b).difference (a.inter b)

/-- The class of some characters, given by rising code points. -/
def ofRising : List Nat → CharClass
  | [] => empty
  | n :: rest => ⟨joinRanges (n, n) (rest.map fun n => (n, n))⟩

/-- The class of some characters. -/
def ofList (ns : List Nat) : CharClass := ofRising (ns.mergeSort (· ≤ ·))

/-- Closes a class under a change of case, given by characters with the one that
each folds to: with a character the class has all that fold to the same one. -/
def closeUnder (pairs : List (Nat × Nat)) (s : CharClass) : CharClass :=
  let reached := ofList ((pairs.filter fun p => s.has p.1 || s.has p.2).map (·.2))
  (s.union reached).union (ofList ((pairs.filter fun p => reached.has p.2).map (·.1)))

/-- The class with all characters that differ from one of its own in case
only. -/
def ignoringCase (s : CharClass) : CharClass := s.closeUnder Text.foldingPairs

/-- The class with the ASCII letters that differ from one of its own in case
only. -/
def ignoringAsciiCase (s : CharClass) : CharClass :=
  s.closeUnder (Text.foldingPairs.filter fun p => p.1 < 0x80 && p.2 < 0x80)

/-- The entries of a table, behind the characters of one that has begun, in
reverse.  A table is a text: ranges of hexadecimal numbers, or single ones, with
blanks between them.  Where a range ends in `/2`, only every second number of it
is meant. -/
def tableEntries (begun : List Char) : List Char → List (List Char)
  | [] => [begun.reverse]
  | c :: cs =>
    if c.isWhitespace then begun.reverse :: tableEntries [] cs else tableEntries (c :: begun) cs

/-- The number that hexadecimal digits spell. -/
def ofHex (ds : List Char) : Nat :=
  ds.foldl (fun n d => 16 * n + (Number.hexValue? d).getD 0) 0

/-- The ranges of one entry of a table. -/
def tableEntry (entry : List Char) : List (Nat × Nat) :=
  let first := ofHex (entry.takeWhile (· ≠ '-'))
  match entry.dropWhile (· ≠ '-') with
  | [] => [(first, first)]
  | _ :: rest =>
    let last := ofHex (rest.takeWhile (· ≠ '/'))
    if '/' ∈ rest then
      (List.range ((last - first) / 2 + 1)).map fun i => (first + 2 * i, first + 2 * i)
    else [(first, last)]

/-- The class that a table gives. -/
def ofTable (text : String) : CharClass :=
  ⟨((tableEntries [] text.toList).filter (· ≠ [])).flatMap tableEntry⟩

/-- Decimal digits that patterns know. -/
def digit : CharClass :=
  ((range 0x30 0x39).union ⟨Text.digitRanges⟩).difference ⟨Text.recentRanges⟩

def blank : CharClass := ⟨Text.blankRanges⟩

/-- Characters of words that patterns know. -/
def word : CharClass :=
  let ascii := ofTable "30-39 41-5A 5F 61-7A"
  ((ascii.union ⟨Text.letterRanges⟩).union
    (CharClass.union ⟨Text.digitRanges⟩ ⟨Text.wordMarkRanges⟩)).difference ⟨Text.recentRanges⟩

def asciiDigit : CharClass := range 0x30 0x39

def asciiBlank : CharClass := ofTable "9-D 20"

def asciiWord : CharClass := ofTable "30-39 41-5A 5F 61-7A"

/-- The class has ASCII characters only. -/
def isAscii (s : CharClass) : Bool := s.ranges.all (·.2 < 0x80)

end CharClass

end FilterQuery
