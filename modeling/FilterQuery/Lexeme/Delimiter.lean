import FilterQuery.Error

/-!
# Matching delimiters

The end of a quoted text is the next quote.  The end of a parenthesis or a brace
is found by counting: quoted text is passed over, and within braces parentheses
do not count.
-/

namespace FilterQuery

/-- Splits characters at the first quote, which belongs to neither part. -/
def splitAtQuote? : List Char → Option (List Char × List Char)
  | [] => none
  | c :: cs =>
    if c = '"' then some ([], cs)
    else (splitAtQuote? cs).map fun (a, b) => (c :: a, b)

/-- How many delimiters are open. -/
structure Depth where
  parentheses : Nat := 0
  braces : Nat := 0
  deriving DecidableEq, Repr

/-- The depth behind a character that is not quoted. -/
def Depth.step (d : Depth) (c : Char) : Depth :=
  if 0 < d.braces then
    if c = '\x7b' then { d with braces := d.braces + 1 }
    else if c = '\x7d' then { d with braces := d.braces - 1 }
    else d
  else if c = '\x7b' then { d with braces := 1 }
  else if c = '(' then { d with parentheses := d.parentheses + 1 }
  else if c = ')' then { d with parentheses := d.parentheses - 1 }
  else d

/-- The characters up to the one that closes everything open, and those behind
it: nothing if it never comes, an error if a quote is left open before it. -/
def closing (depth : Depth) (quoted : Bool) (position : Nat) :
    List Char → Except QueryError (Option (List Char × List Char))
  | [] => .ok none
  | c :: cs =>
    let next (depth : Depth) (quoted : Bool) :=
      (closing depth quoted (position + c.utf8Size) cs).map
        (Option.map fun (taken, rest) => (c :: taken, rest))
    if quoted then next depth (c ≠ '"')
    else if c = '"' then
      if cs.contains '"' then next depth true
      else .error ⟨.unterminatedPhrase, position, Text.byteLength (c :: cs)⟩
    else
      let depth := depth.step c
      if depth = {} then .ok (some ([c], cs)) else next depth false

/-- The characters between the delimiter at the head and the one that closes it,
and those behind. -/
def delimited? (position : Nat) (cs : List Char) :
    Except QueryError (Option (List Char × List Char)) :=
  (closing {} false position cs).map
    (Option.map fun (taken, rest) => (taken.tail.dropLast, rest))

end FilterQuery
