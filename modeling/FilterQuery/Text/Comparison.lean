import FilterQuery.Text.Lowercase

/-!
# Comparison of texts

Texts are equal, contain one another and stand in order either as they are or by
their lower-case forms.  The order is that of the code points from the first
difference on.
-/

namespace FilterQuery

namespace Text

/-- One run of characters occurs within another. -/
def isInfix (needle : List Char) : List Char → Bool
  | [] => needle.isEmpty
  | c :: cs => needle.isPrefixOf (c :: cs) || isInfix needle cs

/-- The order of two texts by their first difference. -/
def compareChars : List Char → List Char → Ordering
  | [], [] => .eq
  | [], _ :: _ => .lt
  | _ :: _, [] => .gt
  | a :: as, b :: bs => (compare a.toNat b.toNat).then (compareChars as bs)

/-- Two texts that differ at most in the case of ASCII letters. -/
def eqIgnoreAsciiCase (a b : String) : Bool :=
  a.toList.map Char.toLower == b.toList.map Char.toLower

end Text

/-- How texts are compared. -/
inductive StringComparison where
  /-- As they are. -/
  | ordinal
  /-- By their lower-case forms. -/
  | ignoreCase
  deriving DecidableEq, Inhabited, Repr

namespace StringComparison

open Text

def equals : StringComparison → String → String → Bool
  | ordinal, a, b => a == b
  | ignoreCase, a, b => eqIgnoreAsciiCase a b || lowercase a == lowercase b

/-- The first text contains the second. -/
def contains : StringComparison → String → String → Bool
  | ordinal, text, part => isInfix part.toList text.toList
  | ignoreCase, text, part => isInfix (lowercase part).toList (lowercase text).toList

protected def compare : StringComparison → String → String → Ordering
  | ordinal, a, b => compareChars a.toList b.toList
  | ignoreCase, a, b => compareChars (lowercase a).toList (lowercase b).toList

end StringComparison

end FilterQuery
