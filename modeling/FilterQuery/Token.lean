import FilterQuery.Text.Bytes

/-!
# Tokens

A token is a piece of a query's text together with its place.  Every lexeme and
every node keeps one, for error messages and for finding the node under a
cursor.
-/

namespace FilterQuery

/-- A located piece of a query. -/
structure Token where
  text : String := ""
  /-- The byte offset of the first character. -/
  position : Nat := 0
  /-- The length in bytes. -/
  length : Nat := 0
  deriving DecidableEq, Inhabited, Repr

namespace Token

/-- The byte offset behind the last character. -/
def stop (t : Token) : Nat := t.position + t.length

/-- The bytes from `start` up to `stop` of a text; the token of a range that the
text does not have is there, but without text. -/
def ofRange (source : String) (start stop : Nat) : Token where
  text := ((Text.slice? source.toList start stop).map String.ofList).getD ""
  position := start
  length := stop - start

/-- The token of characters that start at a place. -/
def ofChars (position : Nat) (cs : List Char) : Token where
  text := String.ofList cs
  position
  length := Text.byteLength cs

/-- A place is in the token or right behind it, so that a cursor after a word
still finds it. -/
def contains (t : Token) (position : Nat) : Bool :=
  t.position ≤ position && position ≤ t.stop

end Token

end FilterQuery
