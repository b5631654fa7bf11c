import FilterQuery.CharClass

/-!
# Patterns

Regular expressions for names.  A pattern prefers some matches over others: the
left alternative over the right one, and more repetitions over fewer, or fewer
over more where it says so.
-/

namespace FilterQuery

/-- How a place lies to the words of a text. -/
inductive WordPlace where
  /-- A word character on one side, and none on the other. -/
  | edge
  /-- Not an edge. -/
  | noEdge
  /-- No word character before the place, and one behind it. -/
  | start
  /-- A word character before the place, and none behind it. -/
  | stop
  /-- No word character before the place. -/
  | startHalf
  /-- No word character behind the place. -/
  | stopHalf
  deriving DecidableEq, Inhabited, Repr

/-- A condition on a place between characters. -/
inductive Boundary where
  | textStart
  | textStop
  /-- The start of a line; with `returns`, carriage returns end lines too, and a
  line feed behind one belongs to it. -/
  | lineStart (returns : Bool)
  | lineStop (returns : Bool)
  /-- A place among words; with `ascii` only ASCII characters make words. -/
  | word (place : WordPlace) (ascii : Bool)
  deriving DecidableEq, Inhabited, Repr

inductive Pattern where
  | empty
  /-- These characters, one behind the other. -/
  | literal (cs : List Char)
  /-- One character of the class. -/
  | one (c : CharClass)
  | boundary (b : Boundary)
  | sequence (a b : Pattern)
  | alternative (a b : Pattern)
  /-- At least `min` and at most `max` times. -/
  | repetition (p : Pattern) (min : Nat) (max : Option Nat) (greedy : Bool)
  /-- What the inner pattern matches is captured. -/
  | capture (index : Nat) (p : Pattern)
  deriving DecidableEq, Inhabited, Repr

namespace Pattern

/-- The least number of characters that a match takes, if there can be a
match. -/
def least : Pattern → Option Nat
  | empty | boundary _ => some 0
  | literal cs => some cs.length
  | one c => if c.ranges.isEmpty then none else some 1
  | sequence a b => do return (← a.least) + (← b.least)
  | alternative a b => do return min (← a.least) (← b.least)
  | repetition p min _ _ => p.least.map (min * ·)
  | capture _ p => p.least

/-- Every match takes at least one character. -/
def takesSome (p : Pattern) : Bool := p.least.any (0 < ·)

/-- No match takes a character. -/
def takesNone : Pattern → Bool
  | empty | boundary _ => true
  | literal cs => cs.isEmpty
  | one _ => false
  | sequence a b | alternative a b => a.takesNone && b.takesNone
  | repetition p _ max _ => max.isSome && p.takesNone
  | capture _ p => p.takesNone

/-- The number of groups: a group left out by a repetition of no rounds counts
only if one with a larger index is there. -/
def groups : Pattern → Nat
  | empty | literal _ | one _ | boundary _ => 0
  | sequence a b | alternative a b => max a.groups b.groups
  | repetition p _ _ _ => p.groups
  | capture index p => max index p.groups

end Pattern

end FilterQuery
