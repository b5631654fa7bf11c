import FilterQuery.LiteralTrie
import FilterQuery.Pattern.Normal

/-!
# The footprint of a pattern

A pattern stands for two automata over bytes, one that reads a name forward and
keeps captures, and one that reads it backward without them.  A pattern is
refused if one of them takes too much.
-/

namespace FilterQuery.Pattern

open Construction

/-- The direction in which an automaton reads. -/
inductive Direction where
  | forward
  | backward
  deriving DecidableEq, Inhabited, Repr

/-- Where a part stands among alternatives. -/
inductive Position where
  /-- It is no alternative, or the first one. -/
  | alone
  /-- It is the second one; the end of the first one branches or not. -/
  | second (branches : Bool)
  | later

/-- A part that has been built joins the alternatives before it.  The end of
several alternatives does not branch. -/
def Position.settle (position : Position) (branches : Bool) : Construction Bool := do
  match position with
  | alone => return branches
  | second first =>
    let _ ← addState 0
    let _ ← addState 0
    charge 8
    leave first
    leave branches
    return false
  | later =>
    charge 4
    leave branches
    return false

/-- Several of a part behind a first one whose end branches or not. -/
def repeatMore (part : Construction Bool) : (count : Nat) → (branches : Bool) → Construction Bool
  | 0, branches => pure branches
  | count + 1, branches => do
    let next ← part
    leave branches
    repeatMore part count next

/-- A part some number of times. -/
def repeatExactly (part : Construction Bool) (count : Nat) : Construction Bool := do
  match count with
  | 0 =>
    let _ ← addState 0
    return false
  | count + 1 => repeatMore part count (← part)

/-- A part some number of times at most, behind an end that branches or not:
before each there is a state that leads to it and to the end. -/
def repeatOptional (part : Construction Bool) : (count : Nat) → (branches : Bool) →
    Construction Unit
  | 0, branches => leave branches
  | count + 1, branches => do
    let _ ← addState 0
    let next ← part
    leave branches
    charge 8
    repeatOptional part count next

/-- A part at least `min` times; `takesSome` says that it always takes a
character. -/
def repeatEndless (part : Construction Bool) (takesSome : Bool) (min : Nat) :
    Construction Bool := do
  if min = 0 then
    if takesSome then
      let _ ← addState 0
      let branches ← part
      charge 4
      leave branches
      return true
    else
      let branches ← part
      let _ ← addState 0
      leave branches
      charge 4
      let _ ← addState 0
      let _ ← addState 0
      charge 12
      return false
  else
    if 1 < min then leave (← repeatExactly part (min - 1))
    let branches ← part
    let _ ← addState 0
    leave branches
    charge 4
    return true

/-- A part at least `min` and at most `max` times. -/
def repeatBounded (part : Construction Bool) (min max : Nat) : Construction Bool := do
  if min = 0 && max = 1 then
    let _ ← addState 0
    let branches ← part
    let _ ← addState 0
    charge 8
    leave branches
    return false
  else
    let branches ← repeatExactly part min
    if min = max then return branches
    else
      let _ ← addState 0
      repeatOptional part (max - min) branches
      return false

/-- The bytes of each alternative, if all are literals. -/
def literals? : Pattern → Option (List (List Nat))
  | literal cs => some [cs.flatMap fun c => Text.encode c.toNat]
  | alternative (literal cs) b => do
    return cs.flatMap (fun c => Text.encode c.toNat) :: (← b.literals?)
  | _ => none

/-- The states for alternatives that are literals. -/
def addLiterals (d : Direction) (literals : List (List Nat)) : Construction Unit := do
  let _ ← addState 0
  let literals := match d with
    | .forward => literals
    | .backward => literals.map List.reverse
  (literals.foldl LiteralTrie.insert (.node [] [])).build

/-- Builds the part of an automaton for a pattern, and tells whether its end is
a state that leads to several others. -/
def build (d : Direction) : Pattern → Position → Construction Bool
  | empty, position => do
    let _ ← addState 0
    position.settle false
  | literal cs, position => do
    (cs.flatMap fun c => Text.encode c.toNat).forM fun _ => do let _ ← addState 0
    position.settle false
  | one c, position => do
    match d with
    | .forward => addClass c
    | .backward => addClassBackward c
    position.settle false
  | boundary _, position => do
    let _ ← addState 0
    position.settle false
  | sequence a b, position => do
    let (first, second) ← match d with
      | .forward => do
        let first ← build d a .alone
        pure (first, ← build d b .alone)
      | .backward => do
        let first ← build d b .alone
        pure (first, ← build d a .alone)
    leave first
    position.settle second
  | alternative a b, position => do
    match position, (alternative a b).literals? with
    | .alone, some literals =>
      addLiterals d literals
      return false
    | .alone, none => build d b (.second (← build d a .alone))
    | _, _ =>
      let _ ← position.settle (← build d a .alone)
      build d b .later
  | repetition p min max _, position => do
    let branches ← match max with
      | some max => repeatBounded (build d p .alone) min max
      | none => repeatEndless (build d p .alone) p.takesSome min
    position.settle branches
  | capture _ p, position => do
    match d with
    | .forward =>
      let _ ← addState 0
      leave (← build d p .alone)
      let _ ← addState 0
      position.settle false
    | .backward => position.settle (← build d p .alone)

/-- Every match begins at the start of the text. -/
def fromStart : Pattern → Bool
  | boundary b => b = .textStart
  | sequence a b => a.fromStart || (a.takesNone && b.fromStart)
  | alternative a b => a.fromStart && b.fromStart
  | repetition p min _ _ => 0 < min && p.fromStart
  | capture _ p => p.fromStart
  | empty | literal _ | one _ => false

/-- Every match ends at the end of the text. -/
def toStop : Pattern → Bool
  | boundary b => b = .textStop
  | sequence a b => b.toStop || (b.takesNone && a.toStop)
  | alternative a b => a.toStop && b.toStop
  | repetition p min _ _ => 0 < min && p.toStop
  | capture _ p => p.toStop
  | empty | literal _ | one _ => false

/-- Builds an automaton that finds the matches of a pattern anywhere in a
text. -/
def automaton (d : Direction) (p : Pattern) : Construction Unit := do
  let anchored := match d with
    | .forward => p.fromStart
    | .backward => p.toStop
  if anchored then
    let _ ← addState 0
  else
    let _ ← addState 0
    let _ ← addState 0
    let _ ← addState 8
    charge 8
  let branches ← build d (capture 0 p) .alone
  let _ ← addState 0
  leave branches

/-- The automata of a pattern are within the limit. -/
def isModest (p : Pattern) : Bool :=
  ((automaton .forward p).run {}).isSome && ((automaton .backward p).run {}).isSome

end FilterQuery.Pattern
