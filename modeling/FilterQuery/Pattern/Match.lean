import FilterQuery.Pattern.Program

/-!
# Matching

The preferred match of a pattern from a place on is found by trying its ways in
order of preference, each to the end of the program.  Where two ways come to the
same step at the same place, only the preferred one goes on: the other could
only end as that one does.  This keeps a repetition from going round without an
end, and bounds the search by the number of steps and places.  A name fits a
pattern if the preferred match from its start on is the whole name.
-/

namespace FilterQuery.Pattern

/-- A place in a text, and what has been captured up to it. -/
structure Cursor where
  /-- The character before the place. -/
  before : Option Char := none
  rest : List Char
  /-- The number of characters before the place. -/
  place : Nat := 0
  /-- Where groups begin, by index, the latest first. -/
  openings : List (Nat × Nat) := []
  /-- Where groups begin and end, by index, the latest first. -/
  captures : List (Nat × Nat × Nat) := []
  deriving DecidableEq, Inhabited, Repr

namespace Cursor

/-- The place behind the next character, if that is of the class. -/
def take? (s : Cursor) (c : CharClass) : Option Cursor :=
  match s.rest with
  | [] => none
  | d :: rest =>
    if c.holds d then some { s with before := some d, rest, place := s.place + 1 } else none

/-- A line starts at the place. -/
def startsLine (s : Cursor) (returns : Bool) : Bool :=
  match s.before with
  | none | some '\n' => true
  | some '\r' => returns && s.rest.head? ≠ some '\n'
  | _ => false

/-- A line stops at the place. -/
def stopsLine (s : Cursor) (returns : Bool) : Bool :=
  match s.rest.head? with
  | none => true
  | some '\n' => !returns || s.before ≠ some '\r'
  | some '\r' => returns
  | _ => false

/-- The place lies so to the words of the text. -/
def isAt (s : Cursor) (place : WordPlace) (ascii : Bool) : Bool :=
  let isWord (c : Option Char) : Bool :=
    c.any fun c => if ascii then CharClass.asciiWord.holds c else Text.isWordCharacter c
  let before := isWord s.before
  let behind := isWord s.rest.head?
  match place with
  | .edge => before != behind
  | .noEdge => before == behind
  | .start => !before && behind
  | .stop => before && !behind
  | .startHalf => !before
  | .stopHalf => !behind

/-- The place meets a condition. -/
def meets (s : Cursor) : Boundary → Bool
  | .textStart => s.before.isNone
  | .textStop => s.rest.isEmpty
  | .lineStart returns => s.startsLine returns
  | .lineStop returns => s.stopsLine returns
  | .word place ascii => s.isAt place ascii

/-- The cursor at the beginning of a group. -/
def openGroup (s : Cursor) (index : Nat) : Cursor :=
  { s with openings := (index, s.place) :: s.openings }

/-- The cursor with what lies between the beginning of a group and it
captured. -/
def closeGroup (s : Cursor) (index : Nat) : Cursor :=
  let start := (s.openings.lookup index).getD s.place
  { s with captures := (index, start, s.place) :: s.captures }

end Cursor

/-- A way through a program: the step that is next, and how far it has come. -/
structure Way where
  step : Nat
  cursor : Cursor
  deriving DecidableEq, Inhabited, Repr

/-- The ways on behind a step, the preferred one first. -/
def Way.next (s : Cursor) : Step → List Way
  | .take c next => ((s.take? c).map (Way.mk next)).toList
  | .check b next => if s.meets b then [⟨next, s⟩] else []
  | .choose preferred other => [⟨preferred, s⟩, ⟨other, s⟩]
  | .openGroup index next => [⟨next, s.openGroup index⟩]
  | .closeGroup index next => [⟨next, s.closeGroup index⟩]
  | .stop => []

/-- Follows the ways, the preferred one first, to the end of the first that has
one.  `seen` holds the steps that have been taken up at each place, as the bits
of a number; a way with one of them at the same place is given up. -/
def follow (steps : Steps) : (fuel : Nat) → (seen : Array Nat) → List Way → Option Cursor
  | 0, _, _ => none
  | _ + 1, _, [] => none
  | fuel + 1, seen, w :: ways =>
    let place := w.cursor.place
    if (seen.getD place 0).testBit w.step then follow steps fuel seen ways
    else
      match steps.getD w.step .stop with
      | .stop => some w.cursor
      | step =>
        follow steps fuel (seen.modify place (· ||| 1 <<< w.step)) (Way.next w.cursor step ++ ways)

/-- The place where the preferred match from the start of a text on ends.  At
every place each step is taken up once at most and leads to two ways at most,
which bounds the search. -/
def preferred? (p : Pattern) (text : List Char) : Option Cursor :=
  let program := p.program
  let places := text.length + 1
  follow program.steps (2 * program.steps.size * places + 2) (Array.replicate places 0)
    [⟨program.start, { rest := text }⟩]

/-- The captures of a pattern in a name that fits it; a group that took no part
has captured nothing. -/
def captures? (p : Pattern) (name : String) : Option (List String) :=
  let text := name.toList
  match p.preferred? text with
  | none => none
  | some s =>
    if s.rest.isEmpty then
      some ((List.range p.groups).map fun i =>
        match s.captures.lookup (i + 1) with
        | some (start, stop) => String.ofList ((text.drop start).take (stop - start))
        | none => "")
    else none

end FilterQuery.Pattern
