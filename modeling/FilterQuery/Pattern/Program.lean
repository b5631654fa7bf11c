import FilterQuery.Pattern

/-!
# Programs

A pattern is matched by a program: numbered steps, each of which says what to do
at a place and which step is next.  Where there are two next steps, the first
one is preferred.
-/

namespace FilterQuery.Pattern

/-- What to do at a place. -/
inductive Step where
  /-- Take a character of the class. -/
  | take (c : CharClass) (next : Nat)
  /-- Go on if the place meets a condition. -/
  | check (b : Boundary) (next : Nat)
  /-- Go on in the first of two ways that leads to the end. -/
  | choose (preferred other : Nat)
  /-- The start of a group. -/
  | openGroup (index next : Nat)
  /-- The end of a group. -/
  | closeGroup (index next : Nat)
  /-- The end of the pattern. -/
  | stop
  deriving DecidableEq, Inhabited, Repr

/-- The steps of a program by their numbers. -/
abbrev Steps := Array Step

namespace Steps

/-- Adds a step, and gives its number. -/
def add (step : Step) (steps : Steps) : Nat × Steps :=
  (steps.size, steps.push step)

/-- The choice between a round of a repetition and what is behind it. -/
def orNot (greedy : Bool) (round next : Nat) : Step :=
  if greedy then .choose round next else .choose next round

/-- Takes some characters, one behind the other, before the step `next`. -/
def addLiteral (cs : List Char) (next : Nat) (steps : Steps) : Nat × Steps :=
  cs.foldr (fun c (next, steps) => add (.take (.single c) next) steps) (next, steps)

/-- A part some number of times before the step `next`. -/
def addTimes (part : Nat → Steps → Nat × Steps) : (count : Nat) → (next : Nat) → Steps → Nat × Steps
  | 0, next, steps => (next, steps)
  | count + 1, next, steps =>
    let (next, steps) := part next steps
    addTimes part count next steps

/-- A part some number of times at most before the step `next`; `rest` is the
next step of the last round. -/
def addOptional (part : Nat → Steps → Nat × Steps) (greedy : Bool) (next : Nat) : (count : Nat) →
    (rest : Nat) → Steps → Nat × Steps
  | 0, rest, steps => (rest, steps)
  | count + 1, rest, steps =>
    let (round, steps) := part rest steps
    let (rest, steps) := add (orNot greedy round next) steps
    addOptional part greedy next count rest steps

/-- A part once or more often before the step `next`: behind each round is the
choice of another one.  Gives the first step of a round, and the choice. -/
def addLoop (part : Nat → Steps → Nat × Steps) (greedy : Bool) (next : Nat) (steps : Steps) :
    Nat × Nat × Steps :=
  let (again, steps) := add .stop steps
  let (round, steps) := part again steps
  (round, again, steps.set! again (orNot greedy round next))

end Steps

open Steps in
/-- Adds the steps of a pattern before the step `next`, and gives the number of
the first. -/
def compile : Pattern → (next : Nat) → Steps → Nat × Steps
  | empty, next, steps => (next, steps)
  | literal cs, next, steps => addLiteral cs next steps
  | one c, next, steps => add (.take c next) steps
  | boundary b, next, steps => add (.check b next) steps
  | sequence a b, next, steps =>
    let (next, steps) := b.compile next steps
    a.compile next steps
  | alternative a b, next, steps =>
    let (preferred, steps) := a.compile next steps
    let (other, steps) := b.compile next steps
    add (.choose preferred other) steps
  | repetition p min (some max) greedy, next, steps =>
    let (next, steps) := addOptional p.compile greedy next (max - min) next steps
    addTimes p.compile min next steps
  | repetition p min none greedy, next, steps =>
    let (round, again, steps) := addLoop p.compile greedy next steps
    match min with
    | 0 => if p.takesSome then (again, steps) else add (orNot greedy round next) steps
    | min + 1 => addTimes p.compile min round steps
  | capture index p, next, steps =>
    let (next, steps) := add (.closeGroup index next) steps
    let (next, steps) := p.compile next steps
    add (.openGroup index next) steps

/-- A program with the number of its first step. -/
structure Program where
  start : Nat
  steps : Steps

/-- The program that matches a pattern. -/
def program (p : Pattern) : Program :=
  let (start, steps) := p.compile 0 #[.stop]
  ⟨start, steps⟩

end FilterQuery.Pattern
