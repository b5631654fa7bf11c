import FilterQuery.Pattern

/-!
# Patterns in normal form

Patterns are put together by functions that give the simplest one of the same
meaning: a sequence has no sequence or empty pattern as its left part and no two
literals next to each other, an alternative has no alternative as its left part,
and alternatives of single characters are a class.  What a pattern takes to keep
depends on its normal form.
-/

namespace FilterQuery.Pattern

/-- One character of a class. -/
def ofClass (c : CharClass) : Pattern :=
  match c.ranges with
  | [(first, last)] => if first = last then literal [Char.ofNat first] else one c
  | _ => one c

/-- The parts of a sequence. -/
def parts : Pattern → List Pattern
  | empty => []
  | sequence a b => a :: b.parts
  | p => [p]

/-- The parts with neighbouring literals joined. -/
def joinLiterals : List Pattern → List Pattern
  | [] => []
  | literal cs :: rest =>
    match joinLiterals rest with
    | literal ds :: more => literal (cs ++ ds) :: more
    | more => literal cs :: more
  | p :: rest => p :: joinLiterals rest

def ofParts : List Pattern → Pattern
  | [] => empty
  | [p] => p
  | p :: rest => sequence p (ofParts rest)

/-- Patterns one behind the other. -/
def concat (ps : List Pattern) : Pattern :=
  ofParts (joinLiterals (ps.flatMap parts))

/-- The alternatives of a pattern. -/
def options : Pattern → List Pattern
  | alternative a b => a :: b.options
  | p => [p]

def ofOptions : List Pattern → Pattern
  | [] => one .empty
  | [p] => p
  | p :: rest => alternative p (ofOptions rest)

/-- The character of a literal that is no longer. -/
def character? : Pattern → Option Char
  | literal [c] => some c
  | _ => none

def class? : Pattern → Option CharClass
  | one c => some c
  | _ => none

/-- Alternatives that are characters, or classes, become one class. -/
def merge (options : List Pattern) : Pattern :=
  match options with
  | [] | [_] => ofOptions options
  | _ =>
    match options.mapM character?, options.mapM class? with
    | some cs, _ => ofClass (.ofList (cs.map Char.toNat))
    | _, some classes => ofClass (classes.foldl .union .empty)
    | _, _ => ofOptions options

/-- What two lists of parts begin with in common. -/
def commonStart : List Pattern → List Pattern → List Pattern
  | p :: ps, q :: qs => if p = q then p :: commonStart ps qs else []
  | _, _ => []

/-- The parts that all of some alternatives begin with, if each is a
sequence. -/
def shared (options : List Pattern) : List Pattern :=
  let lists := options.map parts
  match lists with
  | first :: others@(_ :: _) =>
    if lists.all (1 < ·.length) then others.foldl commonStart first else []
  | _ => []

/-- The preferred one of some patterns that matches.  Parts that all of them
begin with come in front of the choice. -/
def choice (ps : List Pattern) : Pattern :=
  let options := ps.flatMap options
  match shared options with
  | [] => merge options
  | start =>
    let rests := options.map fun p => concat (p.parts.drop start.length)
    concat (start ++ [merge (rests.flatMap Pattern.options)])

/-- A pattern some number of times.  One that takes no characters need not be
repeated. -/
def times (p : Pattern) (min : Nat) (max : Option Nat) (greedy : Bool) : Pattern :=
  let (min, max) :=
    if p.takesNone then (Nat.min min 1, some ((max.map (Nat.min 1)).getD 1)) else (min, max)
  match min, max with
  | 0, some 0 => empty
  | 1, some 1 => p
  | _, _ => repetition p min max greedy

end FilterQuery.Pattern
