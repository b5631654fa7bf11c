import FilterQuery.Pattern.Bracket
import FilterQuery.Pattern.Footprint

/-!
# Reading patterns

The usual notation: `.`, classes in brackets and behind a backslash, `*`, `+`,
`?` and counts in braces, each with `?` behind it for the shortest match, groups
in parentheses, `|`, `^` and `$`, and flags in a group that starts with a
question mark.  Patterns are nested 250 deep at most.
-/

namespace FilterQuery.Pattern

/-- Digits, and what is behind them and the signs that mean nothing among them;
`fuel` is at least the number of signs. -/
def takeDigits (flags : Flags) : (fuel : Nat) → List Char → List Char × List Char
  | 0, cs => ([], cs)
  | fuel + 1, cs =>
    match cs with
    | [] => ([], [])
    | c :: rest =>
      if c.isDigit then
        let (digits, rest) := takeDigits flags fuel (flags.skip rest)
        (c :: digits, rest)
      else ([], cs)

/-- Passes over blanks, and over what means nothing behind each. -/
def skipBlanks (flags : Flags) : (fuel : Nat) → List Char → List Char
  | 0, cs => cs
  | fuel + 1, cs =>
    match cs with
    | [] => []
    | c :: rest => if Text.isBlank c then skipBlanks flags fuel (flags.skip rest) else cs

/-- A count with blanks around it, of 32 bits at most. -/
def readCount? (flags : Flags) (cs : List Char) : Option (Nat × List Char) :=
  let (digits, rest) := takeDigits flags cs.length (cs.dropWhile Text.isBlank)
  (Number.readNat? digits).bind fun n =>
    if n < UInt32.size then some (n, skipBlanks flags rest.length rest) else none

/-- The bounds in braces, from behind the opening one on. -/
def readBounds? (flags : Flags) (cs : List Char) : Option (Nat × Option Nat × List Char) := do
  let (min, rest) ← readCount? flags (flags.skip cs)
  match rest with
  | '\x7d' :: rest => some (min, some min, flags.skip rest)
  | ',' :: rest =>
    match flags.skip rest with
    | '\x7d' :: rest => some (min, none, flags.skip rest)
    | rest => do
      let (max, rest) ← readCount? flags rest
      match rest with
      | '\x7d' :: rest => if min ≤ max then some (min, some max, flags.skip rest) else none
      | _ => none
  | _ => none

/-- The bounds that a repetition sign stands for, and what is behind it. -/
def readRepetition? (flags : Flags) : List Char → Option (Nat × Option Nat × List Char)
  | '*' :: rest => some (0, none, rest)
  | '+' :: rest => some (1, none, rest)
  | '?' :: rest => some (0, some 1, rest)
  | '\x7b' :: rest => readBounds? flags rest
  | _ => none

def isRepetitionSign (c : Char) : Bool :=
  c = '*' || c = '+' || c = '?' || c = '\x7b'

/-- How a group begins. -/
inductive Opening where
  | capturing (rest : List Char)
  | named (name rest : List Char)
  | plain (flags : Flags) (rest : List Char)
  /-- Flags for what follows up to the end of the enclosing group. -/
  | setting (flags : Flags) (rest : List Char)

/-- Flags up to a colon or a closing parenthesis.  A hyphen turns those behind
it off; no letter comes twice, and the hyphen comes once at most and never
last. -/
def readFlags? (flags : Flags) (seen : List Char) : List Char → Option Opening
  | ':' :: rest => if seen.head? = some '-' then none else some (.plain flags rest)
  | ')' :: rest => if seen.head? = some '-' then none else some (.setting flags rest)
  | c :: rest =>
    if c ∈ seen then none
    else if c = '-' then readFlags? flags (c :: seen) rest
    else (flags.set c ('-' ∉ seen)).bind fun flags => readFlags? flags (c :: seen) rest
  | [] => none

/-- The name of a group, up to the bracket that closes it. -/
def readName? (cs : List Char) : Option Opening :=
  let name := cs.takeWhile (· ≠ '>')
  let isFirst (c : Char) : Bool := Text.isLetter c || c = '_'
  let isNext (c : Char) : Bool := Text.isLetterOrNumeral c || "_.[]".toList.contains c
  let wellFormed := match name with
    | c :: more => isFirst c && more.all isNext
    | [] => false
  match cs.dropWhile (· ≠ '>') with
  | _ :: rest => if wellFormed then some (.named name rest) else none
  | [] => none

/-- What follows an opening parenthesis. -/
def readOpening? (flags : Flags) (cs : List Char) : Option Opening :=
  match flags.skip cs with
  | '?' :: 'P' :: '<' :: rest => readName? rest
  | '?' :: '<' :: rest => readName? rest
  | '?' :: ')' :: _ => none
  | '?' :: rest => readFlags? flags [] rest
  | rest => some (.capturing rest)

/-- A part of a pattern, with the levels of nesting in it. -/
structure Part where
  pattern : Pattern
  height : Nat
  deriving Inhabited, Repr

/-- Parts one behind the other, given in reverse; more than one are a level of
nesting. -/
def Part.ofReverse (parts : List Part) : Part where
  pattern := concat (parts.reverse.map (·.pattern))
  height := match parts with
    | [] => 0
    | [p] => p.height
    | _ => parts.foldl (fun n p => max n p.height) 0 + 1

/-- The choice between some parts; more than one are a level of nesting. -/
def Part.ofOptions (parts : List Part) : Part where
  pattern := match parts with
    | [p] => p.pattern
    | _ => choice (parts.map (·.pattern))
  height := match parts with
    | [p] => p.height
    | _ => parts.foldl (fun n p => max n p.height) 0 + 1

/-- The groups read so far: how many capture, and the names given. -/
structure Groups where
  count : Nat := 0
  names : List (List Char) := []
  deriving Inhabited, Repr

/-- Opens a group; none if it has the name of another one. -/
def Groups.add? (g : Groups) (name : Option (List Char)) : Option Groups :=
  match name with
  | none => some { g with count := g.count + 1 }
  | some name => if name ∈ g.names then none else some ⟨g.count + 1, name :: g.names⟩

/-- What has been read: with the groups and the flags at its end, and what is
behind it. -/
structure Progress (α : Type) where
  result : α
  groups : Groups
  flags : Flags
  rest : List Char

/-- A character that stands for itself, a dot, a class or a condition. -/
def readAtom? (flags : Flags) : List Char → Option (Part × List Char)
  | '.' :: rest => flags.dot?.map fun c => (⟨ofClass c, 0⟩, rest)
  | '^' :: rest => some (⟨.boundary flags.start, 0⟩, rest)
  | '$' :: rest => some (⟨.boundary flags.stop, 0⟩, rest)
  | '[' :: rest =>
    (readBracket? flags (2 * rest.length + 2) rest).map fun (c, height, rest) =>
      (⟨ofClass c, height⟩, rest)
  | '\\' :: rest =>
    (Escape.read? flags rest).map fun (escape, rest) =>
      let pattern : Pattern := match escape with
        | .char c => flags.character c
        | .letters c => ofClass c
        | .place b => .boundary b
      (⟨pattern, 0⟩, rest)
  | c :: rest => some (⟨flags.character c, 0⟩, rest)
  | [] => none

mutual

/-- Alternatives up to a closing parenthesis or the end. -/
def readAlternatives? : (fuel : Nat) → Flags → Groups → List Char →
    Option (Progress (List Part))
  | 0, _, _, _ => none
  | fuel + 1, flags, groups, cs =>
    match readBranch? fuel [] false flags groups cs with
    | none => none
    | some first =>
      match first.rest with
      | '|' :: rest =>
        (readAlternatives? fuel first.flags first.groups rest).map fun others =>
          { others with result := first.result :: others.result }
      | _ => some { first with result := [first.result] }

/-- One alternative: `done` holds its parts in reverse, the last of which may be
repeated if `repeatable`. -/
def readBranch? : (fuel : Nat) → (done : List Part) → (repeatable : Bool) → Flags → Groups →
    List Char → Option (Progress Part)
  | 0, _, _, _, _, _ => none
  | fuel + 1, done, repeatable, flags, groups, cs =>
    match flags.skip cs with
    | [] => some ⟨.ofReverse done, groups, flags, []⟩
    | c :: tail =>
      if c = '|' || c = ')' then some ⟨.ofReverse done, groups, flags, c :: tail⟩
      else if c = '(' then
        match readOpening? flags tail with
        | none => none
        | some (.setting flags rest) =>
          readBranch? fuel (⟨.empty, 0⟩ :: done) false flags groups rest
        | some (.plain inner rest) =>
          match readAlternatives? fuel inner groups rest with
          | some ⟨options, groups, _, ')' :: rest⟩ =>
            let p := Part.ofOptions options
            readBranch? fuel (⟨p.pattern, p.height + 1⟩ :: done) true flags groups rest
          | _ => none
        | some (.capturing rest) => readGroup? fuel done none flags groups rest
        | some (.named name rest) => readGroup? fuel done (some name) flags groups rest
      else if isRepetitionSign c then
        match repeatable, done, readRepetition? flags (c :: tail) with
        | true, last :: before, some (min, max, rest) =>
          let (lazy, rest) := match rest with
            | '?' :: rest => (true, rest)
            | _ => (false, rest)
          let repeated := last.pattern.times min max (lazy == flags.swapGreed)
          readBranch? fuel (⟨repeated, last.height + 1⟩ :: before) true flags groups rest
        | _, _, _ => none
      else
        match readAtom? flags (c :: tail) with
        | none => none
        | some (p, rest) => readBranch? fuel (p :: done) true flags groups rest

/-- A group that captures, and the parts behind it. -/
def readGroup? : (fuel : Nat) → (done : List Part) → (name : Option (List Char)) → Flags →
    Groups → List Char → Option (Progress Part)
  | 0, _, _, _, _, _ => none
  | fuel + 1, done, name, flags, groups, cs =>
    match groups.add? name with
    | none => none
    | some opened =>
      match readAlternatives? fuel flags opened cs with
      | some ⟨options, groups, _, ')' :: rest⟩ =>
        let p := Part.ofOptions options
        readBranch? fuel (⟨.capture opened.count p.pattern, p.height + 1⟩ :: done) true flags
          groups rest
      | _ => none

end

/-- The pattern that a text denotes. -/
def read? (text : String) : Option Pattern :=
  let cs := text.toList
  match readAlternatives? (3 * cs.length + 3) {} {} cs with
  | some ⟨options, _, _, []⟩ =>
    let part := Part.ofOptions options
    if part.height ≤ 250 && part.pattern.isModest then some part.pattern else none
  | _ => none

end FilterQuery.Pattern
