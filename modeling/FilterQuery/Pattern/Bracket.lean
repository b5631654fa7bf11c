import FilterQuery.Pattern.Escape

/-!
# Classes in brackets

A class in brackets lists characters, ranges of them, classes behind a
backslash, named classes and further classes in brackets.  A circumflex in front
of them takes the complement.  Two such lists may be joined by an operator; the
operators group to the left.
-/

namespace FilterQuery.Pattern

/-- The class that goes by a name between colons. -/
def namedClass? (name : String) : Option CharClass :=
  match name with
  | "alnum" => some (.ofTable "30-39 41-5A 61-7A")
  | "alpha" => some (.ofTable "41-5A 61-7A")
  | "ascii" => some (.range 0 0x7F)
  | "blank" => some (.ofTable "9 20")
  | "cntrl" => some (.ofTable "0-1F 7F")
  | "digit" => some .asciiDigit
  | "graph" => some (.range 0x21 0x7E)
  | "lower" => some (.range 0x61 0x7A)
  | "print" => some (.range 0x20 0x7E)
  | "punct" => some (.ofTable "21-2F 3A-40 5B-60 7B-7E")
  | "space" => some .asciiBlank
  | "upper" => some (.range 0x41 0x5A)
  | "word" => some .asciiWord
  | "xdigit" => some (.ofTable "30-39 41-46 61-66")
  | _ => none

/-- A class that goes by a name, from behind its opening bracket on, with what
is behind it: the name between colons, and a circumflex before it for the
complement.  The class itself is missing if it has no complement. -/
def readNamed? (flags : Flags) (cs : List Char) : Option (Option CharClass × List Char) :=
  match cs with
  | ':' :: cs =>
    let (negated, cs) := match cs with
      | '^' :: rest => (true, rest)
      | _ => (false, cs)
    match cs.dropWhile (· ≠ ':') with
    | ':' :: ']' :: rest =>
      (namedClass? (String.ofList (cs.takeWhile (· ≠ ':')))).map fun members =>
        (flags.closed? members negated, rest)
    | _ => none
  | _ => none

/-- How two lists of members are joined. -/
inductive ClassOperator where
  | intersection
  | difference
  | symmetricDifference
  deriving DecidableEq, Inhabited, Repr

def ClassOperator.apply : ClassOperator → CharClass → CharClass → CharClass
  | intersection => .inter
  | difference => .difference
  | symmetricDifference => .symmetricDifference

/-- Members of a class read so far. -/
structure Members where
  members : CharClass := .empty
  count : Nat := 0
  /-- The levels of nesting in the deepest of them. -/
  height : Nat := 0
  deriving Inhabited, Repr

namespace Members

/-- Adds one more member. -/
def add (m : Members) (c : CharClass) (height : Nat) : Members :=
  ⟨m.members.union c, m.count + 1, max m.height height⟩

/-- The levels of nesting of a list of members: more than one are a level. -/
def depth (m : Members) : Nat :=
  if 1 < m.count then m.height + 1 else m.height

/-- Joins the members to what stands before the operator in front of them. -/
def join? (flags : Flags) (m : Members) :
    Option (Members × ClassOperator) → Option Members
  | none => some ⟨m.members, 1, m.depth⟩
  | some (left, operator) => do
    let members := operator.apply (← flags.closed? left.members false)
      (← flags.closed? m.members false)
    return ⟨members, 1, max left.height m.depth + 1⟩

end Members

/-- One member of a class, or one end of a range. -/
def readMember? (flags : Flags) : List Char → Option (Escape × List Char)
  | '\\' :: rest => Escape.read? flags rest
  | c :: rest => if flags.ascii && 0x80 ≤ c.toNat then none else some (.char c, rest)
  | [] => none

/-- The sign behind a hyphen that decides whether it makes a range.  A comment
hides its number sign only. -/
def signBehind (flags : Flags) (cs : List Char) : Option Char :=
  if !flags.verbose then cs.head?
  else
    let found := match cs.dropWhile Text.isBlank with
      | '#' :: rest => rest.dropWhile Text.isBlank
      | rest => rest
    found.head? <|> cs.head?

/-- A member of a class, or a range of characters.  A hyphen before the closing
bracket or before another hyphen makes no range. -/
def readRange? (flags : Flags) (cs : List Char) : Option (CharClass × List Char) := do
  let (low, rest) ← readMember? flags cs
  let alone : Option (CharClass × List Char) :=
    match low with
    | .char c => if flags.ascii && 0x80 ≤ c.toNat then none else some (.single c, rest)
    | .letters c => some (c, rest)
    | .place _ => none
  match flags.skip rest with
  | '-' :: behind =>
    if signBehind flags behind ∈ [some ']', some '-'] then alone
    else do
      let (high, rest) ← readMember? flags (flags.skip behind)
      match low, high with
      | .char low, .char high =>
        if low.toNat ≤ high.toNat && !(flags.ascii && 0x80 ≤ high.toNat) then
          some (.range low.toNat high.toNat, rest)
        else none
      | _, _ => none
  | _ => alone

/-- Hyphens that stand first in a class are members. -/
def leadingHyphens (flags : Flags) : (fuel : Nat) → Members → List Char → Members × List Char
  | 0, m, cs => (m, cs)
  | fuel + 1, m, cs =>
    match cs with
    | '-' :: rest => leadingHyphens flags fuel (m.add (.single '-') 0) (flags.skip rest)
    | _ => (m, cs)

mutual

/-- The members of a class up to the closing bracket, after those read so far;
`joined` is what stands before the last operator. -/
def readMembers? (flags : Flags) : (fuel : Nat) →
    (joined : Option (Members × ClassOperator)) → (sofar : Members) → List Char →
    Option (Members × List Char)
  | 0, _, _, _ => none
  | fuel + 1, joined, sofar, cs =>
    let operate (operator : ClassOperator) (rest : List Char) : Option (Members × List Char) :=
      match sofar.join? flags joined with
      | some left => readMembers? flags fuel (some (left, operator)) {} rest
      | none => none
    match flags.skip cs with
    | ']' :: rest => (sofar.join? flags joined).map (·, rest)
    | '&' :: '&' :: rest => operate .intersection rest
    | '-' :: '-' :: rest => operate .difference rest
    | '~' :: '~' :: rest => operate .symmetricDifference rest
    | '[' :: rest =>
      match readNamed? flags rest with
      | some (some named, rest) => readMembers? flags fuel joined (sofar.add named 0) rest
      | some (none, _) => none
      | none =>
        match readBracket? flags fuel rest with
        | some (inner, height, rest) =>
          readMembers? flags fuel joined (sofar.add inner height) rest
        | none => none
    | rest =>
      match readRange? flags rest with
      | some (range, rest) => readMembers? flags fuel joined (sofar.add range 0) rest
      | none => none

/-- A class from behind its opening bracket on, with its levels of nesting.
Hyphens that come first are members, and so is a closing bracket that comes
first. -/
def readBracket? (flags : Flags) : (fuel : Nat) → List Char →
    Option (CharClass × Nat × List Char)
  | 0, _ => none
  | fuel + 1, cs =>
    let (negated, cs) := match flags.skip cs with
      | '^' :: rest => (true, flags.skip rest)
      | cs => (false, cs)
    let (first, cs) := match leadingHyphens flags cs.length {} cs with
      | (m, ']' :: rest) =>
        if m.count = 0 then (m.add (.single ']') 0, rest) else (m, ']' :: rest)
      | other => other
    match readMembers? flags fuel none first cs with
    | none => none
    | some (m, rest) => (flags.closed? m.members negated).map (·, m.height + 1, rest)

end

end FilterQuery.Pattern
