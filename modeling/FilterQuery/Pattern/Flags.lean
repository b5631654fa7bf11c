import FilterQuery.Pattern.Normal

/-!
# Flags

Letters in a group that starts with a question mark change how the text behind
them is read.  In the verbose notation blanks mean nothing, and a number sign
starts a comment that ends with the line.
-/

namespace FilterQuery.Pattern

/-- What flags have changed. -/
structure Flags where
  ignoreCase : Bool := false
  /-- `^` and `$` mean lines. -/
  multiLine : Bool := false
  /-- The dot means line breaks too. -/
  dotAll : Bool := false
  /-- Repetitions are lazy unless marked. -/
  swapGreed : Bool := false
  /-- Classes and words consist of ASCII characters. -/
  ascii : Bool := false
  /-- Carriage returns end lines too. -/
  returns : Bool := false
  verbose : Bool := false
  deriving DecidableEq, Inhabited, Repr

namespace Flags

def set (f : Flags) (letter : Char) (on : Bool) : Option Flags :=
  match letter with
  | 'i' => some { f with ignoreCase := on }
  | 'm' => some { f with multiLine := on }
  | 's' => some { f with dotAll := on }
  | 'U' => some { f with swapGreed := on }
  | 'u' => some { f with ascii := !on }
  | 'R' => some { f with returns := on }
  | 'x' => some { f with verbose := on }
  | _ => none

/-- The class that members in brackets or a name denote.  Where only ASCII
characters make classes, there is no complement: it would have parts of other
characters. -/
def closed? (f : Flags) (c : CharClass) (negated : Bool) : Option CharClass :=
  let c := if !f.ignoreCase then c else if f.ascii then c.ignoringAsciiCase else c.ignoringCase
  if f.ascii then
    if negated || !c.isAscii then none else some c
  else some (if negated then c.complement else c)

/-- A character that stands for itself. -/
def character (f : Flags) (c : Char) : Pattern :=
  if !f.ignoreCase then literal [c]
  else ofClass (if f.ascii then (CharClass.single c).ignoringAsciiCase
    else (CharClass.single c).ignoringCase)

/-- The characters that a dot means, if it may mean any. -/
def dot? (f : Flags) : Option CharClass :=
  if f.ascii then none
  else if f.dotAll then some .all
  else if f.returns then some (CharClass.ofList [0xA, 0xD]).complement
  else some (CharClass.single '\n').complement

/-- The condition that a circumflex means. -/
def start (f : Flags) : Boundary :=
  if f.multiLine then .lineStart f.returns else .textStart

/-- The condition that a dollar sign means. -/
def stop (f : Flags) : Boundary :=
  if f.multiLine then .lineStop f.returns else .textStop

/-- The text from its first sign on that means something; `inComment` says that
it begins inside a comment. -/
def skipFrom (inComment : Bool) : List Char → List Char
  | [] => []
  | c :: cs =>
    if inComment then skipFrom (c ≠ '\n') cs
    else if Text.isBlank c then skipFrom false cs
    else if c = '#' then skipFrom true cs
    else c :: cs

/-- Passes over what means nothing. -/
def skip (f : Flags) (cs : List Char) : List Char :=
  if f.verbose then skipFrom false cs else cs

end Flags

end FilterQuery.Pattern
