import FilterQuery.Number.Shortest
import FilterQuery.Text.Comparison

/-!
# JSON data

The data that queries run over.  A number keeps whether it was written as an
integer, and the members of an object are kept in the order of their keys, each
key once.
-/

namespace FilterQuery

/-- A JSON number. -/
inductive Json.Number where
  /-- Written without fraction and exponent, from `-2 ^ 63` up to `2 ^ 64 -
  1`. -/
  | integer (n : Int)
  | float (x : Binary64)
  deriving DecidableEq, Inhabited, Repr

inductive Json where
  | null
  | boolean (b : Bool)
  | number (n : Json.Number)
  | string (s : String)
  | array (items : List Json)
  | object (members : List (String × Json))
  deriving Inhabited, Repr

namespace Json

/-- Puts a member at its place in key order, in the place of one with the same
key. -/
def insertMember (key : String) (value : Json) : List (String × Json) → List (String × Json)
  | [] => [(key, value)]
  | (k, v) :: rest =>
    match Text.compareChars key.toList k.toList with
    | .lt => (key, value) :: (k, v) :: rest
    | .eq => (key, value) :: rest
    | .gt => (k, v) :: insertMember key value rest

/-- An object of the given members; of two with one key the later counts. -/
def ofMembers (members : List (String × Json)) : Json :=
  object (members.foldl (fun sorted m => insertMember m.1 m.2 sorted) [])

/-- The value of an object's member. -/
def field? (j : Json) (key : String) : Option Json :=
  match j with
  | object members => members.lookup key
  | _ => none

def string? : Json → Option String
  | string s => some s
  | _ => none

/-- A character inside a JSON string. -/
def escapeChar (c : Char) : List Char :=
  if c = '"' || c = '\\' then ['\\', c]
  else if c = '\n' then ['\\', 'n']
  else if c = '\r' then ['\\', 'r']
  else if c = '\t' then ['\\', 't']
  else if c = '\x08' then ['\\', 'b']
  else if c = '\x0c' then ['\\', 'f']
  else if c.toNat < 0x20 then
    let ds := Nat.toDigits 16 c.toNat
    ['\\', 'u'] ++ List.replicate (4 - ds.length) '0' ++ ds
  else [c]

def writeString (s : String) : String :=
  String.ofList ('"' :: (s.toList.flatMap escapeChar ++ ['"']))

def writeNumber : Number → String
  | .integer n => toString n
  | .float x => if x.isFinite then x.toDataText else "null"

/-- A comma between each two texts, and brackets around them all. -/
def bracketed (left right : String) (texts : List String) : String :=
  left ++ ",".intercalate texts ++ right

mutual

/-- The JSON text of a value, without blanks. -/
def write : Json → String
  | null => "null"
  | boolean b => if b then "true" else "false"
  | number n => writeNumber n
  | string s => writeString s
  | array items => bracketed "[" "]" (writeItems items)
  | object members => bracketed "\x7b" "\x7d" (writeMembers members)

def writeItems : List Json → List String
  | [] => []
  | j :: js => write j :: writeItems js

def writeMembers : List (String × Json) → List String
  | [] => []
  | (key, value) :: rest => (writeString key ++ ":" ++ write value) :: writeMembers rest

end

end Json

end FilterQuery
