import FilterQuery.Json

/-!
# Indented JSON

The JSON text of a value with each item and member on a line of its own, two
blanks deeper than the brackets around it.
-/

namespace FilterQuery.Json

/-- A line break and the blanks at the start of a line. -/
def newLine (depth : Nat) : String := "\n" ++ String.ofList (List.replicate (2 * depth) ' ')

/-- Parts on lines of their own between brackets; empty brackets stay
together. -/
def spread (depth : Nat) (left right : String) (parts : List String) : String :=
  if parts.isEmpty then left ++ right
  else
    let lines := parts.map (newLine (depth + 1) ++ ·)
    left ++ ",".intercalate lines ++ newLine depth ++ right

mutual

/-- The indented text of a value at a depth. -/
def writeAt (depth : Nat) : Json → String
  | array items => spread depth "[" "]" (writeItemsAt (depth + 1) items)
  | object members => spread depth "\x7b" "\x7d" (writeMembersAt (depth + 1) members)
  | j => j.write

def writeItemsAt (depth : Nat) : List Json → List String
  | [] => []
  | j :: js => writeAt depth j :: writeItemsAt depth js

def writeMembersAt (depth : Nat) : List (String × Json) → List String
  | [] => []
  | (key, value) :: rest =>
    (writeString key ++ ": " ++ writeAt depth value) :: writeMembersAt depth rest

end

/-- The indented JSON text of a value. -/
def writeIndented (j : Json) : String := j.writeAt 0

end FilterQuery.Json
