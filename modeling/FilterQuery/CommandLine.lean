import FilterQuery.Json.Pretty
import FilterQuery.Manual
import FilterQuery.Records.Check

/-!
# The command line

What the arguments of the command ask for, and what it says in answer.  Reading
the records from standard input is left to the program.
-/

namespace FilterQuery

/-- What the command is to do. -/
inductive Command where
  | check (c : Check) (indented : Bool)
  | overview
  | page (topic : String)
  deriving Inhabited, Repr

namespace Command

def usage : String :=
  "Usage: sift check [OPTIONS] <QUERY> | sift docs | sift doc <CATEGORY>"

/-- A command line that asks for nothing known. -/
abbrev Parsed (β : Type) := Except String β

/-- The options of a check and the query among them. -/
structure CheckArguments where
  query : Option String := none
  check : Check := { query := "" }
  indented : Bool := false

/-- Takes over the arguments of a check from left to right. -/
def readCheck (taken : CheckArguments) : List String → Parsed CheckArguments
  | [] => .ok taken
  | "--input" :: text :: rest | "-i" :: text :: rest =>
    readCheck { taken with check := { taken.check with input := some text } } rest
  | "--order-by" :: key :: rest =>
    readCheck { taken with check := { taken.check with orderBy := some key } } rest
  | "--pretty" :: rest | "-p" :: rest => readCheck { taken with indented := true } rest
  | "--syntax-only" :: rest =>
    readCheck { taken with check := { taken.check with syntaxOnly := true } } rest
  | "--aligned" :: rest =>
    readCheck { taken with check := { taken.check with aligned := true } } rest
  | "--optimize" :: rest =>
    readCheck { taken with check := { taken.check with optimized := true } } rest
  | "--" :: query :: rest => readCheck { taken with query := some query } rest
  | argument :: rest =>
    if taken.query.isSome || argument.startsWith "--" then .error usage
    else readCheck { taken with query := some argument } rest

/-- What the arguments ask for. -/
def ofArguments : List String → Parsed Command
  | "check" :: rest => do
    let taken ← readCheck {} rest
    match taken.query with
    | some query => return .check { taken.check with query } taken.indented
    | none => throw usage
  | ["docs"] => return .overview
  | ["doc", topic] => return .page topic
  | _ => throw usage

/-- The command waits for records on standard input. -/
def wantsInput : Command → Bool
  | check c _ => c.input.isNone && !c.syntaxOnly
  | _ => false

def withInput (command : Command) (input : String) : Command :=
  match command with
  | check c indented => check { c with input := some input } indented
  | other => other

/-- What the command prints, or the complaint it ends with. -/
def run : Command → Parsed String
  | check c indented =>
    match c.run with
    | .ok (.wellFormed graph) => .ok ("Syntax is valid\n" ++ graph ++ "\n")
    | .ok (.records output) =>
      let j := Json.array output
      .ok ((if indented then j.writeIndented else j.write) ++ "\n")
    | .error failure => .error failure.message
  | overview => .ok Manual.overview
  | page topic => Manual.find topic

end Command

end FilterQuery
