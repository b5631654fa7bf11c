import FilterQuery.Graph.Rendering
import FilterQuery.Json.Reader
import FilterQuery.Records

/-!
# Checking a query

The work of the command line: a query is run over JSON data, or only looked at
for errors in its form.
-/

namespace FilterQuery

/-- What is to be done. -/
structure Check where
  query : String
  /-- The JSON text of the records. -/
  input : Option String := none
  /-- Only the form of the query is looked at. -/
  syntaxOnly : Bool := false
  /-- The output has a place for each record. -/
  aligned : Bool := false
  /-- The query is optimized before it is run. -/
  optimized : Bool := false
  /-- The key that `max` and `min` order by. -/
  orderBy : Option String := none
  deriving Inhabited, Repr

/-- What comes out. -/
inductive Check.Outcome where
  /-- The form is right; this is the graph of the query. -/
  | wellFormed (graph : String)
  /-- The records found, and null for an empty place. -/
  | records (output : List Json)
  deriving Inhabited, Repr

/-- Why nothing comes out. -/
inductive Check.Failure where
  | query (errors : List QueryError)
  | malformedInput
  | noInput
  deriving Repr

def Check.Failure.message : Check.Failure → String
  | .query errors => "\n".intercalate (errors.map (·.message))
  | .malformedInput => "Invalid JSON"
  | .noInput => "No input provided. Use --input or pipe JSON to stdin."

namespace Check

def mode (c : Check) : Mode := if c.aligned then .fast else .strict

/-- Looks at the form alone: no filter is known, and none is missed. -/
def runSyntax (c : Check) : Except Failure Outcome :=
  let engine : Engine Unit := { validation := { checksFilters := false } }
  let query := engine.parse c.query c.mode
  match query.errors.filter (·.isFatal) with
  | [] => .ok (.wellFormed query.queryGraph.render)
  | fatal => .error (.query fatal)

/-- Runs the query over records. -/
def runOver (c : Check) (records : Records) : Except Failure Outcome :=
  let query := records.parse c.orderBy c.query c.mode
  let query :=
    if c.optimized then query.optimize { propagateNot := true, swapNotToRight := true } else query
  if query.errors.isEmpty then
    let slots := (query.aligned records.elements).slots
    .ok (.records (slots.map fun slot => (slot.map records.record).getD .null))
  else .error (.query query.errors)

def run (c : Check) : Except Failure Outcome :=
  if c.syntaxOnly then c.runSyntax
  else
    match c.input with
    | none => .error .noInput
    | some text =>
      match Json.parse? text with
      | none => .error .malformedInput
      | some data => c.runOver (Records.ofJson data)

end Check

end FilterQuery
