import FilterQuery.Graph.Evaluation
import FilterQuery.Graph.Optimization
import FilterQuery.Lexeme.Scan
import FilterQuery.Plan.Compilation

/-!
# Queries

A query is made from a text by an engine, whatever the text: what is wrong with
it is among its errors.  A query without errors that says anything has a plan,
by which it is evaluated; any other leaves the payload as it is, or yields
nothing, as one chooses.
-/

namespace FilterQuery

structure Query (α : Type) where
  text : String
  /-- The engine that made the query. -/
  engine : Engine α
  mode : Mode
  /-- The graph of the text, with parentheses, comments, toggles and skipped
  filters. -/
  queryGraph : Graph
  /-- The graph that is evaluated. -/
  graph : Graph
  errors : List QueryError
  /-- The tokens of the lexemes in text order. -/
  tokens : List Token
  toggles : List String
  comments : List String
  /-- A query that is empty or has errors yields the payload. -/
  returnsPayload : Bool := true
  plan : Option (Plan α) := none

namespace Query

variable {α : Type}

/-- Makes the plan anew, unless there are errors. -/
def compile (q : Query α) : Query α :=
  if q.errors.isEmpty then
    let compiled := q.engine.compile q.graph
    { q with plan := compiled.value, errors := compiled.notes }
  else { q with plan := none }

/-- There are no errors, and something to evaluate. -/
def isValid (q : Query α) : Bool :=
  q.errors.isEmpty && !q.graph.isEmpty

/-- A toggle of this name is set, letters in either case. -/
def hasToggle (q : Query α) (name : String) : Bool :=
  q.toggles.any (Text.eqIgnoreAsciiCase · name)

/-- The plan by which the query is evaluated. -/
def activePlan? (q : Query α) : Option (Plan α) :=
  if q.isValid then q.plan else none

/-- Optimizes the graph and makes the plan anew.  Nothing happens to a query
that is empty or has errors. -/
def optimize (q : Query α) (options : OptimizationOptions) : Query α :=
  if q.isValid then
    let optimized := q.graph.optimize options
    { q with graph := optimized.value, errors := optimized.notes }.compile
  else q

variable [BEq α]

/-- The run over a payload, with the empty slots of fast evaluation, so that
results stay aligned with the payload. -/
def aligned (q : Query α) (payload : List α) : Run α :=
  match q.activePlan? with
  | some plan => plan.run q.mode payload
  | none => if q.returnsPayload then Run.ofElements payload else []

/-- The run over a payload without empty slots. -/
def apply (q : Query α) (payload : List α) : Run α :=
  (q.aligned payload).withoutEmpty

/-- The elements of a payload that are in the result. -/
def results (q : Query α) (payload : List α) : List α :=
  (q.apply payload).elements

/-- The element is in the result. -/
def test (q : Query α) (e : α) : Noted (Call α) Bool :=
  match q.activePlan? with
  | some plan => plan.yields e
  | none => pure q.returnsPayload

end Query

/-- The graph to evaluate for a draft, with the errors met on the way to it.  A
fatal error leaves nothing to evaluate. -/
def Draft.evaluation (d : Draft) : Noted QueryError Graph :=
  if d.errors.any (·.isFatal) then pure {} else d.graph.evaluation

namespace Engine

variable {α : Type}

/-- Makes a query from a text. -/
def parse (engine : Engine α) (text : String) (mode : Mode := .strict) : Query α :=
  match Lexeme.scan engine.alphabet text with
  | .error e =>
    { text, engine, mode, queryGraph := {}, graph := {}, errors := [e], tokens := []
      toggles := [], comments := [] }
  | .ok lexemes =>
    let draft := Draft.ofLexemes engine.knowledge text lexemes
    { text, engine, mode
      queryGraph := draft.graph
      graph := draft.evaluation.value
      errors := draft.errors ++ draft.evaluation.notes
      tokens := Lexeme.flatTokensOf lexemes
      toggles := draft.toggles
      comments := draft.comments : Query α }.compile

end Engine

end FilterQuery
