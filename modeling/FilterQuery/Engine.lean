import FilterQuery.Aggregator
import FilterQuery.FilterTable
import FilterQuery.Graph.Draft
import FilterQuery.OperatorTable

/-!
# Engines

An engine knows what the names and signs in a query mean for elements of one
type.  It is a value: a query keeps the engine it was made with, and registering
more changes no query made before.

A registration that takes a name reports whether the name was free; if it was
not, the engine stays as it was.
-/

namespace FilterQuery

/-- How strictly the filters of a query are checked. -/
structure Validation where
  /-- Unknown and unfinished filters are errors. -/
  checksFilters : Bool := true
  /-- Unknown filters are skipped instead. -/
  skipsUnknown : Bool := false
  /-- Filters without a value are skipped instead. -/
  skipsIncomplete : Bool := false
  deriving DecidableEq, Inhabited, Repr

structure Engine (α : Type) where
  filterTable : FilterTable α := .empty
  lexicon : Lexicon := .builtin
  /-- Parsers that are tried before the usual one of their type, the latest
  first. -/
  parsers : List (ValueType × Parser) := []
  aggregators : AggregatorTable α := .builtin
  /-- The texts of an element that words are looked for in. -/
  searchTexts : Option (α → List String) := none
  /-- Decides whether a word matches a text, in place of containment. -/
  wordMatcher : Option (String → String → Bool) := none
  /-- The elements that a nested query yields, given the name of the filter
  around it. -/
  nestedHandler : Option (String → String → List α) := none
  /-- Decides about filters that are not registered, given name, operator and
  value. -/
  defaultFilter : Option (α → String → String → String → Bool) := none
  validation : Validation := {}
  comparison : StringComparison := .ignoreCase

namespace Engine

variable {α : Type}

/-- All filters, in order of registration. -/
def filters (engine : Engine α) : List (Filter α) := engine.filterTable.filters

def operators (engine : Engine α) : OperatorTable := engine.lexicon.operators

/-- The tokens that the text of a query is scanned for. -/
def alphabet (engine : Engine α) : List String := engine.lexicon.alphabet

/-- A text is scanned for the tokens of all operators. -/
theorem alphabet_eq (engine : Engine α) : engine.alphabet = engine.operators.alphabet :=
  engine.lexicon.alphabet_eq

/-- The filter for a name, with what its pattern has captured. -/
def findFilter? (engine : Engine α) (name : String) : Option (FoundFilter α) :=
  engine.filterTable.find? name

def addFilter (engine : Engine α) (f : Filter α) : Engine α × Bool :=
  match engine.filterTable.insert? f with
  | none => (engine, false)
  | some filterTable => ({ engine with filterTable }, true)

/-- What is to be done about a filter in a query: of its faults the first
counts. -/
def judge (engine : Engine α) (f : FilterExpression) (nested : Bool) : Verdict :=
  let fault (skip : Bool) (cause : Cause) : Verdict :=
    if skip then { skipped := true }
    else if engine.validation.checksFilters then { cause := some cause }
    else {}
  match engine.findFilter? f.name with
  | none => fault engine.validation.skipsUnknown (.unknownFilter f.name)
  | some found =>
    if !nested && f.isIncomplete then
      fault engine.validation.skipsIncomplete (.missingValue f.name)
    else if found.filter.accepts f.operator then {}
    else { cause := some (.unsupportedOperator f.operator f.name) }

/-- What the engine knows about the names in a query. -/
def knowledge (engine : Engine α) : Knowledge where
  judge := engine.judge
  resolvesNested := engine.nestedHandler.isSome
  hasAggregator := engine.aggregators.contains

/-- A character that an operator's token may not hold. -/
def isReserved (c : Char) : Bool :=
  Text.isBlank c || Text.isLetterOrNumeral c || ['"', '(', ')', '\x7b', '\x7d'].contains c

/-- Adds an operator without handlers. -/
def addOperator (engine : Engine α) (token : String) :
    Except RegistrationError (Engine α × Bool) :=
  if token.isEmpty || token.toList.any isReserved then .error (.invalidOperatorToken token)
  else
    match engine.lexicon.insert? { token } with
    | none => .ok (engine, false)
    | some lexicon => .ok ({ engine with lexicon }, true)

/-- Adds a handler to an operator. -/
def addHandler (engine : Engine α) (operator : String) (lhs rhs : ValueType) (handler : Handler) :
    Except RegistrationError (Engine α) :=
  match engine.lexicon.addHandler? operator lhs rhs handler with
  | none => .error (.unknownOperator operator)
  | some lexicon => .ok { engine with lexicon }

/-- Adds a relation between native types to an operator. -/
def addTypedHandler {β γ : Type} [Scalar β] [Scalar γ] (engine : Engine α) (operator : String)
    (related : β → γ → Bool) : Except RegistrationError (Engine α) :=
  engine.addHandler operator (Scalar.valueType β) (Scalar.valueType γ) {
    holds := fun l r _ =>
      match (Scalar.ofValue? l : Option β), (Scalar.ofValue? r : Option γ) with
      | some l, some r => related l r
      | _, _ => false }

def addParser (engine : Engine α) (type : ValueType) (parser : Parser) : Engine α :=
  { engine with parsers := (type, parser) :: engine.parsers }

/-- Parses a text as a type: by the parser registered for it, or else as
usual. -/
def parseValue? (engine : Engine α) (type : ValueType) (text : String) : Option Value :=
  ((engine.parsers.lookup type).bind (· text)).or (type.parse? text)

def addAggregator (engine : Engine α) (name : String) (a : Aggregator α) : Engine α × Bool :=
  match engine.aggregators.insert? name a with
  | none => (engine, false)
  | some aggregators => ({ engine with aggregators }, true)

/-- Adds the aggregators `max` and `min` for a key, each if its name is free;
reports whether both were. -/
def addOrdering (engine : Engine α) (key : α → Option Value) : Engine α × Bool :=
  let (engine, max) := engine.addAggregator "max" (.max key)
  let (engine, min) := engine.addAggregator "min" (.min key)
  (engine, max && min)

end Engine

end FilterQuery
