import FilterQuery.Error
import FilterQuery.Pattern.Match
import FilterQuery.Pattern.Reader
import FilterQuery.Scalar

/-!
# Filters

A filter gives queries access to a property of the elements under a name, or
under all names that fit a pattern.  It reads a value, which an operator then
compares, or it decides on its own.
-/

namespace FilterQuery

/-- Parses the text of a value. -/
abbrev Parser := String → Option Value

/-- What one use of a filter in a query says beside operator and value. -/
structure FilterArgs where
  /-- The name as written. -/
  name : String
  /-- The parameter in parentheses. -/
  param : Option Value := none
  /-- What the groups of the filter's pattern have captured. -/
  captures : List String := []
  deriving Inhabited, Repr

/-- How a filter is called. -/
inductive FilterToken where
  /-- By one name. -/
  | exact (name : String)
  /-- By every name that fits the pattern which a text denotes. -/
  | family (text : String) (pattern : Pattern)
  deriving DecidableEq, Inhabited, Repr

namespace FilterToken

/-- The names that fit the pattern a text denotes. -/
def ofPattern (text : String) : Except RegistrationError FilterToken :=
  match Pattern.read? text with
  | some pattern => .ok (family text pattern)
  | none => .error (.invalidPattern text)

/-- The captures if the token stands for the name, ASCII letters in either
case. -/
def captures? (t : FilterToken) (name : String) : Option (List String) :=
  match t with
  | exact token => if Text.eqIgnoreAsciiCase token name then some [] else none
  | family _ pattern => pattern.captures? name

def toText : FilterToken → String
  | exact name => name
  | family text _ => "/" ++ text ++ "/"

end FilterToken

variable {α : Type}

/-- Where a filter gets its answer from. -/
inductive FilterSource (α : Type) where
  /-- Reads a value.  The arguments may be such that there is nothing to read
  from any element. -/
  | reader (read : FilterArgs → Option (α → Option Value))
  /-- Decides about an element from the operator and the value in the query. -/
  | decider (decide : α → FilterArgs → (operator : String) → Value → Bool)

/-- The parameter that a filter takes. -/
structure FilterParameter where
  type : ValueType
  /-- Reads its text, in place of the parser for its type. -/
  transform : Option Parser := none

/-- What a filter's value is compared with when the value in the query is a
nested query. -/
structure NestedTransform (α : Type) where
  type : ValueType
  read : α → Option Value

structure Filter (α : Type) where
  token : FilterToken
  type : ValueType
  source : FilterSource α
  /-- The name that a trace shows. -/
  label : String := token.toText
  parameter : Option FilterParameter := none
  /-- The only operators allowed, if there is such a restriction. -/
  operators : Option (List String) := none
  /-- The comparison of texts, in place of the engine's. -/
  comparison : Option StringComparison := none
  /-- Reads values before any other parser. -/
  parser : Option Parser := none
  nested : Option (NestedTransform α) := none

namespace Filter

/-- Reads a value of a native type, if the element has it. -/
def ofOptional {β : Type} [Scalar β] (name : String) (get : α → Option β) : Filter α where
  token := .exact name
  type := Scalar.valueType β
  source := .reader fun _ => some fun e => (get e).map Scalar.toValue

/-- Reads a value of a native type. -/
def ofGetter {β : Type} [Scalar β] (name : String) (get : α → β) : Filter α :=
  ofOptional name fun e => some (get e)

/-- Reads a value that depends on a parameter.  Without a parameter of the
native type there is nothing to read. -/
def ofParameter {π β : Type} [Scalar π] [Scalar β] (name : String) (get : α → π → β) :
    Filter α where
  token := .exact name
  type := Scalar.valueType β
  source := .reader fun args => do
    let p : π ← args.param.bind Scalar.ofValue?
    some fun e => some (Scalar.toValue (get e p))
  parameter := some { type := Scalar.valueType π }

/-- Reads values that have been given their type from outside. -/
def ofValues (token : FilterToken) (type : ValueType) (get : α → FilterArgs → Option Value) :
    Filter α where
  token
  type
  source := .reader fun args => some fun e => get e args

/-- Decides on its own. -/
def ofDecider (name : String) (type : ValueType)
    (decide : α → FilterArgs → (operator : String) → Value → Bool) : Filter α where
  token := .exact name
  type
  source := .decider decide

def withOperators (f : Filter α) (operators : List String) : Filter α :=
  { f with operators := some operators }

/-- Takes a parameter of the type. -/
def withParameter (f : Filter α) (type : ValueType) : Filter α :=
  { f with parameter := some { type, transform := f.parameter.bind (·.transform) } }

/-- Reads the text of the parameter in its own way. -/
def withParameterTransform (f : Filter α) (transform : Parser) : Filter α :=
  let type := (f.parameter.map (·.type)).getD .any
  { f with parameter := some { type, transform := some transform } }

def withComparison (f : Filter α) (comparison : StringComparison) : Filter α :=
  { f with comparison := some comparison }

def withParser (f : Filter α) (parser : Parser) : Filter α :=
  { f with parser := some parser }

/-- Accepts a nested query as value, from whose elements values are read. -/
def withNested (f : Filter α) (type : ValueType) (read : α → Option Value) : Filter α :=
  { f with nested := some { type, read } }

/-- Accepts a nested query as value, from whose elements values of a native type
are read. -/
def withNestedScalar (β : Type) [Scalar β] (f : Filter α) (get : α → Option β) : Filter α :=
  f.withNested (Scalar.valueType β) fun e => (get e).map Scalar.toValue

def accepts (f : Filter α) (operator : String) : Bool :=
  f.operators.all (·.contains operator)

def isDecider (f : Filter α) : Bool :=
  match f.source with
  | .decider _ => true
  | .reader _ => false

end Filter

end FilterQuery
