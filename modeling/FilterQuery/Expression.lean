import FilterQuery.Token

/-!
# Expressions

What the leaves of a query say, and the closed set of node kinds.
-/

namespace FilterQuery

/-- A condition on one property: `name op value` or `name(param) op value`. -/
structure FilterExpression where
  /-- The name as written. -/
  name : String
  /-- The text between the parentheses after the name. -/
  param : Option String := none
  /-- The operator's token. -/
  operator : String
  /-- The text of the value, without the quotes around it. -/
  value : String
  /-- The value was written between quotes. -/
  quoted : Bool := false
  deriving DecidableEq, Inhabited, Repr

/-- A filter whose value is still missing. -/
def FilterExpression.isIncomplete (f : FilterExpression) : Bool :=
  f.value.isEmpty && !f.quoted

/-- A word or quoted phrase to look for. -/
structure SearchExpression where
  text : String
  /-- Marked with `!`: a text must equal it instead of containing it. -/
  exact : Bool := false
  /-- Written between quotes. -/
  phrase : Bool := false
  deriving DecidableEq, Inhabited, Repr

/-- A query within the query. -/
structure NestedExpression where
  /-- The text between the braces. -/
  query : String
  /-- The name of the filter whose value it is, if it is one. -/
  filter : Option String := none
  deriving DecidableEq, Inhabited, Repr

/-- The kinds of nodes, each with what it says. -/
inductive NodeKind where
  | and
  | or
  | not
  | filter (expression : FilterExpression)
  /-- A filter whose value is a nested query, its only child. -/
  | nestedFilter (expression : FilterExpression)
  | search (expression : SearchExpression)
  /-- The elements that a nested query yields. -/
  | nestedQuery (expression : NestedExpression)
  /-- The elements of the payload that meet a condition. -/
  | select
  | union
  | intersection
  /-- A reduction of the elements of a nested query. -/
  | aggregator (name : String)
  /-- A parenthesized expression. -/
  | group
  | comment (text : String)
  | toggle (name : String)
  deriving DecidableEq, Inhabited, Repr

namespace NodeKind

/-- The name that renderings and messages use. -/
def name : NodeKind → String
  | and => "And"
  | or => "Or"
  | not => "Not"
  | filter _ => "Filter"
  | nestedFilter _ => "FilterWithNestedQuery"
  | search _ => "Search"
  | nestedQuery _ => "NestedQuery"
  | select => "Where"
  | union => "Union"
  | intersection => "Intersection"
  | aggregator _ => "Aggregator"
  | group => "Group"
  | comment _ => "Comment"
  | toggle _ => "Toggle"

/-- The number of children of a finished node. -/
def arity : NodeKind → Nat
  | and | or | union | intersection => 2
  | not | select | group | aggregator _ | nestedFilter _ => 1
  | filter _ | search _ | nestedQuery _ | comment _ | toggle _ => 0

def isCombinator : NodeKind → Bool
  | and | or | not => true
  | _ => false

def isBinaryCombinator : NodeKind → Bool
  | and | or => true
  | _ => false

/-- A node that yields elements, as the root of an evaluation graph must. -/
def isEnumerable : NodeKind → Bool
  | select | intersection | union | nestedQuery _ | aggregator _ => true
  | _ => false

/-- A node that yields elements of its own, whatever the payload. -/
def isSetOperand : NodeKind → Bool
  | intersection | union | nestedQuery _ | aggregator _ => true
  | _ => false

end NodeKind

end FilterQuery
