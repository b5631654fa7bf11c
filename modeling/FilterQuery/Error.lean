import FilterQuery.Expression
import FilterQuery.Value

/-!
# Errors

A malformed query still gives a query: what is wrong with it is recorded as
errors, each a cause and the place it is about.  Wrong use of the registration
functions is a `RegistrationError`.
-/

namespace FilterQuery

inductive ErrorKind where
  /-- No lexeme begins at a place. -/
  | lexical
  /-- The parts of the query do not fit together. -/
  | syntactic
  /-- A part of the query means nothing to the engine. -/
  | semantic
  /-- A graph is not what its operations promise. -/
  | internal
  deriving DecidableEq, Inhabited, Repr

namespace ErrorKind

/-- The words that a message begins with. -/
def words : ErrorKind → String
  | lexical => "lexical error"
  | syntactic => "syntax error"
  | semantic => "semantic error"
  | internal => "internal error"

/-- The query cannot be evaluated at all. -/
def isFatal : ErrorKind → Bool
  | lexical | syntactic => true
  | semantic | internal => false

end ErrorKind

/-- What can be wrong with a query or a graph. -/
inductive Cause where
  -- Lexemes
  | unexpectedCharacter (c : Char)
  | unexpectedClosing
  | unbalancedParenthesis
  | unbalancedBrace
  | unterminatedPhrase
  | unterminatedValue
  -- Combination
  | unexpectedExpression
  | missingOperand
  | missingLeftOperand (keyword : String)
  | missingRightOperand (keyword : String)
  | wrongArity (kind : NodeKind) (count : Nat)
  -- Meaning
  | unresolvableNestedQuery (query : String)
  | unknownAggregator (name : String)
  | unknownFilter (name : String)
  | missingValue (name : String)
  | unsupportedOperator (operator name : String)
  | mixedOperations
  | noNestedHandler
  | nestedQueryAsCondition
  | unparsableValue (value name : String) (type : ValueType)
  | noNestedTransformer (name : String)
  | unknownOperator (operator : String)
  | noHandler (operator : String) (lhs rhs : ValueType)
  | noSearchData
  | unexpectedParameter (name : String)
  | unparsableParameter (param name : String) (type : ValueType)
  -- Graphs
  | staleParent (child parent : Nat)
  | notAChild (child : Nat) (kind : NodeKind) (parent : Nat)
  | detachedNode (node : Nat) (kind : NodeKind)
  | notEnumerable (kind : NodeKind)
  | notACondition (kind : NodeKind)
  deriving DecidableEq, Repr

namespace Cause

def kind : Cause → ErrorKind
  | unexpectedCharacter _ => .lexical
  | unexpectedClosing | unbalancedParenthesis | unbalancedBrace | unterminatedPhrase
  | unterminatedValue | unexpectedExpression | missingOperand | missingLeftOperand _
  | missingRightOperand _ | wrongArity .. => .syntactic
  | unresolvableNestedQuery _ | unknownAggregator _ | unknownFilter _ | missingValue _
  | unsupportedOperator .. | mixedOperations | noNestedHandler | nestedQueryAsCondition
  | unparsableValue .. | noNestedTransformer _ | unknownOperator _ | noHandler ..
  | noSearchData | unexpectedParameter _ | unparsableParameter .. => .semantic
  | staleParent .. | notAChild .. | detachedNode .. | notEnumerable _ | notACondition _ =>
    .internal

/-- The cause in words. -/
def reason : Cause → String
  | unexpectedCharacter c => s!"Unexpected character '{String.singleton c}'"
  | unexpectedClosing => "Unexpected ')'"
  | unbalancedParenthesis => "Unbalanced '(': missing ')'"
  | unbalancedBrace => "Unbalanced '\x7b': missing '\x7d'"
  | unterminatedPhrase => "Unterminated quoted phrase"
  | unterminatedValue => "Unterminated quoted value"
  | unexpectedExpression => "Unexpected expression"
  | missingOperand => "Missing operand after 'not'"
  | missingLeftOperand keyword => s!"Missing left operand for '{keyword}'"
  | missingRightOperand keyword => s!"Missing right operand for '{keyword}'"
  | wrongArity kind count =>
    s!"{kind.name} node expects {kind.arity} operand(s) but has {count}"
  | unresolvableNestedQuery query =>
    "No nested query handler registered to resolve '\x7b" ++ query ++ "\x7d'"
  | unknownAggregator name => s!"Unknown aggregator '{name}'"
  | unknownFilter name => s!"Unknown filter '{name}'"
  | missingValue name => s!"Filter '{name}' is missing a value"
  | unsupportedOperator operator name =>
    s!"Operator '{operator}' is not supported by filter '{name}'"
  | mixedOperations => "Cannot mix nested query operations with regular operations"
  | noNestedHandler => "No nested query handler registered"
  | nestedQueryAsCondition => "A nested query cannot be used as a condition here"
  | unparsableValue value name type =>
    s!"Could not parse '{value}' as a value for filter '{name}' ({type.name})"
  | noNestedTransformer name => s!"Filter '{name}' has no nested query transformer"
  | unknownOperator operator => s!"Unknown operator '{operator}'"
  | noHandler operator lhs rhs =>
    s!"No handler for operator '{operator}' between {lhs.name} and {rhs.name}"
  | noSearchData => "No search data callback registered"
  | unexpectedParameter name => s!"Filter '{name}' does not take a parameter"
  | unparsableParameter param name type =>
    s!"Could not parse parameter '{param}' of filter '{name}' as {type.name}"
  | staleParent child parent => s!"child #{child} of #{parent} has a stale parent link"
  | notAChild child kind parent =>
    s!"node #{child} ({kind.name}) is not a child of its recorded parent #{parent}"
  | detachedNode node kind => s!"cannot replace detached node #{node} ({kind.name})"
  | notEnumerable kind => s!"{kind.name} node cannot be enumerated here"
  | notACondition kind => s!"{kind.name} node cannot be compiled as a predicate"

end Cause

/-- Something wrong at a place of the query's text. -/
structure QueryError where
  cause : Cause
  /-- The byte offset of the text it is about. -/
  index : Nat
  /-- The byte length of the text it is about. -/
  length : Nat
  deriving DecidableEq, Repr

namespace QueryError

/-- An error about a token. -/
def about (cause : Cause) (token : Token) : QueryError :=
  ⟨cause, token.position, token.length⟩

def kind (e : QueryError) : ErrorKind := e.cause.kind

def isFatal (e : QueryError) : Bool := e.kind.isFatal

def message (e : QueryError) : String :=
  s!"{e.kind.words} at {e.index}: {e.cause.reason}"

end QueryError

/-- A registration that cannot be. -/
inductive RegistrationError where
  /-- A handler for an operator that is not registered. -/
  | unknownOperator (token : String)
  /-- An operator token must not be empty nor hold blanks, letters, numerals,
  quotes, parentheses or braces. -/
  | invalidOperatorToken (token : String)
  /-- The text is no pattern. -/
  | invalidPattern (pattern : String)
  deriving DecidableEq, Repr

def RegistrationError.message : RegistrationError → String
  | unknownOperator token => s!"unknown operator '{token}'"
  | invalidOperatorToken token => s!"invalid operator token '{token}'"
  | invalidPattern pattern => s!"invalid filter pattern: {pattern}"

end FilterQuery
