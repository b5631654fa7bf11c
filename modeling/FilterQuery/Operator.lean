import FilterQuery.Scalar

/-!
# Operators

An operator is a relation between values with one handler for each pair of
types.  Handlers keep the place of the first one for their pair, so the
right-hand types of an operator are tried in the order in which they came in; a
pair of unspecific types is the fallback for all others.
-/

namespace FilterQuery

/-- Decides whether two values are related. -/
structure Handler where
  /-- The name that a trace shows; a handler without one leaves no trace. -/
  label : Option String := none
  holds : Value → Value → StringComparison → Bool

/-- The types of a left and a right operand. -/
abbrev TypePair := ValueType × ValueType

/-- A named relation with its handlers. -/
structure Operator where
  token : String
  /-- Handlers by pair, in order of their first registration. -/
  handlers : List (TypePair × Handler) := []
  /-- The handler for pairs that have none of their own. -/
  fallback : Option Handler := none

namespace Operator

/-- Puts a handler in the place of the one with the same key, or at the end. -/
def putHandler (key : TypePair) (handler : Handler) :
    List (TypePair × Handler) → List (TypePair × Handler)
  | [] => [(key, handler)]
  | (k, h) :: rest =>
    if k = key then (k, handler) :: rest else (k, h) :: putHandler key handler rest

/-- Registers a handler, in the place of an earlier one for the same pair. -/
def addHandler (op : Operator) (lhs rhs : ValueType) (handler : Handler) : Operator :=
  if lhs = .any ∧ rhs = .any then { op with fallback := some handler }
  else { op with handlers := putHandler (lhs, rhs) handler op.handlers }

theorem token_addHandler (op : Operator) (lhs rhs : ValueType) (handler : Handler) :
    (op.addHandler lhs rhs handler).token = op.token := by
  unfold addHandler
  split
  · rfl
  · rfl

/-- The handler registered for exactly this pair. -/
def pairHandler? (op : Operator) (lhs rhs : ValueType) : Option Handler :=
  op.handlers.lookup (lhs, rhs)

/-- The handler for a pair, or else the fallback. -/
def resolve? (op : Operator) (lhs rhs : ValueType) : Option Handler :=
  (op.pairHandler? lhs rhs).or op.fallback

/-- The right-hand types to try for a left-hand type: those registered with it
in order, and last the unspecific type if some handler takes it. -/
def rhsTypes (op : Operator) (lhs : ValueType) : List ValueType :=
  let own := op.handlers.filterMap fun ((l, r), _) => if l = lhs ∧ r ≠ .any then some r else none
  if (op.pairHandler? lhs .any).isSome || op.fallback.isSome then own ++ [.any] else own

end Operator

/-- The relations that every engine starts with. -/
inductive Relation where
  /-- A text contains the other; any other values are equal. -/
  | has
  | equal
  | notEqual
  | less
  | greater
  | lessEqual
  | greaterEqual
  deriving DecidableEq, Inhabited, Repr

namespace Relation

def all : List Relation :=
  [has, equal, notEqual, less, greater, lessEqual, greaterEqual]

def token : Relation → String
  | has => ":"
  | equal => "="
  | notEqual => "!="
  | less => "<"
  | greater => ">"
  | lessEqual => "<="
  | greaterEqual => ">="

/-- The relation holds between operands in this order. -/
def accepts : Relation → Ordering → Bool
  | has, o | equal, o => o == .eq
  | notEqual, o => o != .eq
  | less, o => o == .lt
  | greater, o => o == .gt
  | lessEqual, o => o != .gt
  | greaterEqual, o => o != .lt

/-- Numbers are related by their order; without one they are not related. -/
def ofNumbers (r : Relation) : Handler where
  holds a b _ := (a.compareNumbers? b).any r.accepts

/-- Texts are related by containment, equality or order under the comparison in
force. -/
def ofStrings (r : Relation) : Handler where
  holds a b comparison :=
    match a.string?, b.string? with
    | some s, some t =>
      match r with
      | has => comparison.contains s t
      | equal => comparison.equals s t
      | notEqual => !comparison.equals s t
      | _ => r.accepts (comparison.compare s t)
    | _, _ => false

/-- Booleans are related by equality. -/
def ofBooleans (r : Relation) : Handler where
  holds a b _ :=
    match a.boolean?, b.boolean? with
    | some p, some q => r.accepts (compare p q)
    | _, _ => false

/-- The numeric pairs, each type with itself first. -/
def numericPairs : List TypePair :=
  let types : List ValueType := [.integer, .float, .decimal]
  types.flatMap fun lhs => (lhs :: types.filter (· ≠ lhs)).map fun rhs => (lhs, rhs)

/-- The relation as an operator with its handlers. -/
def toOperator (r : Relation) : Operator :=
  let op : Operator := { token := r.token }
  let op := numericPairs.foldl (fun op pair => op.addHandler pair.1 pair.2 r.ofNumbers) op
  let op := op.addHandler .string .string r.ofStrings
  match r with
  | has | equal | notEqual => op.addHandler .boolean .boolean r.ofBooleans
  | _ => op

end Relation

end FilterQuery
