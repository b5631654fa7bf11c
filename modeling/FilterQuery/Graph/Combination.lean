import FilterQuery.Graph
import FilterQuery.Noted

/-!
# Combination

The nodes of a text stand side by side until its combinators have taken their
operands: `not` its right neighbour, then `and` both neighbours, then `or` both
neighbours.  A combinator that lacks an operand is reported and dropped.
-/

namespace FilterQuery.Graph

/-- A node of a text with what it has combined so far. -/
abbrev Item := Tree Place

namespace Item

def kind (item : Item) : NodeKind := item.label.kind

def token (item : Item) : Token := item.label.token

/-- A combinator that waits for its operands. -/
def isWaiting (item : Item) : Bool :=
  item.kind.isCombinator && item.children.isEmpty

/-- An operand, or a combinator that has its own. -/
def isOperand (item : Item) : Bool := !item.isWaiting

/-- The item with operands below it. -/
def withOperands (item : Item) (operands : List Item) : Item := .node item.label operands

/-- An `and` is left out between two items: an operand, and what is no
combinator of two. -/
def isAdjacent (left right : Item) : Bool :=
  left.isOperand && !(right.isWaiting && right.kind.isBinaryCombinator)

end Item

/-- Gives each waiting `not` the operand on its right, from the right end on, so
that negations nest. -/
def combineNot : List Item → Noted QueryError (List Item)
  | [] => pure []
  | item :: rest => do
    let combined ← combineNot rest
    if item.kind = .not && item.isWaiting then
      match combined with
      | operand :: more =>
        if operand.isOperand then return item.withOperands [operand] :: more
        else .noting (QueryError.about .missingOperand item.token) combined
      | [] => .noting (QueryError.about .missingOperand item.token) []
    else return item :: combined

/-- The word that a combinator is written as. -/
def keyword : NodeKind → String
  | .and => "and"
  | .or => "or"
  | .not => "not"
  | _ => ""

/-- The operands that are missing beside a combinator of two. -/
def missingOperands (item : Item) (left right : Option Item) : List QueryError :=
  let missing (operand : Option Item) (cause : Cause) : List QueryError :=
    if operand.isNone then [QueryError.about cause item.token] else []
  missing left (.missingLeftOperand (keyword item.kind)) ++
    missing right (.missingRightOperand (keyword item.kind))

/-- The item at the head, if it is an operand. -/
def headOperand? (items : List Item) : Option Item :=
  items.head?.filter (·.isOperand)

/-- Gives each waiting combinator of a kind the operands beside it, from the
left end on.  `done` holds what is behind, the nearest first. -/
def combineBinaryFrom (kind : NodeKind) :
    (done : List Item) → List Item → Noted QueryError (List Item)
  | done, [] => pure done.reverse
  | done, [item] =>
    if item.kind = kind && item.isWaiting then
      ⟨done.reverse, missingOperands item (headOperand? done) none⟩
    else pure (item :: done).reverse
  | done, item :: next :: rest =>
    if item.kind = kind && item.isWaiting then
      match headOperand? done, headOperand? [next] with
      | some left, some right =>
        combineBinaryFrom kind (item.withOperands [left, right] :: done.tail) rest
      | left, right => do
        Noted.noteAll (missingOperands item left right)
        combineBinaryFrom kind done (next :: rest)
    else combineBinaryFrom kind (item :: done) (next :: rest)

/-- Gives all waiting combinators their operands, those that bind tightest
first. -/
def combineItems (items : List Item) : Noted QueryError (List Item) := do
  let items ← combineNot items
  let items ← combineBinaryFrom .and [] items
  combineBinaryFrom .or [] items

/-- The expression that items combine to.  Any other that is left beside it is
an error. -/
def combine (items : List Item) : Noted QueryError (Option Item) := do
  let items ← combineItems items
  if let _ :: extra :: _ := items then
    Noted.note (QueryError.about .unexpectedExpression extra.token)
  return items.head?

end FilterQuery.Graph
