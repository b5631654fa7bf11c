import FilterQuery.Graph.Edit
import FilterQuery.Noted

/-!
# Optimization of an evaluation graph

Three passes reshape a graph without changing what it means: negations move
below conjunctions and disjunctions, negated operands move to the right, and
double negations disappear.  The first two are optional and come first, in this
order.  Each pass goes from a node to the nodes that are below it after the
change; none makes the tree higher, so that the number of nodes bounds its
depth.
-/

namespace FilterQuery

/-- Which of the optional passes run. -/
structure OptimizationOptions where
  /-- Move negations below conjunctions and disjunctions. -/
  propagateNot : Bool := false
  /-- Move negated operands to the right, so that the others are tried first. -/
  swapNotToRight : Bool := false
  deriving DecidableEq, Inhabited, Repr

namespace Graph

/-- Conjunction and disjunction, each for the other. -/
def dual? : NodeKind → Option NodeKind
  | .and => some .or
  | .or => some .and
  | _ => none

namespace Edit

/-- The new node of a kind. -/
def add (kind : NodeKind) (token : Token) : Edit NodeId := do
  let (g, id) := (← get).add kind token
  set g
  return id

def addChild (parent child : NodeId) : Edit Unit :=
  modify (·.addChild parent child)

/-- The operands of a negated conjunction or disjunction, with the node between
and the kind that takes its place. -/
def negatedPair? (g : Graph) (id : NodeId) : Option (NodeId × NodeKind × NodeId × NodeId) :=
  match g.kind id, g.children id with
  | .not, [inner] =>
    match dual? (g.kind inner), g.children inner with
    | some dual, [a, b] => some (inner, dual, a, b)
    | _, _ => none
  | _, _ => none

/-- Negates an operand and gives it to a node. -/
def addNegated (parent operand : NodeId) (token : Token) : Edit Unit := do
  let negation ← add .not token
  addChild negation operand
  addChild parent negation

/-- Replaces a negated conjunction or disjunction by its dual over the negated
operands; gives the node that is now in its place. -/
def negateOperands (id : NodeId) : Edit NodeId := do
  let g ← get
  match negatedPair? g id with
  | none => return id
  | some (inner, dual, a, b) =>
    detach inner
    let replacement ← add dual (g.token inner)
    addNegated replacement a (g.token id)
    addNegated replacement b (g.token id)
    replace id replacement
    return replacement

/-- Moves negations below conjunctions and disjunctions. -/
def propagateNot : (fuel : Nat) → NodeId → Edit Unit
  | 0, _ => return
  | fuel + 1, id => do
    let current ← negateOperands id
    ((← get).children current).forM (propagateNot fuel)

/-- The node has two operands of which the left alone is negated. -/
def isNegatedLeft (g : Graph) (id : NodeId) : Bool :=
  (g.kind id).isBinaryCombinator &&
    match g.children id with
    | [left, right] => g.kind left = .not && g.kind right ≠ .not
    | _ => false

/-- Moves negated operands to the right. -/
def swapNotToRight : (fuel : Nat) → NodeId → Edit Unit
  | 0, _ => return
  | fuel + 1, id => do
    if isNegatedLeft (← get) id then swapChildren id
    ((← get).children id).forM (swapNotToRight fuel)

/-- The operand below two negations. -/
def doublyNegated? (g : Graph) (id : NodeId) : Option NodeId :=
  match g.kind id, g.children id with
  | .not, [inner] =>
    match g.kind inner, g.children inner with
    | .not, [operand] => some operand
    | _, _ => none
  | _, _ => none

/-- Puts what is below a double negation in its place. -/
def collapseNot : (fuel : Nat) → NodeId → Edit Unit
  | 0, _ => return
  | fuel + 1, id => do
    match doublyNegated? (← get) id with
    | some operand =>
      replace id operand
      collapseNot fuel operand
    | none => ((← get).children id).forM (collapseNot fuel)

/-- Runs a pass from the root on. -/
def fromRoot (pass : (fuel : Nat) → NodeId → Edit Unit) : Edit Unit := do
  let g ← get
  match g.root with
  | none => return
  | some root => pass (g.nodes.size + 1) root

end Edit

/-- Runs the passes on a graph.  A pass that fails leaves the graph as it then
is, and the next one follows. -/
def optimize (g : Graph) (options : OptimizationOptions) : Noted QueryError Graph := do
  let pass (enabled : Bool) (change : (fuel : Nat) → NodeId → Edit Unit) (g : Graph) :
      Noted QueryError Graph :=
    if enabled then
      let (g, failure) := g.edit (Edit.fromRoot change)
      ⟨g, failure.toList⟩
    else pure g
  let g ← pass options.propagateNot Edit.propagateNot g
  let g ← pass options.swapNotToRight Edit.swapNotToRight g
  pass true Edit.collapseNot g

end Graph

end FilterQuery
