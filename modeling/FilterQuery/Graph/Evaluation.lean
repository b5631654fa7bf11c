import FilterQuery.Graph.Validity
import FilterQuery.Noted

/-!
# The graph that is evaluated

The graph of a query's text still holds parentheses, comments, toggles and
filters that are to be skipped.  What is evaluated is derived from its tree in
three steps: these nodes are left out, combinations of nested queries become set
operations, and a condition at the root becomes a selection from the payload.
-/

namespace FilterQuery.Graph

mutual

/-- A tree without parentheses, comments, toggles and skipped nodes.  A
combinator that is left without operands vanishes, and one of two that is left
with one is replaced by it. -/
def prune : Tree Place → Option (Tree Content)
  | .node p ts =>
    if p.node.skipped then none
    else
      match p.kind with
      | .group => pruneFirst ts
      | .comment _ | .toggle _ => none
      | kind =>
        match pruneAll ts with
        | [] => if kind.isCombinator then none else some (.node p.content [])
        | [only] => if kind.isBinaryCombinator then some only else some (.node p.content [only])
        | kept => some (.node p.content kept)

def pruneFirst : List (Tree Place) → Option (Tree Content)
  | [] => none
  | t :: _ => prune t

def pruneAll : List (Tree Place) → List (Tree Content)
  | [] => []
  | t :: ts => (prune t).toList ++ pruneAll ts

end

/-- The set operation for a combinator. -/
def setOperation? : NodeKind → Option NodeKind
  | .and => some .intersection
  | .or => some .union
  | _ => none

/-- A combinator over nested queries alone becomes a set operation; over some
nested queries only it is an error. -/
def promoteNode (c : Content) (ts : List (Tree Content)) : Noted QueryError (Tree Content) :=
  match setOperation? c.kind with
  | none => pure (.node c ts)
  | some operation =>
    if ts.all (·.label.kind.isSetOperand) then pure (.node { c with kind := operation } ts)
    else if ts.any (·.label.kind.isSetOperand) then
      .noting (QueryError.about .mixedOperations c.token) (.node c ts)
    else pure (.node c ts)

mutual

/-- Promotes the combinators of a tree, each after those below it. -/
def promote : Tree Content → Noted QueryError (Tree Content)
  | .node c ts => do promoteNode c (← promoteAll ts)

def promoteAll : List (Tree Content) → Noted QueryError (List (Tree Content))
  | [] => pure []
  | t :: ts => do return (← promote t) :: (← promoteAll ts)

end

/-- A tree whose root yields elements: itself, or the selection by it. -/
def enumerated (t : Tree Content) : Tree Content :=
  if t.label.kind.isEnumerable then t else .node ⟨.select, t.label.token⟩ [t]

/-- The graph to evaluate for the graph of a text, with the errors met. -/
def evaluation (g : Graph) : Noted QueryError Graph :=
  match g.tree?.bind prune with
  | none => pure {}
  | some t => do
    let g := ofTree (enumerated (← promote t))
    ⟨g, g.validate⟩

end FilterQuery.Graph
