import FilterQuery.Graph

/-!
# Valid graphs

A graph is valid if each node that is reached from the root has as many children
as its kind wants, and is the parent that its children note.
-/

namespace FilterQuery.Graph

/-- What is wrong with a node: first its number of children, then each stale
parent link. -/
def defects (g : Graph) (p : Place) : List QueryError :=
  let ids := p.node.children
  let arity :=
    if ids.length = p.kind.arity then []
    else [QueryError.about (.wrongArity p.kind ids.length) p.token]
  let stale := ids.filter (g.parent · ≠ some p.id)
  arity ++ stale.map fun child => QueryError.about (.staleParent child p.id) p.token

/-- The defects of all nodes that are reached from the root. -/
def validate (g : Graph) : List QueryError :=
  g.places.flatMap g.defects

end FilterQuery.Graph
