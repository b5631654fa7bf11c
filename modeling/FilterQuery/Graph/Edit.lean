import FilterQuery.Graph

/-!
# Edits of a graph

An edit moves nodes between the child lists of a graph.  It fails if the links
that it follows do not fit together; a graph in which they do never makes it
fail.
-/

namespace FilterQuery.Graph

/-- A change of a graph that may fail; a failure leaves the graph as far as it
was changed. -/
abbrev Edit := EStateM QueryError Graph

namespace Edit

/-- The index of a child in the child list of a node. -/
def slot (parent child : NodeId) : Edit Nat := do
  let g ← get
  match (g.children parent).idxOf? child with
  | some i => return i
  | none => throw (QueryError.about (.notAChild child (g.kind child) parent) (g.token child))

/-- Takes a node out of the child list of another. -/
def removeChild (parent child : NodeId) : Edit Unit := do
  let i ← slot parent child
  modify fun g => (g.setChildren parent ((g.children parent).eraseIdx i)).setParent child none

/-- Takes all links from a node.  Its children lose it as their parent, unless
they have another one by now. -/
def detach (id : NodeId) : Edit Unit :=
  modify fun g =>
    let orphan (g : Graph) (child : NodeId) : Graph :=
      if g.parent child = some id then g.setParent child none else g
    (((g.children id).foldl orphan (g.setChildren id []))).setParent id none

/-- Exchanges the children of a node that has two. -/
def swapChildren (id : NodeId) : Edit Unit :=
  modify fun g =>
    match g.children id with
    | [a, b] => g.setChildren id [b, a]
    | _ => g

/-- Puts a node in the place of another: in its parent's child list, or at the
root.  The node replaced is left without links. -/
def replace (old new : NodeId) : Edit Unit := do
  if old = new then return
  if let some owner := (← get).parent new then
    if owner ≠ old then removeChild owner new
  let g ← get
  match g.parent old with
  | some parent =>
    let i ← slot parent old
    set ((g.setChildren parent ((g.children parent).set i new)).setParent new (some parent))
  | none =>
    if g.root = some old then set (g.setRoot (some new))
    else throw (QueryError.about (.detachedNode old (g.kind old)) (g.token old))
  detach old

end Edit

/-- The graph behind an edit, and its failure if it failed. -/
def edit (g : Graph) (change : Edit Unit) : Graph × Option QueryError :=
  match change.run g with
  | .ok _ g => (g, none)
  | .error e g => (g, some e)

end FilterQuery.Graph
