import FilterQuery.Graph

/-!
# The node under a cursor

A node covers a place of the text if its token or that of a node below it does:
the token of a combinator that was left out spans only the gap between its
operands.
-/

namespace FilterQuery.Graph

/-- Some token of the tree covers the place. -/
def covers (position : Nat) (t : Tree Place) : Bool :=
  t.any (·.token.contains position)

mutual

/-- Follows the first child that covers the place, as far down as there is
one. -/
def descend (position : Nat) : Tree Place → NodeId
  | .node p ts => (descendInto position ts).getD p.id

def descendInto (position : Nat) : List (Tree Place) → Option NodeId
  | [] => none
  | t :: ts => if covers position t then some (descend position t) else descendInto position ts

end

/-- The deepest node that covers a place. -/
def nodeAt? (g : Graph) (position : Nat) : Option NodeId :=
  match g.tree? with
  | none => none
  | some t => if covers position t then some (descend position t) else none

end FilterQuery.Graph
