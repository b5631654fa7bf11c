/-!
# Trees

Finitely branching trees with a label at each node.  Graphs unfold to trees, and
what is said about the shape of a query is said about trees.
-/

namespace FilterQuery

/-- A tree: a label and the subtrees below it, in order. -/
inductive Tree (β : Type) where
  | node (label : β) (children : List (Tree β))
  deriving Inhabited, Repr

namespace Tree

variable {β γ : Type}

def label : Tree β → β
  | node l _ => l

def children : Tree β → List (Tree β)
  | node _ ts => ts

/-- A tree of one node. -/
def leaf (l : β) : Tree β := node l []

mutual

/-- The same tree with its labels changed. -/
def map (f : β → γ) : Tree β → Tree γ
  | node l ts => node (f l) (mapAll f ts)

def mapAll (f : β → γ) : List (Tree β) → List (Tree γ)
  | [] => []
  | t :: ts => map f t :: mapAll f ts

end

mutual

/-- The labels of a tree, each before those below it. -/
def preorder : Tree β → List β
  | node l ts => l :: preorderAll ts

def preorderAll : List (Tree β) → List β
  | [] => []
  | t :: ts => preorder t ++ preorderAll ts

end

/-- The number of nodes. -/
def size (t : Tree β) : Nat := t.preorder.length

mutual

/-- Some label of the tree has the property. -/
def any (p : β → Bool) : Tree β → Bool
  | node l ts => p l || anyAll p ts

def anyAll (p : β → Bool) : List (Tree β) → Bool
  | [] => false
  | t :: ts => any p t || anyAll p ts

end

/-- To map trees in a row is to map each. -/
theorem mapAll_eq_map (f : β → γ) (ts : List (Tree β)) : mapAll f ts = ts.map (map f) := by
  induction ts with
  | nil => rfl
  | cons t ts ih => rw [mapAll, ih, List.map_cons]

/-- The contents of trees in a row are those of each of them. -/
theorem preorderAll_eq_flatMap (ts : List (Tree β)) : preorderAll ts = ts.flatMap preorder := by
  induction ts with
  | nil => rfl
  | cons t ts ih => rw [preorderAll, ih, List.flatMap_cons]

end Tree

end FilterQuery
