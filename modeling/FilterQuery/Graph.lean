import FilterQuery.Error
import FilterQuery.Tree

/-!
# Graphs

A graph keeps its nodes in one array and lets them refer to each other by their
index.  A node lists its children, and notes which node is its parent.  Both are
kept apart on purpose: only the children make up the tree that a graph stands
for, and an edit may find that a parent link is stale.  Nodes are never taken
out of the array; a node that an edit removes is no longer reached from the
root.
-/

namespace FilterQuery

/-- The index of a node in its graph. -/
abbrev NodeId := Nat

structure Node where
  kind : NodeKind
  token : Token
  children : List NodeId := []
  /-- The node that owns this one: none for a root and for a detached node. -/
  parent : Option NodeId := none
  /-- Left out of evaluation. -/
  skipped : Bool := false
  deriving DecidableEq, Inhabited, Repr

structure Graph where
  nodes : Array Node := #[]
  root : Option NodeId := none
  deriving DecidableEq, Inhabited, Repr

namespace Graph

/-- The node at an index; an index without a node has one without any links. -/
def node (g : Graph) (id : NodeId) : Node :=
  g.nodes.getD id { kind := .group, token := {} }

def kind (g : Graph) (id : NodeId) : NodeKind := (g.node id).kind

def token (g : Graph) (id : NodeId) : Token := (g.node id).token

def children (g : Graph) (id : NodeId) : List NodeId := (g.node id).children

def parent (g : Graph) (id : NodeId) : Option NodeId := (g.node id).parent

def isEmpty (g : Graph) : Bool := g.root.isNone

/-- Changes the node at an index. -/
def update (g : Graph) (id : NodeId) (f : Node → Node) : Graph :=
  { g with nodes := g.nodes.modify id f }

def setChildren (g : Graph) (id : NodeId) (children : List NodeId) : Graph :=
  g.update id ({ · with children })

def setParent (g : Graph) (id : NodeId) (parent : Option NodeId) : Graph :=
  g.update id ({ · with parent })

/-- The graph with one more node, not linked to any other, and that node's
index. -/
def add (g : Graph) (kind : NodeKind) (token : Token) : Graph × NodeId :=
  ({ g with nodes := g.nodes.push { kind, token } }, g.nodes.size)

/-- Makes a node the root, which then has no parent, or leaves the graph without
a root. -/
def setRoot (g : Graph) : Option NodeId → Graph
  | none => { g with root := none }
  | some id => { g.setParent id none with root := some id }

/-- Appends a node to the children of another, its parent from now on. -/
def addChild (g : Graph) (parent child : NodeId) : Graph :=
  (g.setChildren parent (g.children parent ++ [child])).setParent child (some parent)

/-- A node at its place in a graph. -/
structure Place where
  id : NodeId
  node : Node
  deriving DecidableEq, Inhabited, Repr

namespace Place

def kind (p : Place) : NodeKind := p.node.kind

def token (p : Place) : Token := p.node.token

end Place

/-- The nodes below an index as a tree.  The tree of a graph without cycles is
less high than the graph has nodes, so that `fuel` beyond their number changes
nothing. -/
def unfoldFrom (g : Graph) : (fuel : Nat) → NodeId → Tree Place
  | 0, id => .leaf ⟨id, g.node id⟩
  | fuel + 1, id => .node ⟨id, g.node id⟩ ((g.children id).map (g.unfoldFrom fuel))

def unfold (g : Graph) (id : NodeId) : Tree Place :=
  g.unfoldFrom g.nodes.size id

/-- The tree below the root. -/
def tree? (g : Graph) : Option (Tree Place) :=
  g.root.map g.unfold

/-- The nodes reached from an index, each before its children. -/
def preorder (g : Graph) (id : NodeId) : List NodeId :=
  (g.unfold id).preorder.map (·.id)

/-- The places reached from the root, each before its children. -/
def places (g : Graph) : List Place :=
  match g.tree? with
  | none => []
  | some t => t.preorder

/-- The number of nodes reached from the root. -/
def size (g : Graph) : Nat := g.places.length

/-- What a node says, apart from its links. -/
structure Content where
  kind : NodeKind
  token : Token
  deriving DecidableEq, Inhabited, Repr

def Place.content (p : Place) : Content := ⟨p.kind, p.token⟩

mutual

/-- Adds the nodes of a tree, each after those below it, and gives the index of
its root. -/
def addTree (g : Graph) : Tree Content → Graph × NodeId
  | .node c ts =>
    let (g, ids) := g.addTrees ts
    let (g, id) := g.add c.kind c.token
    (ids.foldl (·.addChild id ·) g, id)

def addTrees (g : Graph) : List (Tree Content) → Graph × List NodeId
  | [] => (g, [])
  | t :: ts =>
    let (g, id) := g.addTree t
    let (g, ids) := g.addTrees ts
    (g, id :: ids)

end

/-- The graph of a tree, its nodes in the order in which their subtrees are
complete. -/
def ofTree (t : Tree Content) : Graph :=
  let (g, id) := ({} : Graph).addTree t
  g.setRoot (some id)

end Graph

end FilterQuery
