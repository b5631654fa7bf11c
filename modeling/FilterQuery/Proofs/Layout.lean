import FilterQuery.Graph.Validity
import FilterQuery.Proofs.Trees

/-!
# Trees laid out in graphs

A graph stores a tree as nodes that list their children and note their parent.
`Laid` says that a graph lays out a given tree: the tree names the index, the
kind, the token and the skip mark of each node, and the links follow from its
shape.  A change of the graph keeps a laid out tree as long as it stays off the
indices of the tree, so that trees without a common index are changed one at a
time.

The tree that a graph unfolds to is the one that it lays out, and such a graph
is valid if every node has as many children as its kind wants.
-/

namespace FilterQuery.Graph

section Nodes

variable (g : Graph)

/-- An index without a node has one without any links. -/
theorem node_of_not_lt {i : NodeId} (h : ¬ i < g.nodes.size) :
    g.node i = { kind := .group, token := {} } := by
  rw [node, Array.getD_eq_getD_getElem?, Array.getElem?_eq_none (Nat.not_lt.mp h)]
  rfl

/-- Only what is in the graph has a parent. -/
theorem lt_of_parent {i p : NodeId} (h : g.parent i = some p) : i < g.nodes.size := by
  by_contra hsize
  rw [parent, node_of_not_lt g hsize] at h
  cases h

/-- Only what is in the graph has children. -/
theorem lt_of_mem_children {i j : NodeId} (h : j ∈ g.children i) : i < g.nodes.size := by
  by_contra hsize
  rw [children, node_of_not_lt g hsize] at h
  cases h

@[simp] theorem size_update (id : NodeId) (f : Node → Node) :
    (g.update id f).nodes.size = g.nodes.size := by
  simp [update]

@[simp] theorem root_update (id : NodeId) (f : Node → Node) : (g.update id f).root = g.root := rfl

/-- A change of a node is seen at its index, if that is in the graph, and
nowhere else. -/
theorem node_update (id : NodeId) (f : Node → Node) (i : NodeId) :
    (g.update id f).node i = if i = id ∧ i < g.nodes.size then f (g.node i) else g.node i := by
  simp only [node, update, Array.getD_eq_getD_getElem?, Array.getElem?_modify]
  by_cases hi : i = id
  · subst hi
    by_cases hs : i < g.nodes.size
    · simp [hs]
    · simp [hs]
  · simp [hi, Ne.symm hi]

@[simp] theorem size_setChildren (id : NodeId) (ids : List NodeId) :
    (g.setChildren id ids).nodes.size = g.nodes.size := size_update ..

@[simp] theorem size_setParent (id : NodeId) (parent : Option NodeId) :
    (g.setParent id parent).nodes.size = g.nodes.size := size_update ..

@[simp] theorem root_setChildren (id : NodeId) (ids : List NodeId) :
    (g.setChildren id ids).root = g.root := rfl

@[simp] theorem root_setParent (id : NodeId) (parent : Option NodeId) :
    (g.setParent id parent).root = g.root := rfl

/-- New children are seen at their node and nowhere else. -/
theorem node_setChildren {id : NodeId} (h : id < g.nodes.size) (ids : List NodeId) (i : NodeId) :
    (g.setChildren id ids).node i =
      if i = id then { g.node i with children := ids } else g.node i := by
  rw [setChildren, node_update]
  by_cases hi : i = id <;> simp [hi, h]

/-- A new parent is seen at its node and nowhere else. -/
theorem node_setParent {id : NodeId} (h : id < g.nodes.size) (parent : Option NodeId)
    (i : NodeId) :
    (g.setParent id parent).node i =
      if i = id then { g.node i with parent } else g.node i := by
  rw [setParent, node_update]
  by_cases hi : i = id <;> simp [hi, h]

@[simp] theorem size_add (kind : NodeKind) (token : Token) :
    (g.add kind token).1.nodes.size = g.nodes.size + 1 := by
  simp [add]

@[simp] theorem root_add (kind : NodeKind) (token : Token) : (g.add kind token).1.root = g.root :=
  rfl

/-- A new node stands at the end, and all others where they stood. -/
theorem node_add (kind : NodeKind) (token : Token) (i : NodeId) :
    (g.add kind token).1.node i =
      if i = g.nodes.size then { kind, token } else g.node i := by
  simp only [node, add, Array.getD_eq_getD_getElem?, Array.getElem?_push]
  split <;> rfl

@[simp] theorem size_addChild (parent child : NodeId) :
    (g.addChild parent child).nodes.size = g.nodes.size := by
  simp [addChild]

@[simp] theorem root_addChild (parent child : NodeId) :
    (g.addChild parent child).root = g.root := rfl

/-- A new link is seen at both of its ends and nowhere else. -/
theorem node_addChild {parent child : NodeId} (hp : parent < g.nodes.size)
    (hc : child < g.nodes.size) (hne : parent ≠ child) (i : NodeId) :
    (g.addChild parent child).node i =
      if i = parent then { g.node i with children := (g.node i).children ++ [child] }
      else if i = child then { g.node i with parent := some parent }
      else g.node i := by
  rw [addChild, node_setParent _ (by simpa using hc), node_setChildren _ hp]
  by_cases hip : i = parent
  · subst hip
    simp [hne, children]
  · simp [hip]

@[simp] theorem size_setRoot (root : Option NodeId) :
    (g.setRoot root).nodes.size = g.nodes.size := by
  cases root <;> simp [setRoot]

@[simp] theorem root_setRoot (root : Option NodeId) : (g.setRoot root).root = root := by
  cases root <;> rfl

/-- A new root loses its parent, and nothing else changes. -/
theorem node_setRoot {id : NodeId} (h : id < g.nodes.size) (i : NodeId) :
    (g.setRoot (some id)).node i =
      if i = id then { g.node i with parent := none } else g.node i :=
  node_setParent g h none i

end Nodes

/-- A node at its place in a graph, apart from its links. -/
structure Spot where
  id : NodeId
  kind : NodeKind
  token : Token
  skipped : Bool := false

/-- The place apart from the links of its node. -/
def Place.spot (p : Place) : Spot := ⟨p.id, p.kind, p.token, p.node.skipped⟩

namespace Spot

def content (s : Spot) : Content := ⟨s.kind, s.token⟩

/-- The node of a spot with its links. -/
def node (s : Spot) (children : List NodeId) (parent : Option NodeId) : Node :=
  { kind := s.kind, token := s.token, children, parent, skipped := s.skipped }

end Spot

/-- The index at the root of a tree of spots. -/
def rootId (t : Tree Spot) : NodeId := t.label.id

/-- The indices of a tree of spots, each before those below it. -/
def indices (t : Tree Spot) : List NodeId := t.preorder.map (·.id)

/-- The indices of several trees. -/
def indicesAll (ts : List (Tree Spot)) : List NodeId := ts.flatMap indices

@[simp] theorem rootId_node (s : Spot) (ts : List (Tree Spot)) : rootId (.node s ts) = s.id := rfl

@[simp] theorem indices_node (s : Spot) (ts : List (Tree Spot)) :
    indices (.node s ts) = s.id :: indicesAll ts := by
  rw [indices, Tree.preorder_node, List.map_cons, List.map_flatMap]
  rfl

@[simp] theorem indicesAll_nil : indicesAll [] = [] := rfl

@[simp] theorem indicesAll_cons (t : Tree Spot) (ts : List (Tree Spot)) :
    indicesAll (t :: ts) = indices t ++ indicesAll ts := by
  simp [indicesAll]

@[simp] theorem indicesAll_append (ts us : List (Tree Spot)) :
    indicesAll (ts ++ us) = indicesAll ts ++ indicesAll us := by
  simp [indicesAll]

/-- The indices in a list of trees are those in its members. -/
theorem mem_indicesAll {ts : List (Tree Spot)} {i : NodeId} :
    i ∈ indicesAll ts ↔ ∃ t ∈ ts, i ∈ indices t := List.mem_flatMap

/-- The index of the root is one of the indices. -/
theorem rootId_mem_indices (t : Tree Spot) : rootId t ∈ indices t := by
  cases t with
  | node s ts => simp

/-- The graph lays out the tree below a parent: each spot of the tree is a node,
with the roots of the trees below it as its children and the spot above it as
its parent. -/
inductive Laid (g : Graph) : (parent : Option NodeId) → Tree Spot → Prop where
  | node {parent : Option NodeId} {s : Spot} {ts : List (Tree Spot)}
      (bound : s.id < g.nodes.size)
      (stored : g.node s.id = s.node (ts.map rootId) parent)
      (below : ∀ t ∈ ts, Laid g (some s.id) t) : Laid g parent (.node s ts)

namespace Laid

variable {g g' : Graph} {parent : Option NodeId} {t : Tree Spot}

/-- A tree is laid at a node exactly if the node says so and its children lay
the trees below. -/
theorem node_iff {s : Spot} {ts : List (Tree Spot)} :
    Laid g parent (.node s ts) ↔ s.id < g.nodes.size ∧
      g.node s.id = s.node (ts.map rootId) parent ∧ ∀ t ∈ ts, Laid g (some s.id) t :=
  ⟨fun | .node bound stored below => ⟨bound, stored, below⟩,
    fun ⟨bound, stored, below⟩ => .node bound stored below⟩

/-- The indices of a laid tree are in the graph. -/
theorem index_lt (h : Laid g parent t) : ∀ i ∈ indices t, i < g.nodes.size := by
  induction h with
  | node bound stored below ih =>
      intro i hi
      rcases List.mem_cons.mp (by simpa using hi) with rfl | hi
      · exact bound
      · obtain ⟨t, ht, hit⟩ := mem_indicesAll.mp hi
        exact ih t ht i hit

/-- The root of a laid tree is in the graph. -/
theorem root_lt (h : Laid g parent t) : rootId t < g.nodes.size :=
  h.index_lt _ (rootId_mem_indices t)

/-- The parent of the root is the one the tree is laid under. -/
theorem parent_root (h : Laid g parent t) : (g.node (rootId t)).parent = parent := by
  cases h with
  | node bound stored below => simp [stored, Spot.node]

/-- **Frame.**  A tree stays where it is as long as the nodes at its indices
do. -/
theorem frame (h : Laid g parent t) (hsize : g.nodes.size ≤ g'.nodes.size)
    (hsame : ∀ i ∈ indices t, g'.node i = g.node i) : Laid g' parent t := by
  induction h with
  | @node parent s ts bound stored below ih =>
      refine .node (Nat.lt_of_lt_of_le bound hsize) ?_ fun t ht => ih t ht fun i hi => ?_
      · rw [hsame _ (by simp), stored]
      · exact hsame i (by
          rw [indices_node]
          exact List.mem_cons_of_mem _ (mem_indicesAll.mpr ⟨t, ht, hi⟩))

/-- A tree whose root is given another parent, and nothing else is changed at
its indices. -/
theorem reparent {parent' : Option NodeId} (h : Laid g parent t) (hnodup : (indices t).Nodup)
    (hsize : g.nodes.size ≤ g'.nodes.size)
    (hroot : g'.node (rootId t) = { g.node (rootId t) with parent := parent' })
    (hsame : ∀ i ∈ indices t, i ≠ rootId t → g'.node i = g.node i) : Laid g' parent' t := by
  cases h with
  | @node _ s ts bound stored below =>
      rw [indices_node, List.nodup_cons] at hnodup
      refine .node (Nat.lt_of_lt_of_le bound hsize) ?_ fun t ht =>
        (below t ht).frame hsize fun i hi => ?_
      · rw [rootId_node] at hroot
        rw [hroot, stored]
        rfl
      · have hmem : i ∈ indicesAll ts := mem_indicesAll.mpr ⟨t, ht, hi⟩
        refine hsame i (by simp [hmem]) ?_
        rintro rfl
        exact hnodup.1 hmem

end Laid

section Root

variable {g : Graph} {parent : Option NodeId} {t : Tree Spot}

/-- The root has the kind that the tree says. -/
theorem Laid.kind_root (h : Laid g parent t) : g.kind (rootId t) = t.label.kind := by
  cases h with
  | node bound stored below =>
      rw [rootId_node, kind, stored]
      rfl

/-- The root has the token that the tree says. -/
theorem Laid.token_root (h : Laid g parent t) : g.token (rootId t) = t.label.token := by
  cases h with
  | node bound stored below =>
      rw [rootId_node, token, stored]
      rfl

/-- The children of the root are the roots of the trees below. -/
theorem Laid.children_root (h : Laid g parent t) :
    g.children (rootId t) = t.children.map rootId := by
  cases h with
  | node bound stored below =>
      rw [rootId_node, children, stored]
      rfl

/-- The trees below the root are laid under it. -/
theorem Laid.child (h : Laid g parent t) {u : Tree Spot} (hu : u ∈ t.children) :
    Laid g (some (rootId t)) u := by
  cases h with
  | node bound stored below => exact below u hu

end Root

/-- A graph unfolds to the tree that it lays out. -/
theorem Laid.unfoldFrom {g : Graph} {parent : Option NodeId} {t : Tree Spot}
    (h : Laid g parent t) {fuel : Nat} (hfuel : t.height ≤ fuel) :
    (g.unfoldFrom fuel (rootId t)).map Place.spot = t := by
  induction h generalizing fuel with
  | @node parent s ts bound stored below ih =>
      have hspot : Place.spot ⟨s.id, g.node s.id⟩ = s := by
        rw [stored]
        rfl
      have hchildren : g.children s.id = ts.map rootId := by
        rw [children, stored]
        rfl
      have hbelow := Tree.height_le_iff.mp hfuel
      cases fuel with
      | zero =>
          have : ts = [] := by
            cases ts with
            | nil => rfl
            | cons t ts => exact absurd (hbelow t (by simp)) (Nat.not_lt_zero _)
          subst this
          simp [Graph.unfoldFrom, Tree.leaf, hspot]
      | succ fuel =>
          rw [rootId_node, Graph.unfoldFrom, Tree.map_node, hspot, hchildren, List.map_map,
            List.map_map]
          congr 1
          refine (List.map_congr_left fun t ht => ?_).trans (List.map_id ts)
          exact ih t ht (Nat.lt_succ_iff.mp (hbelow t ht))

/-- A graph has at least as many nodes as a tree that it lays out. -/
theorem Laid.length_le {g : Graph} {parent : Option NodeId} {t : Tree Spot}
    (h : Laid g parent t) (hnodup : (indices t).Nodup) : (indices t).length ≤ g.nodes.size := by
  have hsub : indices t ⊆ List.range g.nodes.size := fun i hi =>
    List.mem_range.mpr (h.index_lt i hi)
  simpa using (List.subperm_of_subset hnodup hsub).length_le

/-- A tree without an index twice is lower than the graph has nodes. -/
theorem Laid.height_lt {g : Graph} {parent : Option NodeId} {t : Tree Spot}
    (h : Laid g parent t) (hnodup : (indices t).Nodup) : t.height < g.nodes.size := by
  refine Nat.lt_of_lt_of_le t.height_lt_size ?_
  simpa [indices] using h.length_le hnodup

/-- The whole graph stands for a tree: it is laid out below the root, and no
index occurs twice. -/
structure Holds (g : Graph) (t : Tree Spot) : Prop where
  root : g.root = some (rootId t)
  laid : Laid g none t
  nodup : (indices t).Nodup

/-- A laid out tree is what the graph stands for once its root is the
graph's. -/
theorem Laid.holds_setRoot {g : Graph} {t : Tree Spot} (h : Laid g none t)
    (hnodup : (indices t).Nodup) : Holds (g.setRoot (some (rootId t))) t := by
  have hnode := node_setRoot g h.root_lt
  refine ⟨root_setRoot .., h.reparent hnodup (by simp) ?_ fun i _ hi => ?_, hnodup⟩
  · rw [hnode, if_pos rfl]
  · rw [hnode, if_neg hi]

namespace Holds

variable {g : Graph} {t : Tree Spot}

/-- A graph that holds a tree unfolds to it. -/
theorem tree (h : Holds g t) : g.tree?.map (Tree.map Place.spot) = some t := by
  rw [tree?, h.root, Option.map_some, Option.map_some, unfold,
    h.laid.unfoldFrom (Nat.le_of_lt (h.laid.height_lt h.nodup))]

/-- What the graph unfolds to looks like the tree that it holds. -/
theorem exists_tree (h : Holds g t) : ∃ u, g.tree? = some u ∧ u.map Place.spot = t := by
  simpa using h.tree

end Holds

/-- Each node of the tree has as many children as its kind wants. -/
inductive Saturated : Tree Content → Prop where
  | node {c : Content} {ts : List (Tree Content)} (arity : ts.length = c.kind.arity)
      (below : ∀ t ∈ ts, Saturated t) : Saturated (.node c ts)

theorem Saturated.leaf {c : Content} (h : c.kind.arity = 0) : Saturated (.leaf c) :=
  .node (by simp [h]) (by simp)

/-- A node with one operand has as many as it should. -/
theorem Saturated.one {c : Content} {t : Tree Content} (h : c.kind.arity = 1)
    (ht : Saturated t) : Saturated (.node c [t]) :=
  .node (by simp [h]) (by simpa using ht)

/-- A node with two operands has as many as it should. -/
theorem Saturated.two {c : Content} {t u : Tree Content} (h : c.kind.arity = 2)
    (ht : Saturated t) (hu : Saturated u) : Saturated (.node c [t, u]) :=
  .node (by simp [h]) (by simpa using ⟨ht, hu⟩)

/-- A laid tree is saturated if its nodes have as many children as they
should. -/
theorem Laid.saturated {g : Graph} {parent : Option NodeId} {t : Tree Spot}
    (h : Laid g parent t) (harity : ∀ i ∈ indices t, (g.children i).length = (g.kind i).arity) :
    Saturated (t.map Spot.content) := by
  induction h with
  | @node parent s ts bound stored below ih =>
      have hroot := harity s.id (by simp)
      rw [children, kind, stored] at hroot
      rw [Tree.map_node]
      refine .node (by simpa [Spot.node, Spot.content] using hroot) fun u hu => ?_
      obtain ⟨t, ht, rfl⟩ := List.mem_map.mp hu
      refine ih t ht fun i hi => harity i ?_
      rw [indices_node]
      exact List.mem_cons_of_mem _ (mem_indicesAll.mpr ⟨t, ht, hi⟩)

/-- Nothing is wrong with the places of a saturated tree. -/
theorem Laid.no_defects {g : Graph} {parent : Option NodeId} {t : Tree Spot}
    (h : Laid g parent t) (hfull : Saturated (t.map Spot.content)) {fuel : Nat}
    (hfuel : t.height ≤ fuel) :
    ∀ p ∈ (g.unfoldFrom fuel (rootId t)).preorder, g.defects p = [] := by
  induction h generalizing fuel with
  | @node parent s ts bound stored below ih =>
      rw [Tree.map_node] at hfull
      cases hfull with
      | node arity full =>
          have hown : g.defects ⟨s.id, g.node s.id⟩ = [] := by
            have hparents : ∀ t ∈ ts, g.parent (rootId t) = some s.id := fun t ht =>
              (below t ht).parent_root
            simp only [List.length_map] at arity
            simp only [defects, stored, Spot.node, Place.kind, List.length_map, arity]
            simpa [Spot.content] using hparents
          have hbelow := Tree.height_le_iff.mp hfuel
          intro p hp
          cases fuel with
          | zero =>
              rw [Graph.unfoldFrom, Tree.leaf, Tree.preorder_node] at hp
              obtain rfl : p = ⟨s.id, g.node s.id⟩ := by simpa using hp
              exact hown
          | succ fuel =>
              have hchildren : g.children s.id = ts.map rootId := by
                rw [children, stored]
                rfl
              rw [rootId_node, Graph.unfoldFrom, Tree.preorder_node, hchildren] at hp
              rcases List.mem_cons.mp hp with rfl | hp
              · exact hown
              · obtain ⟨u, hu, hpu⟩ := List.mem_flatMap.mp hp
                rw [List.map_map] at hu
                obtain ⟨t, ht, rfl⟩ := List.mem_map.mp hu
                exact ih t ht (full _ (List.mem_map_of_mem ht))
                  (Nat.lt_succ_iff.mp (hbelow t ht)) p hpu

/-- A graph that holds a tree in which every node has its operands is valid. -/
theorem Holds.validate {g : Graph} {t : Tree Spot} (h : Holds g t)
    (hfull : Saturated (t.map Spot.content)) : g.validate = [] := by
  rw [Graph.validate, places, tree?, h.root]
  exact List.flatMap_eq_nil_iff.mpr
    (h.laid.no_defects hfull (Nat.le_of_lt (h.laid.height_lt h.nodup)))

end FilterQuery.Graph
