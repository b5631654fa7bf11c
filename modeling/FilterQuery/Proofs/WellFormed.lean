import FilterQuery.Proofs.Planting

/-!
# Well-formed graphs

What is reached from the root of a graph is a tree if every node that is reached
is noted as the parent by each of its children, lists none of them twice, and
the root has no parent.  These are statements about links alone: nothing in them
says that the nodes can be put in the shape of a tree.

The main statement is that they can.  A node is reached in one number of steps
only, since one node at most lists it (`IsTree` says this of the child lists
alone); so no way is longer than the graph has nodes, the graph unfolds to a
tree that it lays out, and no index occurs in it twice.
-/

namespace FilterQuery.Graph

/-- A number of steps, each from a node to one of its children, lead from the
root to a node. -/
inductive ReachedIn (g : Graph) : Nat → NodeId → Prop where
  | root {r : NodeId} (h : g.root = some r) : ReachedIn g 0 r
  | child {d : Nat} {i j : NodeId} (h : ReachedIn g d i) (hj : j ∈ g.children i) :
      ReachedIn g (d + 1) j

/-- The node is reached from the root. -/
def Reached (g : Graph) (i : NodeId) : Prop := ∃ d, g.ReachedIn d i

/-- The reached part of the graph is a tree in which each node has as many
children as its kind wants. -/
structure IsWellFormed (g : Graph) : Prop where
  /-- The root has no parent. -/
  root : ∀ r, g.root = some r → g.parent r = none
  /-- Each child notes its owner. -/
  owner : ∀ i, g.Reached i → ∀ j ∈ g.children i, g.parent j = some i
  /-- No child is listed twice. -/
  once : ∀ i, g.Reached i → (g.children i).Nodup
  arity : ∀ i, g.Reached i → (g.children i).length = (g.kind i).arity

/-- The nodes that are reached form a tree, whatever they note: each one stands
in a single child list, and there once, and the root in none. -/
structure IsTree (g : Graph) : Prop where
  root : ∀ r, g.root = some r → ∀ i, g.Reached i → r ∉ g.children i
  owner : ∀ i j k, g.Reached i → g.Reached j → k ∈ g.children i → k ∈ g.children j → i = j
  once : ∀ i, g.Reached i → (g.children i).Nodup

/-- A well-formed graph is a tree. -/
theorem IsWellFormed.isTree {g : Graph} (hg : g.IsWellFormed) : g.IsTree where
  root r hr i hi hmem := by cases (hg.root r hr).symm.trans (hg.owner i hi r hmem)
  owner i j k hi hj hki hkj :=
    Option.some.inj ((hg.owner i hi k hki).symm.trans (hg.owner j hj k hkj))
  once := hg.once

/-- What the nodes reached from the root say, as a tree. -/
def said? (g : Graph) : Option (Tree Content) := g.tree?.map (Tree.map Place.content)

section Steps

variable {g : Graph} {d e : Nat} {i j : NodeId}

theorem ReachedIn.reached (h : g.ReachedIn d i) : g.Reached i := ⟨d, h⟩

/-- A graph without a root reaches nothing. -/
theorem not_reached_of_root_eq_none (h : g.root = none) (i : NodeId) : ¬ g.Reached i := by
  rintro ⟨d, hd⟩
  induction hd with
  | root hr => simp [h] at hr
  | child _ _ ih => exact ih

/-- **A node is reached in one number of steps only.** -/
theorem IsTree.steps_unique (hg : g.IsTree) (h : g.ReachedIn d i) (h' : g.ReachedIn e i) :
    d = e := by
  induction h generalizing e with
  | @root r hr =>
      cases h' with
      | root _ => rfl
      | child hi hj => exact absurd hj (hg.root r hr _ hi.reached)
  | @child d i j hi hj ih =>
      cases h' with
      | root hr => exact absurd hj (hg.root j hr i hi.reached)
      | @child e i' _ hi' hj' =>
          obtain rfl := hg.owner i i' j hi.reached hi'.reached hj hj'
          exact congrArg (· + 1) (ih hi')

/-- All nodes on the way to a node of the graph are nodes of the graph. -/
theorem ReachedIn.exists_on_way (h : g.ReachedIn d i) (hi : i < g.nodes.size) {k : Nat}
    (hk : k ≤ d) : ∃ j < g.nodes.size, g.ReachedIn k j := by
  induction h with
  | root hr =>
      obtain rfl := Nat.le_zero.mp hk
      exact ⟨_, hi, ReachedIn.root hr⟩
  | @child d i j h hj ih =>
      by_cases hlast : k = d + 1
      · exact ⟨j, hi, hlast ▸ .child h hj⟩
      · exact ih (lt_of_mem_children g hj) (by omega)

/-- The nodes on the way to a node are different nodes of the graph. -/
theorem IsTree.steps_lt (hg : g.IsTree) (h : g.ReachedIn d i) (hi : i < g.nodes.size) :
    d < g.nodes.size := by
  have hway : ∀ k : Fin (d + 1), ∃ j : Fin g.nodes.size, g.ReachedIn k j := by
    intro k
    obtain ⟨j, hj, hk⟩ := h.exists_on_way hi (Nat.lt_succ_iff.mp k.isLt)
    exact ⟨⟨j, hj⟩, hk⟩
  choose way hway using hway
  have hinjective : Function.Injective way := by
    intro k k' heq
    have hk : g.ReachedIn k (way k') := heq ▸ hway k
    exact Fin.ext (hg.steps_unique hk (hway k'))
  simpa using Fintype.card_le_of_injective way hinjective

/-- A node that is reached is one of the graph's: the kind of a node that is not
there wants a child. -/
theorem IsWellFormed.reached_lt (hg : g.IsWellFormed) (h : g.Reached i) : i < g.nodes.size := by
  by_contra hi
  have harity := hg.arity i h
  rw [children, kind, node_of_not_lt g hi] at harity
  cases harity

/-- A node is reached in fewer steps than there are nodes, for no node is passed
twice. -/
theorem IsWellFormed.steps_lt (hg : g.IsWellFormed) (h : g.ReachedIn d i) : d < g.nodes.size :=
  hg.isTree.steps_lt h (hg.reached_lt h.reached)

/-- The node a number of steps up the parent links. -/
def ascend (g : Graph) : Nat → NodeId → Option NodeId
  | 0, i => some i
  | k + 1, i => (g.ascend k i).bind g.parent

end Steps

section Unfolding

variable {g : Graph} {d : Nat} {i : NodeId}

/-- The spots of the tree that a graph unfolds to. -/
def spotsFrom (g : Graph) (fuel : Nat) (i : NodeId) : Tree Spot :=
  (g.unfoldFrom fuel i).map Place.spot

@[simp] theorem rootId_spotsFrom (fuel : Nat) (i : NodeId) : rootId (g.spotsFrom fuel i) = i := by
  cases fuel with
  | zero => rfl
  | succ fuel => rfl

/-- One more step leads to the spots below the children. -/
theorem spotsFrom_succ (fuel : Nat) (i : NodeId) :
    g.spotsFrom (fuel + 1) i =
      .node (Place.spot ⟨i, g.node i⟩) ((g.children i).map (g.spotsFrom fuel)) := by
  rw [spotsFrom, unfoldFrom, Tree.map_node, List.map_map]
  rfl

/-- What stands in the tree below a node is reached through it. -/
theorem IsWellFormed.ascend_of_mem (hg : g.IsWellFormed) (h : g.ReachedIn d i) {fuel : Nat}
    {x : NodeId} (hx : x ∈ indices (g.spotsFrom fuel i)) :
    ∃ k, g.ReachedIn (d + k) x ∧ g.ascend k x = some i := by
  induction fuel generalizing d i with
  | zero =>
      obtain rfl : x = i := by simpa [spotsFrom, unfoldFrom, Tree.leaf, Place.spot] using hx
      exact ⟨0, h, rfl⟩
  | succ fuel ih =>
      rw [spotsFrom_succ, indices_node] at hx
      rcases List.mem_cons.mp hx with rfl | hx
      · exact ⟨0, h, rfl⟩
      · obtain ⟨u, hu, hxu⟩ := mem_indicesAll.mp hx
        obtain ⟨j, hj, rfl⟩ := List.mem_map.mp hu
        obtain ⟨k, hk, hup⟩ := ih (h.child hj) hxu
        refine ⟨k + 1, ?_, ?_⟩
        · have hsteps : d + (k + 1) = d + 1 + k := by omega
          rw [hsteps]
          exact hk
        · rw [ascend, hup]
          exact hg.owner i h.reached j hj

/-- A well-formed graph lays out the tree that it unfolds to. -/
theorem IsWellFormed.laid (hg : g.IsWellFormed) (h : g.ReachedIn d i) {fuel : Nat}
    (hfuel : g.nodes.size ≤ d + fuel + 1) : Laid g (g.parent i) (g.spotsFrom fuel i) := by
  induction fuel generalizing d i with
  | zero =>
      have hnone : g.children i = [] := by
        refine List.eq_nil_iff_forall_not_mem.mpr fun j hj => ?_
        have hlt := hg.steps_lt (h.child hj)
        omega
      refine .node (hg.reached_lt h.reached) ?_ fun u hu => absurd hu List.not_mem_nil
      change g.node i = { g.node i with children := [] }
      rw [← hnone]
      rfl
  | succ fuel ih =>
      rw [spotsFrom_succ]
      refine .node (hg.reached_lt h.reached) ?_ fun u hu => ?_
      · have hroots : ((g.children i).map (g.spotsFrom fuel)).map rootId = g.children i := by
          rw [List.map_map]
          exact (List.map_congr_left fun j _ => rootId_spotsFrom fuel j).trans (List.map_id _)
        rw [hroots]
        rfl
      · obtain ⟨j, hj, rfl⟩ := List.mem_map.mp hu
        have hlaid := ih (h.child hj) (by omega)
        rwa [hg.owner i h.reached j hj] at hlaid

/-- No index occurs twice: a node below two children of one node would have both
above it, equally far up. -/
theorem IsWellFormed.nodup (hg : g.IsWellFormed) (h : g.ReachedIn d i) (fuel : Nat) :
    (indices (g.spotsFrom fuel i)).Nodup := by
  induction fuel generalizing d i with
  | zero => simp [spotsFrom, unfoldFrom, Tree.leaf]
  | succ fuel ih =>
      rw [spotsFrom_succ, indices_node, List.nodup_cons, indicesAll, List.flatMap_map]
      refine ⟨fun hmem => ?_, List.nodup_flatMap.mpr ⟨fun j hj => ih (h.child hj), ?_⟩⟩
      · obtain ⟨j, hj, hij⟩ := List.mem_flatMap.mp hmem
        obtain ⟨k, hk, -⟩ := hg.ascend_of_mem (h.child hj) hij
        have hsteps := hg.isTree.steps_unique h hk
        omega
      · refine (hg.once i h.reached).imp_of_mem fun {a b} ha hb hne x hxa hxb => hne ?_
        obtain ⟨k, hk, hup⟩ := hg.ascend_of_mem (h.child ha) hxa
        obtain ⟨k', hk', hup'⟩ := hg.ascend_of_mem (h.child hb) hxb
        have hsteps := hg.isTree.steps_unique hk hk'
        obtain rfl : k = k' := by omega
        exact Option.some.inj (hup.symm.trans hup')

end Unfolding

/-- **A well-formed graph holds a tree**, unless it is empty. -/
theorem IsWellFormed.holds {g : Graph} (hg : g.IsWellFormed) {r : NodeId} (hr : g.root = some r) :
    ∃ s, Holds g s ∧ Saturated (s.map Spot.content) := by
  have hreached : g.ReachedIn 0 r := ReachedIn.root hr
  have hlaid : Laid g (g.parent r) (g.spotsFrom g.nodes.size r) := hg.laid hreached (by omega)
  rw [hg.root r hr] at hlaid
  have hroot : g.root = some (rootId (g.spotsFrom g.nodes.size r)) := by
    rw [rootId_spotsFrom]
    exact hr
  refine ⟨_, ⟨hroot, hlaid, hg.nodup hreached _⟩, hlaid.saturated fun i hi => ?_⟩
  obtain ⟨k, hk, -⟩ := hg.ascend_of_mem hreached hi
  exact hg.arity i hk.reached

section Holding

variable {g : Graph} {s : Tree Spot}

/-- A node that is reached is the root of a part of the tree. -/
theorem Holds.part_of_reachedIn (h : Holds g s) (hfull : Saturated (s.map Spot.content)) {d : Nat}
    {i : NodeId} (hi : g.ReachedIn d i) :
    ∃ parent u, rootId u = i ∧ Laid g parent u ∧ (indices u).Nodup ∧
      Saturated (u.map Spot.content) := by
  induction hi with
  | root hr => exact ⟨none, s, Option.some.inj (h.root.symm.trans hr), h.laid, h.nodup, hfull⟩
  | @child d i j _ hj ih =>
      obtain ⟨parent, u, rfl, hlaid, hnodup, hu⟩ := ih
      rw [hlaid.children_root] at hj
      obtain ⟨v, hv, rfl⟩ := List.mem_map.mp hj
      obtain ⟨spot, us⟩ := u
      rw [indices_node, List.nodup_cons] at hnodup
      rw [Tree.map_node] at hu
      cases hu with
      | node _ below =>
          exact ⟨_, v, rfl, hlaid.child hv, (List.nodup_flatMap.mp hnodup.2).1 v hv,
            below _ (List.mem_map_of_mem hv)⟩

/-- The roots of trees without a common index are different. -/
theorem nodup_rootIds {ts : List (Tree Spot)} (h : (indicesAll ts).Nodup) :
    (ts.map rootId).Nodup := by
  induction ts with
  | nil => simp
  | cons t ts ih =>
      rw [indicesAll_cons, List.nodup_append'] at h
      obtain ⟨-, hts, hdisjoint⟩ := h
      refine List.nodup_cons.mpr ⟨fun hmem => ?_, ih hts⟩
      obtain ⟨u, hu, heq⟩ := List.mem_map.mp hmem
      have hroot : rootId t ∈ indicesAll ts :=
        mem_indicesAll.mpr ⟨u, hu, heq ▸ rootId_mem_indices u⟩
      exact hdisjoint (rootId_mem_indices t) hroot

/-- **A graph that holds a tree is well-formed.** -/
theorem Holds.isWellFormed (h : Holds g s) (hfull : Saturated (s.map Spot.content)) :
    g.IsWellFormed where
  root r hr := by
    obtain rfl := Option.some.inj (h.root.symm.trans hr)
    exact h.laid.parent_root
  owner i hi j hj := by
    obtain ⟨d, hd⟩ := hi
    obtain ⟨parent, u, rfl, hlaid, -, -⟩ := h.part_of_reachedIn hfull hd
    rw [hlaid.children_root] at hj
    obtain ⟨v, hv, rfl⟩ := List.mem_map.mp hj
    exact (hlaid.child hv).parent_root
  once i hi := by
    obtain ⟨d, hd⟩ := hi
    obtain ⟨parent, u, rfl, hlaid, hnodup, -⟩ := h.part_of_reachedIn hfull hd
    obtain ⟨spot, us⟩ := u
    rw [indices_node, List.nodup_cons] at hnodup
    rw [hlaid.children_root]
    exact nodup_rootIds hnodup.2
  arity i hi := by
    obtain ⟨d, hd⟩ := hi
    obtain ⟨parent, u, rfl, hlaid, -, hu⟩ := h.part_of_reachedIn hfull hd
    obtain ⟨spot, us⟩ := u
    rw [Tree.map_node] at hu
    cases hu with
    | node harity _ =>
        rw [hlaid.children_root, hlaid.kind_root, List.length_map]
        simpa [Spot.content] using harity

/-- A graph without a root is well-formed. -/
theorem isWellFormed_of_root_eq_none (h : g.root = none) : g.IsWellFormed := by
  have hnone := not_reached_of_root_eq_none h
  exact ⟨fun r hr => by simp [h] at hr, fun i hi => absurd hi (hnone i),
    fun i hi => absurd hi (hnone i), fun i hi => absurd hi (hnone i)⟩

/-- A graph that holds a tree says its contents. -/
theorem Holds.said? (h : Holds g s) : g.said? = some (s.map Spot.content) := by
  obtain ⟨u, hu, rfl⟩ := h.exists_tree
  rw [Graph.said?, hu, Tree.map_map]
  rfl

/-- The graph of a saturated tree is well-formed. -/
theorem ofTree_isWellFormed {t : Tree Content} (h : Saturated t) : (ofTree t).IsWellFormed := by
  obtain ⟨u, hcopy, hholds, -⟩ := ofTree_holds t
  exact hholds.isWellFormed (hcopy.content ▸ h)

/-- The graph of a tree says the tree. -/
theorem ofTree_said? (t : Tree Content) : (ofTree t).said? = some t := by
  obtain ⟨u, hcopy, hholds, -⟩ := ofTree_holds t
  rw [hholds.said?, hcopy.content]

end Holding

/-- **Nothing is wrong with a well-formed graph.** -/
theorem IsWellFormed.validate {g : Graph} (hg : g.IsWellFormed) : g.validate = [] := by
  cases hroot : g.root with
  | none => rw [Graph.validate, places, tree?, hroot]; rfl
  | some r =>
      obtain ⟨s, hs, hfull⟩ := hg.holds hroot
      exact hs.validate hfull

end FilterQuery.Graph
