import FilterQuery.Proofs.Layout

/-!
# Consistent links

The child lists of a graph are its edges, and the parent links go against them.
Links are consistent if a listed node notes the node that lists it, no node is
listed twice, no node is below itself and the root has no parent.  Nothing is
said about a node that no other one lists: its parent link may be stale, and it
may be the root of a tree of its own.
-/

namespace FilterQuery.Graph

/-- The node lists the other one as a child. -/
def Lists (g : Graph) (i j : NodeId) : Prop := j ∈ g.children i

/-- Some steps, or none, each from a node to one of its children, lead from the
node to the other one. -/
abbrev Reaches (g : Graph) : NodeId → NodeId → Prop := Relation.ReflTransGen g.Lists

/-- The node is an ancestor of the other one. -/
abbrev IsAbove (g : Graph) : NodeId → NodeId → Prop := Relation.TransGen g.Lists

structure IsLinked (g : Graph) : Prop where
  /-- Each child notes its owner. -/
  owner : ∀ i, ∀ j ∈ g.children i, g.parent j = some i
  /-- No child is listed twice. -/
  once : ∀ i, (g.children i).Nodup
  /-- No node is an ancestor of itself. -/
  acyclic : ∀ i, ¬ g.IsAbove i i
  /-- The root has no parent. -/
  root : ∀ r, g.root = some r → g.parent r = none

/-- The node is the root, or in the child list of the parent that it notes. -/
def HasPlace (g : Graph) (i : NodeId) : Prop :=
  g.root = some i ∨ ∃ p, g.parent i = some p ∧ i ∈ g.children p

/-- A node that reaches another one is above it. -/
theorem isAbove_of_reaches {g : Graph} {i j : NodeId} (h : g.Reaches i j) (hne : i ≠ j) :
    g.IsAbove i j :=
  (Relation.reflTransGen_iff_eq_or_transGen.mp h).resolve_left hne.symm

/-- A node without children is no ancestor. -/
theorem not_isAbove_of_children_eq_nil {g : Graph} {i j : NodeId} (h : g.children i = []) :
    ¬ g.IsAbove i j := by
  intro habove
  obtain ⟨k, hk, -⟩ := Relation.TransGen.head'_iff.mp habove
  rw [Lists, h] at hk
  cases hk

/-- A graph in which children come before their owners has consistent links if
those of the stored nodes are. -/
theorem IsLinked.of_stored {g : Graph}
    (howner : ∀ i : Fin g.nodes.size, ∀ j ∈ g.children i, g.parent j = some (i : NodeId) ∧ j < i)
    (honce : ∀ i : Fin g.nodes.size, (g.children i).Nodup)
    (hroot : ∀ r, g.root = some r → g.parent r = none) : g.IsLinked := by
  have hlists : ∀ i j, g.Lists i j → g.parent j = some i ∧ j < i := fun i j hj =>
    howner ⟨i, lt_of_mem_children g hj⟩ j hj
  have habove : ∀ i j, g.IsAbove i j → j < i := by
    intro i j h
    induction h with
    | single h => exact (hlists _ _ h).2
    | tail _ h ih => exact Nat.lt_trans (hlists _ _ h).2 ih
  refine ⟨fun i j hj => (hlists i j hj).1, fun i => ?_, fun i h => Nat.lt_irrefl _ (habove i i h),
    hroot⟩
  by_cases hi : i < g.nodes.size
  · exact honce ⟨i, hi⟩
  · have hnone : g.children i = [] :=
      List.eq_nil_iff_forall_not_mem.mpr fun j hj => hi (lt_of_mem_children g hj)
    rw [hnone]
    exact List.nodup_nil

namespace IsLinked

variable {g : Graph} {i j p q : NodeId}

/-- A node has one owner. -/
theorem owner_unique (hg : g.IsLinked) (hp : j ∈ g.children p) (hq : j ∈ g.children q) : p = q :=
  Option.some.inj ((hg.owner p j hp).symm.trans (hg.owner q j hq))

/-- A node is no child of its own. -/
theorem ne_of_mem (hg : g.IsLinked) (h : j ∈ g.children i) : i ≠ j := by
  rintro rfl
  exact hg.acyclic i (.single h)

/-- What a child reaches does not reach back to its owner. -/
theorem not_mem_of_reaches (hg : g.IsLinked) (h : g.Reaches j i) : j ∉ g.children i :=
  fun hj => hg.acyclic j (.tail' h hj)

end IsLinked

/-- **New steps that all lead to one node** make no node an ancestor of itself,
if they start where there are steps to a node that this one does not reach. -/
theorem acyclic_of_steps {g g' : Graph} {old new : NodeId} (hacyclic : ∀ i, ¬ g.IsAbove i i)
    (habove : ¬ g.IsAbove new old)
    (hsteps : ∀ i j, g'.Lists i j → g.Lists i j ∨ g.Lists i old ∧ j = new) (i : NodeId) :
    ¬ g'.IsAbove i i := by
  have hway : ∀ j, g'.IsAbove i j → g.IsAbove i j ∨ g.IsAbove i old ∧ g.Reaches new j := by
    intro j h
    induction h with
    | single h =>
        rcases hsteps _ _ h with h | ⟨h, rfl⟩
        · exact .inl (.single h)
        · exact .inr ⟨.single h, .refl⟩
    | tail _ h ih =>
        rcases hsteps _ _ h with h | ⟨h, rfl⟩
        · exact ih.imp (·.tail h) fun ⟨hold, hnew⟩ => ⟨hold, hnew.tail h⟩
        · rcases ih with ih | ⟨hold, -⟩
          · exact .inr ⟨ih.tail h, .refl⟩
          · exact .inr ⟨hold, .refl⟩
  intro h
  rcases hway i h with h | ⟨hold, hnew⟩
  · exact hacyclic i h
  · exact habove (.trans_right hnew hold)

end FilterQuery.Graph
