import FilterQuery.Graph.Optimization
import FilterQuery.Proofs.Trees

/-!
# Passes over trees

What optimization does to the tree of a graph.  Each pass rewrites a node and
goes on with the nodes below it as they are then: negations are pushed below
conjunctions and disjunctions, negated operands move to the right, and double
negations vanish.

A pass over a graph is given how far down it may go, since links need not end.
Trees do: no rewriting makes a tree higher, so each pass also goes all the way
down, and a pass that may go further than the tree is high does the same.
-/

namespace FilterQuery.Graph

/-- A negated conjunction or disjunction becomes its dual over the negated
operands. -/
def negated : Tree Content → Tree Content
  | .node ⟨.not, token⟩ [.node inner [a, b]] =>
    match dual? inner.kind with
    | some dual =>
      .node ⟨dual, inner.token⟩ [.node ⟨.not, token⟩ [a], .node ⟨.not, token⟩ [b]]
    | none => .node ⟨.not, token⟩ [.node inner [a, b]]
  | t => t

/-- Pushes negations below conjunctions and disjunctions. -/
def pushNots : (fuel : Nat) → Tree Content → Tree Content
  | 0, t => t
  | fuel + 1, t => .node (negated t).label ((negated t).children.map (pushNots fuel))

/-- A conjunction or disjunction of which the left operand alone is negated has
its operands exchanged. -/
def swapped : Tree Content → Tree Content
  | .node c [a, b] =>
    if c.kind.isBinaryCombinator && (a.label.kind = .not && b.label.kind ≠ .not) then .node c [b, a]
    else .node c [a, b]
  | t => t

/-- Moves negated operands to the right. -/
def swapNots : (fuel : Nat) → Tree Content → Tree Content
  | 0, t => t
  | fuel + 1, t => .node (swapped t).label ((swapped t).children.map (swapNots fuel))

/-- The tree below two negations. -/
def doublyNegated : Tree Content → Option (Tree Content)
  | .node ⟨.not, _⟩ [.node ⟨.not, _⟩ [operand]] => some operand
  | _ => none

/-- Puts what is below a double negation in its place. -/
def collapseNots : (fuel : Nat) → Tree Content → Tree Content
  | 0, t => t
  | fuel + 1, t =>
    match doublyNegated t with
    | some operand => collapseNots fuel operand
    | none => .node t.label (t.children.map (collapseNots fuel))

section Kinds

variable {kind dual : NodeKind}

theorem arity_of_isBinaryCombinator (h : kind.isBinaryCombinator = true) : kind.arity = 2 := by
  cases kind <;> first | rfl | cases h

/-- A combinator of two is a combinator. -/
theorem isCombinator_of_isBinaryCombinator (h : kind.isBinaryCombinator = true) :
    kind.isCombinator = true := by
  cases kind <;> first | rfl | cases h

/-- A combinator of two is no set. -/
theorem isEnumerable_of_isBinaryCombinator (h : kind.isBinaryCombinator = true) :
    kind.isEnumerable = false := by
  cases kind <;> first | rfl | cases h

/-- Only combinators of two have a dual, and this is one as well. -/
theorem isBinaryCombinator_of_dual (h : dual? kind = some dual) :
    kind.isBinaryCombinator = true ∧ dual.isBinaryCombinator = true := by
  unfold dual? at h
  split at h
  · obtain rfl := Option.some.inj h
    exact ⟨rfl, rfl⟩
  · obtain rfl := Option.some.inj h
    exact ⟨rfl, rfl⟩
  · cases h

end Kinds

/-- Pushing a negation makes no tree higher. -/
theorem height_negated_le (t : Tree Content) : (negated t).height ≤ t.height := by
  unfold negated
  split
  · split
    · simp only [Tree.height, Tree.heightBelow]
      omega
    · exact Nat.le_refl _
  · exact Nat.le_refl _

/-- Exchanging operands makes no tree higher. -/
theorem height_swapped_le (t : Tree Content) : (swapped t).height ≤ t.height := by
  unfold swapped
  split
  · split
    · simp only [Tree.height, Tree.heightBelow]
      omega
    · exact Nat.le_refl _
  · exact Nat.le_refl _

/-- Below two negations a tree is lower. -/
theorem height_doublyNegated_lt {t operand : Tree Content} (h : doublyNegated t = some operand) :
    operand.height < t.height := by
  unfold doublyNegated at h
  split at h
  · obtain rfl := Option.some.inj h
    simp only [Tree.height, Tree.heightBelow]
    omega
  · cases h

/-- Rewrites the root of a tree, and then in the same way each tree that is
below it by then. -/
def rewriteDown (step : Tree Content → Tree Content) (lowers : ∀ t, (step t).height ≤ t.height)
    (t : Tree Content) : Tree Content :=
  .node (step t).label ((step t).children.attach.map fun u => rewriteDown step lowers u.1)
termination_by t.height
decreasing_by
  have hchild := Tree.height_lt_of_child u.2
  have hstep := lowers t
  omega

/-- Pushes every negation below the conjunctions and disjunctions under it. -/
def pushedNots : Tree Content → Tree Content := rewriteDown negated height_negated_le

/-- Moves every negated operand to the right. -/
def swappedNots : Tree Content → Tree Content := rewriteDown swapped height_swapped_le

/-- Puts what is below a double negation in its place, everywhere and as often
as there is one. -/
def collapsedNots (t : Tree Content) : Tree Content :=
  match _h : doublyNegated t with
  | some operand => collapsedNots operand
  | none => .node t.label (t.children.attach.map fun u => collapsedNots u.1)
termination_by t.height
decreasing_by
  · exact height_doublyNegated_lt _h
  · exact Tree.height_lt_of_child u.2

/-- The tree behind the passes that come before double negations collapse. -/
def moved (options : OptimizationOptions) (t : Tree Content) : Tree Content :=
  let pushed := if options.propagateNot then pushedNots t else t
  if options.swapNotToRight then swappedNots pushed else pushed

/-- The tree behind the passes that run. -/
def optimized (options : OptimizationOptions) (t : Tree Content) : Tree Content :=
  collapsedNots (moved options t)

section Equations

variable {step : Tree Content → Tree Content} {lowers : ∀ t, (step t).height ≤ t.height}
  {t : Tree Content}

/-- The root is rewritten, and then all trees below it. -/
theorem rewriteDown_eq (t : Tree Content) :
    rewriteDown step lowers t =
      .node (step t).label ((step t).children.map (rewriteDown step lowers)) := by
  rw [rewriteDown]
  congr 1
  exact List.attach_map_val (f := rewriteDown step lowers)

/-- A negation is pushed at the root, and then in all trees below it. -/
theorem pushedNots_eq (t : Tree Content) :
    pushedNots t = .node (negated t).label ((negated t).children.map pushedNots) :=
  rewriteDown_eq t

/-- Operands are exchanged at the root, and then in all trees below it. -/
theorem swappedNots_eq (t : Tree Content) :
    swappedNots t = .node (swapped t).label ((swapped t).children.map swappedNots) :=
  rewriteDown_eq t

/-- A double negation vanishes at once, and otherwise in all trees below. -/
theorem collapsedNots_eq (t : Tree Content) :
    collapsedNots t =
      (doublyNegated t).elim (.node t.label (t.children.map collapsedNots)) collapsedNots := by
  rw [collapsedNots]
  split
  · next h => rw [h, Option.elim_some]
  · next h =>
      rw [h, Option.elim_none]
      congr 1
      exact List.attach_map_val (f := collapsedNots)

/-- A pass that may go further down than the tree is high goes all the way
down. -/
theorem eq_rewriteDown {pass : (fuel : Nat) → Tree Content → Tree Content}
    (hpass : ∀ fuel t, pass (fuel + 1) t = .node (step t).label ((step t).children.map (pass fuel)))
    {fuel : Nat} (h : t.height < fuel) : pass fuel t = rewriteDown step lowers t := by
  induction fuel generalizing t with
  | zero => omega
  | succ fuel ih =>
      rw [hpass, rewriteDown_eq]
      congr 1
      refine List.map_congr_left fun u hu => ih ?_
      have hchild := Tree.height_lt_of_child hu
      have hstep := lowers t
      omega

theorem pushNots_eq {fuel : Nat} (h : t.height < fuel) : pushNots fuel t = pushedNots t :=
  eq_rewriteDown (fun _ _ => rfl) h

theorem swapNots_eq {fuel : Nat} (h : t.height < fuel) : swapNots fuel t = swappedNots t :=
  eq_rewriteDown (fun _ _ => rfl) h

/-- Collapsing far enough down collapses all the way. -/
theorem collapseNots_eq {fuel : Nat} (h : t.height < fuel) :
    collapseNots fuel t = collapsedNots t := by
  induction fuel generalizing t with
  | zero => omega
  | succ fuel ih =>
      rw [collapseNots, collapsedNots_eq]
      cases hinner : doublyNegated t with
      | some operand =>
          have hlower := height_doublyNegated_lt hinner
          exact ih (by omega)
      | none =>
          dsimp only
          congr 1
          refine List.map_congr_left fun u hu => ih ?_
          have hchild := Tree.height_lt_of_child hu
          omega

end Equations

/-- A relation between trees that allows each rewriting, below a node as well as
at it, and one after the other. -/
structure AllowsRewriting (R : Tree Content → Tree Content → Prop) : Prop where
  refl : ∀ t, R t t
  trans : ∀ {t u v}, R t u → R u v → R t v
  node : ∀ {c ts us}, List.Forall₂ R ts us → R (.node c ts) (.node c us)
  deMorgan : ∀ {kind dual}, dual? kind = some dual → ∀ token token' a b,
    R (.node ⟨.not, token⟩ [.node ⟨kind, token'⟩ [a, b]])
      (.node ⟨dual, token'⟩ [.node ⟨.not, token⟩ [a], .node ⟨.not, token⟩ [b]])
  comm : ∀ {kind : NodeKind}, kind.isBinaryCombinator = true → ∀ token a b,
    R (.node ⟨kind, token⟩ [a, b]) (.node ⟨kind, token⟩ [b, a])
  notNot : ∀ token token' t, R (.node ⟨.not, token⟩ [.node ⟨.not, token'⟩ [t]]) t

namespace AllowsRewriting

variable {R : Tree Content → Tree Content → Prop}

/-- A negation may be pushed. -/
theorem negated (hR : AllowsRewriting R) (t : Tree Content) : R t (negated t) := by
  unfold Graph.negated
  split
  · split
    · next hdual => exact hR.deMorgan hdual _ _ _ _
    · exact hR.refl _
  · exact hR.refl _

/-- Operands may be exchanged. -/
theorem swapped (hR : AllowsRewriting R) (t : Tree Content) : R t (swapped t) := by
  unfold Graph.swapped
  split
  · split
    · next hcond =>
        rw [Bool.and_eq_true] at hcond
        exact hR.comm hcond.1 _ _ _
    · exact hR.refl _
  · exact hR.refl _

/-- A double negation may be dropped. -/
theorem doublyNegated (hR : AllowsRewriting R) {t operand : Tree Content}
    (h : doublyNegated t = some operand) : R t operand := by
  unfold Graph.doublyNegated at h
  split at h
  · obtain rfl := Option.some.inj h
    exact hR.notNot _ _ _
  · cases h

/-- If each tree below a node may be rewritten, then so may the node. -/
theorem map_children (hR : AllowsRewriting R) {f : Tree Content → Tree Content} (t : Tree Content)
    (h : ∀ u ∈ t.children, R u (f u)) : R t (.node t.label (t.children.map f)) := by
  cases t with
  | node c ts =>
      have hall : List.Forall₂ R ts (ts.map f) := by
        rw [List.forall₂_map_right_iff, List.forall₂_same]
        exact h
      exact hR.node hall

/-- What may be done at each root may be done all the way down. -/
theorem rewriteDown (hR : AllowsRewriting R) {step : Tree Content → Tree Content}
    {lowers : ∀ t, (step t).height ≤ t.height} (hstep : ∀ t, R t (step t)) (t : Tree Content) :
    R t (rewriteDown step lowers t) := by
  rw [rewriteDown_eq]
  refine hR.trans (hstep t) (hR.map_children (step t) fun u hu => ?_)
  have hchild := Tree.height_lt_of_child hu
  have hlower := lowers t
  exact hR.rewriteDown hstep u
termination_by t.height

/-- Double negations may be dropped everywhere. -/
theorem collapsedNots (hR : AllowsRewriting R) (t : Tree Content) : R t (collapsedNots t) := by
  rw [collapsedNots_eq]
  cases h : Graph.doublyNegated t with
  | some operand =>
      have hlower := height_doublyNegated_lt h
      exact hR.trans (hR.doublyNegated h) (hR.collapsedNots operand)
  | none =>
      refine hR.map_children t fun u hu => ?_
      have hchild := Tree.height_lt_of_child hu
      exact hR.collapsedNots u
termination_by t.height

/-- The passes that come before may all be made. -/
theorem moved (hR : AllowsRewriting R) (options : OptimizationOptions) (t : Tree Content) :
    R t (moved options t) := by
  have hpushed : R t (if options.propagateNot then pushedNots t else t) := by
    split
    · exact hR.rewriteDown hR.negated t
    · exact hR.refl t
  rw [Graph.moved]
  split
  · exact hR.trans hpushed (hR.rewriteDown hR.swapped _)
  · exact hpushed

/-- **A relation that allows each rewriting allows optimization.** -/
theorem optimized (hR : AllowsRewriting R) (options : OptimizationOptions) (t : Tree Content) :
    R t (optimized options t) :=
  hR.trans (hR.moved options t) (hR.collapsedNots _)

end AllowsRewriting

end FilterQuery.Graph
