import FilterQuery.Proofs.Optimizing
import FilterQuery.Proofs.WellFormed

/-!
# Optimized graphs

Optimization detaches nodes, adds new ones and moves children between lists
while it goes down a graph.  Seen from the root it rewrites a tree: a
well-formed graph is optimized without a failure to a well-formed graph, whose
tree the passes over trees give.  No rewriting adds or loses a node other than a
negation, and so nothing that a query says is lost.
-/

namespace FilterQuery.Graph

/-- The nodes of a tree without its negations, conjunctions and disjunctions. -/
def statements (t : Tree Content) : List Content :=
  t.preorder.filter fun c => !c.kind.isCombinator

/-- The statements of a node are its own, if it is no combinator, and those
below it. -/
theorem statements_node (c : Content) (ts : List (Tree Content)) :
    statements (.node c ts) =
      (if c.kind.isCombinator then [] else [c]) ++ ts.flatMap statements := by
  rw [statements, Tree.preorder_node, List.filter_cons, List.filter_flatMap]
  cases c.kind.isCombinator with
  | true => rfl
  | false => rfl

/-- A combinator says nothing of its own. -/
theorem statements_combinator {c : Content} (h : c.kind.isCombinator = true)
    (ts : List (Tree Content)) : statements (.node c ts) = ts.flatMap statements := by
  rw [statements_node, if_pos h, List.nil_append]

/-- Rewritings keep the statements of a tree, though not their order. -/
theorem statements_allowsRewriting :
    AllowsRewriting fun t u => (statements t).Perm (statements u) where
  refl _ := .refl _
  trans := .trans
  node h := by
    rw [statements_node, statements_node]
    refine List.Perm.append_left _ ?_
    induction h with
    | nil => exact .refl _
    | cons hfirst _ ih =>
        rw [List.flatMap_cons, List.flatMap_cons]
        exact hfirst.append ih
  deMorgan hdual token token' a b := by
    obtain ⟨hkind, hkind'⟩ := isBinaryCombinator_of_dual hdual
    have hnot : ∀ t, statements (.node ⟨.not, token⟩ [t]) = statements t := fun t => by
      rw [statements_combinator rfl, List.flatMap_singleton]
    rw [hnot, statements_combinator (isCombinator_of_isBinaryCombinator hkind),
      statements_combinator (isCombinator_of_isBinaryCombinator hkind')]
    simp [hnot]
  comm hbinary token a b := by
    have hkind := isCombinator_of_isBinaryCombinator hbinary
    rw [statements_combinator hkind, statements_combinator hkind]
    simpa using List.perm_append_comm
  notNot token token' t := by
    rw [statements_combinator rfl, List.flatMap_singleton, statements_combinator rfl,
      List.flatMap_singleton]

/-- Rewritings keep as many operands at each node as its kind wants. -/
theorem saturated_allowsRewriting : AllowsRewriting fun t u => Saturated t → Saturated u where
  refl _ h := h
  trans h h' := h' ∘ h
  node {c ts us} h := by
    rintro ⟨harity, hbelow⟩
    refine .node (h.length_eq ▸ harity) ?_
    clear harity
    induction h with
    | nil => simp
    | cons hfirst _ ih =>
        rw [List.forall_mem_cons] at hbelow ⊢
        exact ⟨hfirst hbelow.1, ih hbelow.2⟩
  deMorgan hdual token token' a b := by
    obtain ⟨-, hkind'⟩ := isBinaryCombinator_of_dual hdual
    rintro ⟨-, hinner⟩
    obtain ⟨-, hoperands⟩ := hinner _ List.mem_cons_self
    have ha : Saturated a := hoperands a (by simp)
    have hb : Saturated b := hoperands b (by simp)
    exact .two (arity_of_isBinaryCombinator hkind') (.one rfl ha) (.one rfl hb)
  comm _ token a b := by
    rintro ⟨harity, hoperands⟩
    exact .two harity.symm (hoperands b (by simp)) (hoperands a (by simp))
  notNot token token' t := by
    rintro ⟨-, hinner⟩
    obtain ⟨-, hoperand⟩ := hinner _ List.mem_cons_self
    exact hoperand t List.mem_cons_self

/-- **Optimization rewrites the tree of a graph.**  It reports nothing, leaves a
well-formed graph with the tree that the passes over trees make of the one
before, and so with the same nodes but for negations, conjunctions and
disjunctions. -/
theorem optimization_rewrites_the_tree (options : OptimizationOptions) {g : Graph}
    (hg : g.IsWellFormed) :
    let g' := (g.optimize options).value
    (g.optimize options).notes = [] ∧ g'.IsWellFormed ∧
      g'.said? = g.said?.map (optimized options) ∧
      (g'.said?.toList.flatMap statements).Perm (g.said?.toList.flatMap statements) := by
  cases hroot : g.root with
  | none =>
      have hsaid : g.said? = none := by rw [said?, tree?, hroot]; rfl
      rw [optimize_of_root_eq_none options hroot]
      refine ⟨rfl, hg, ?_, .refl _⟩
      rw [Noted.value_pure, hsaid]
      rfl
  | some r =>
      obtain ⟨s, hs, hfull⟩ := hg.holds hroot
      obtain ⟨g', s', hrun, hs', hcontent⟩ := hs.optimize options
      have hfull' : Saturated (s'.map Spot.content) := by
        rw [hcontent]
        exact saturated_allowsRewriting.optimized options _ hfull
      rw [hrun]
      refine ⟨rfl, hs'.isWellFormed hfull', ?_, ?_⟩
      · rw [Noted.value_pure, hs'.said?, hs.said?, hcontent]
        rfl
      · have hperm := statements_allowsRewriting.optimized options (s.map Spot.content)
        simpa [hs'.said?, hs.said?, hcontent] using hperm.symm

/-- `!(a !b)` becomes `!a || b`: its negation moves to both operands, and leaves
the second one. -/
theorem optimization_of_a_negated_conjunction :
    let a : Tree Content := .leaf ⟨.search ⟨"a", false, false⟩, {}⟩
    let b : Tree Content := .leaf ⟨.search ⟨"b", false, false⟩, {}⟩
    let not (t : Tree Content) : Tree Content := .node ⟨.not, {}⟩ [t]
    let g := ofTree (.node ⟨.select, {}⟩ [not (.node ⟨.and, {}⟩ [a, not b])])
    g.IsWellFormed ∧ (g.optimize ⟨true, true⟩).value.said? =
      some (.node ⟨.select, {}⟩ [.node ⟨.or, {}⟩ [not a, b]]) := by
  intro a b not g
  have hg : g.IsWellFormed :=
    ofTree_isWellFormed (.one rfl (.one rfl (.two rfl (.leaf rfl) (.one rfl (.leaf rfl)))))
  obtain ⟨-, -, hsaid, -⟩ := optimization_rewrites_the_tree ⟨true, true⟩ hg
  refine ⟨hg, ?_⟩
  rw [hsaid, ofTree_said?]
  simp [optimized, moved, pushedNots_eq, swappedNots_eq, collapsedNots_eq, negated, swapped,
    doublyNegated, dual?, NodeKind.isBinaryCombinator, a, b, not, Tree.leaf]

end FilterQuery.Graph
