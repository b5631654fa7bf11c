import FilterQuery.Proofs.NegationNormalForm
import FilterQuery.Proofs.Residues

/-!
# Double negations

Collapsing goes down a graph once and puts what two negations stand on in their
place, as often as there are two at the place.  No such pair is left, wherever
the passes before have moved negations.  For the node above a pair is no
negation: it would make a pair with the first of the two, and that one is met
first.  So collapsing once more finds nothing to do.
-/

namespace FilterQuery.Graph

variable {g : Graph}

/-- Where `not` stands above no `not`, no node is negated twice. -/
theorem NegatesOnly.doublyNegated?_eq_none (hg : g.NegatesOnly (· ≠ .not)) {i : NodeId}
    (hi : g.Reached i) : Edit.doublyNegated? g i = none := by
  unfold Edit.doublyNegated?
  split
  · next inner hnot hchildren =>
      have hinner := hg i hi hnot inner (hchildren ▸ List.mem_cons_self)
      split
      · next operand hdouble _ => exact absurd hdouble (of_decide_eq_true hinner)
      · rfl
  · rfl

/-- Changes that change nothing one by one change nothing together. -/
theorem run_forM_self {change : NodeId → Edit Unit} {ids : List NodeId}
    (h : ∀ i ∈ ids, (change i).run g = .ok () g) : (ids.forM change).run g = .ok () g := by
  induction ids with
  | nil => rfl
  | cons i ids ih =>
      rw [List.forM, run_bind_of_ok (h i List.mem_cons_self)]
      exact ih fun j hj => h j (List.mem_cons_of_mem i hj)

/-- Collapsing goes down to every node and changes none. -/
theorem NegatesOnly.run_collapseNot (hg : g.NegatesOnly (· ≠ .not)) (fuel : Nat) {i : NodeId}
    (hi : g.Reached i) : (Edit.collapseNot fuel i).run g = .ok () g := by
  induction fuel generalizing i with
  | zero => rfl
  | succ fuel ih =>
      rw [Edit.collapseNot, run_get_bind, hg.doublyNegated?_eq_none hi]
      dsimp only
      rw [run_get_bind]
      refine run_forM_self fun j hj => ih ?_
      obtain ⟨d, hd⟩ := hi
      exact ⟨d + 1, hd.child hj⟩

/-- **Without a double negation there is nothing to optimize**, unless other
passes are on. -/
theorem NegatesOnly.optimize_eq (hg : g.NegatesOnly (· ≠ .not)) : g.optimize {} = pure g := by
  cases hroot : g.root with
  | none => exact optimize_of_root_eq_none {} hroot
  | some r =>
      have hrun : (Edit.fromRoot Edit.collapseNot).run g = .ok () g := by
        rw [Edit.fromRoot, run_get_bind, hroot]
        exact hg.run_collapseNot _ ⟨0, .root hroot⟩
      refine optimize_of_passes rfl rfl ?_
      rw [runPass, if_pos rfl, edit, hrun]
      rfl

section SameKinds

variable {t u v : Tree Content}

/-- Trees of the same kinds are negated twice alike. -/
theorem SameKinds.of_doublyNegated (h : SameKinds t u) (hdouble : doublyNegated t = some v) :
    ∃ w, doublyNegated u = some w ∧ SameKinds v w := by
  obtain ⟨token, token', rfl⟩ := eq_of_doublyNegated hdouble
  obtain ⟨⟨kind, place⟩, us⟩ := u
  obtain ⟨hkind, hbelow⟩ := sameKinds_node.mp h
  obtain ⟨⟨⟨kind', place'⟩, ws⟩, rfl, hinner⟩ := Tree.forall₂_one hbelow
  obtain ⟨hkind', hoperand⟩ := sameKinds_node.mp hinner
  obtain ⟨w, rfl, hw⟩ := Tree.forall₂_one hoperand
  dsimp only at hkind hkind'
  subst hkind hkind'
  exact ⟨w, rfl, hw⟩

/-- Which negations collapse depends on the kinds of the nodes only. -/
theorem SameKinds.collapsedNots (h : SameKinds t u) :
    SameKinds (Graph.collapsedNots t) (Graph.collapsedNots u) := by
  induction t using Tree.height_induction generalizing u with | lower t ih => ?_
  rw [collapsedNots_eq, collapsedNots_eq u]
  cases hdouble : doublyNegated t with
  | some v =>
      obtain ⟨w, hw, hsame⟩ := h.of_doublyNegated hdouble
      rw [hw]
      exact ih v (height_doublyNegated_lt hdouble) hsame
  | none =>
      have hnone : doublyNegated u = none := by
        cases hu : doublyNegated u with
        | none => rfl
        | some w =>
            obtain ⟨v, hv, -⟩ := SameKinds.of_doublyNegated h.symm hu
            cases hdouble.symm.trans hv
      rw [hnone]
      obtain ⟨c, ts⟩ := t
      obtain ⟨d, us⟩ := u
      obtain ⟨hkind, hbelow⟩ := sameKinds_node.mp h
      refine sameKinds_node.mpr ⟨hkind, ?_⟩
      rw [List.forall₂_map_left_iff, List.forall₂_map_right_iff]
      have hboth := (List.forall₂_and_left ts us).mpr ⟨fun t ht => ht, hbelow⟩
      exact hboth.imp fun _ _ h => ih _ (Tree.height_lt_of_child h.1) h.2

end SameKinds

/-- The kinds in a graph are those of the tree that it says. -/
theorem kinds?_eq (g : Graph) : g.kinds? = g.said?.map (Tree.map (·.kind)) := by
  rw [kinds?, said?, Option.map_map]
  refine congrArg (Option.map · g.tree?) (funext fun t => ?_)
  exact (Tree.map_map Content.kind Place.content t).symm

/-- A well-formed graph is optimized to one that says what the passes make of
its tree. -/
theorem IsWellFormed.said?_optimize (hg : g.IsWellFormed) (options : OptimizationOptions) :
    (g.optimize options).value.said? = g.said?.map (optimized options) := by
  cases hroot : g.root with
  | none =>
      rw [optimize_of_root_eq_none options hroot, Noted.value_pure, said?, tree?, hroot]
      rfl
  | some r =>
      obtain ⟨s, hs, -⟩ := hg.holds hroot
      obtain ⟨g', s', hrun, hs', hcontent⟩ := hs.optimize options
      rw [hrun, Noted.value_pure, hs'.said?, hs.said?, hcontent]
      rfl

/-- **Double negations collapse completely.**  However a well-formed graph is
optimized, no negation is left on a negation, so that optimizing it once more
without further passes changes nothing.  And a selection by a predicate that is
negated twice is optimized to what it is without the two negations, wherever the
nodes of both stand in their graphs and texts. -/
theorem double_negations_collapse {g : Graph} (hg : g.IsWellFormed)
    (options : OptimizationOptions) :
    (g.optimize options).value.NegatesOnly (· ≠ .not) ∧
      (g.optimize options).value.optimize {} = pure (g.optimize options).value ∧
      ∀ (h : Graph) (t : Tree NodeKind), h.IsWellFormed →
        g.kinds? = some (.node .select [.node .not [.node .not [t]]]) →
        h.kinds? = some (.node .select [t]) →
        (g.optimize {}).value.render = (h.optimize {}).value.render := by
  have hnegates : (g.optimize options).value.NegatesOnly (· ≠ .not) := by
    refine (hg.negatesOnly_optimize_iff options).mpr fun t ht => ?_
    rw [optimized]
    exact (saturated_allowsRewriting.moved options t (hg.saturated t ht)).collapsedNots_negatesOnly
  refine ⟨hnegates, hnegates.optimize_eq, fun h t hh hdouble hplain => ?_⟩
  rw [kinds?_eq] at hdouble hplain
  obtain ⟨u, hu, hkinds⟩ := Option.map_eq_some_iff.mp hdouble
  obtain ⟨⟨⟨kind, token⟩, ws⟩, hw, hkinds'⟩ := Option.map_eq_some_iff.mp hplain
  rw [Tree.map_node] at hkinds'
  obtain ⟨rfl, hoperand⟩ := Tree.node.inj hkinds'
  obtain ⟨w, rfl, rfl⟩ := List.map_eq_singleton_iff.mp hoperand
  have hsame : SameKinds u
      (.node ⟨.select, token⟩ [.node ⟨.not, {}⟩ [.node ⟨.not, {}⟩ [w]]]) := by
    simpa [SameKinds] using hkinds
  have hcollapsed : SameKinds (collapsedNots u) (collapsedNots (.node ⟨.select, token⟩ [w])) := by
    have hpair : collapsedNots (.node ⟨.select, token⟩
        [.node ⟨.not, {}⟩ [.node ⟨.not, {}⟩ [w]]]) =
          collapsedNots (.node ⟨.select, token⟩ [w]) := by
      rw [collapsedNots_eq, collapsedNots_eq (.node ⟨.select, token⟩ [w])]
      exact congrArg (fun v => Tree.node ⟨.select, token⟩ [v]) (collapsedNots_eq _)
    exact hpair ▸ hsame.collapsedNots
  refine render_eq_of_kinds? ?_
  rw [kinds?_eq, kinds?_eq, hg.said?_optimize, hh.said?_optimize, hu, hw]
  exact congrArg some hcollapsed

/-- Two negations in front of a word vanish, after the other passes too. -/
theorem double_negation_of_a_word :
    let a : Tree Content := .leaf ⟨.search ⟨"a", false, false⟩, {}⟩
    let g := ofTree (.node ⟨.select, {}⟩ [.node ⟨.not, {}⟩ [.node ⟨.not, {}⟩ [a]]])
    let h := ofTree (.node ⟨.select, {}⟩ [a])
    g.IsWellFormed ∧ h.IsWellFormed ∧ (g.optimize ⟨true, true⟩).value.NegatesOnly (· ≠ .not) ∧
      (g.optimize {}).value.render = (h.optimize {}).value.render := by
  intro a g h
  have hg : g.IsWellFormed :=
    ofTree_isWellFormed (.one rfl (.one rfl (.one rfl (.leaf rfl))))
  have hh : h.IsWellFormed := ofTree_isWellFormed (.one rfl (.leaf rfl))
  obtain ⟨hnegates, -, hrender⟩ := double_negations_collapse hg ⟨true, true⟩
  exact ⟨hg, hh, hnegates, hrender h _ hh (kinds?_ofTree _) (kinds?_ofTree _)⟩

end FilterQuery.Graph
