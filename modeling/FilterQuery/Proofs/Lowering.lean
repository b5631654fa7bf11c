import FilterQuery.Engine
import FilterQuery.Proofs.Drafting
import FilterQuery.Proofs.EvaluationTrees

/-!
# The way to the evaluation graph

The tree of a query is pruned, its combinators over nested queries are promoted,
and a condition at the root is put below a selection.  Since nested queries are
never left out, what pruning leaves of a query is a condition, and what is
evaluated has the shape of what can be; so the graph that is evaluated is valid,
and the only errors met on the way are those of combinators that mix nested
queries with conditions.
-/

namespace FilterQuery.Graph

open Grammar (IsQueryTree IsBlock)

/-- The places are skipped if their kinds are. -/
def Marked (known : Knowledge) (t : Tree Place) : Prop :=
  ∀ p ∈ t.preorder, p.node.skipped = known.skips p.kind

/-- Trees are pruned one by one. -/
theorem pruneAll_eq_filterMap (ts : List (Tree Place)) : pruneAll ts = ts.filterMap prune := by
  induction ts with
  | nil => rfl
  | cons t ts ih =>
      rw [pruneAll, ih]
      cases h : prune t <;> simp [h]

/-- What is left of a node when its operands have been pruned. -/
def retain (c : Content) : List (Tree Content) → Option (Tree Content)
  | [] => if c.kind.isCombinator then none else some (.node c [])
  | [only] => if c.kind.isBinaryCombinator then some only else some (.node c [only])
  | kept => some (.node c kept)

/-- A node of this kind stays if its operands do. -/
def IsRetained : NodeKind → Prop
  | .group | .comment _ | .toggle _ => False
  | _ => True

/-- A leaf is retained. -/
theorem retain_leaf {c : Content} (h : c.kind.isCombinator = false) :
    retain c [] = some (.leaf c) := by
  simp [retain, h, Tree.leaf]

/-- A node with its one operand is retained. -/
theorem retain_one {c : Content} {t : Tree Content} (h : c.kind.isBinaryCombinator = false) :
    retain c [t] = some (.node c [t]) := by
  simp [retain, h]

/-- A node that is not skipped stays if its pruned operands let it. -/
theorem prune_node {p : Place} {ts : List (Tree Place)} (h : p.node.skipped = false)
    (hkind : IsRetained p.kind) :
    prune (.node p ts) = retain p.content (ts.filterMap prune) := by
  rw [prune, pruneAll_eq_filterMap, if_neg (by simp [h])]
  cases hk : p.kind
  case group | comment | toggle => simp [hk, IsRetained] at hkind
  all_goals
    have hcontent : p.content.kind = p.kind := rfl
    rcases ts.filterMap prune with _ | ⟨only, _ | ⟨second, more⟩⟩ <;> simp [retain, hcontent, hk]

section Marked

variable {known : Knowledge} {u : Tree Place}

/-- A place over trees that says a given node over given trees. -/
theorem Marked.eq_node (hm : Marked known u) {c : Content} {ts : List (Tree Content)}
    (hu : u.map Place.content = .node c ts) :
    ∃ p us, u = .node p us ∧ p.content = c ∧ p.node.skipped = known.skips c.kind ∧
      us.map (Tree.map Place.content) = ts ∧ ∀ u ∈ us, Marked known u := by
  obtain ⟨p, us⟩ := u
  rw [Tree.map_node, Tree.node.injEq] at hu
  obtain ⟨rfl, rfl⟩ := hu
  exact ⟨p, us, rfl, rfl, hm p (by simp), rfl, fun t ht q hq =>
    hm q (Tree.mem_preorder_of_child ht hq)⟩

/-- Nothing is left of a node that is skipped. -/
theorem Marked.prune_skipped (hm : Marked known u) {c : Content} {ts : List (Tree Content)}
    (hu : u.map Place.content = .node c ts) (hskips : known.skips c.kind = true) :
    prune u = none := by
  obtain ⟨p, us, rfl, -, hskipped, -, -⟩ := hm.eq_node hu
  rw [prune, if_pos (hskipped.trans hskips)]

/-- A node that is not skipped is retained with what is left of its operands. -/
theorem Marked.prune_retained (hm : Marked known u) {c : Content} {ts : List (Tree Content)}
    (hu : u.map Place.content = .node c ts) (hskips : known.skips c.kind = false)
    (hkind : IsRetained c.kind) :
    ∃ us : List (Tree Place), us.map (Tree.map Place.content) = ts ∧ (∀ u ∈ us, Marked known u) ∧
      prune u = retain c (us.filterMap prune) := by
  obtain ⟨p, us, rfl, rfl, hskipped, hus, hbelow⟩ := hm.eq_node hu
  exact ⟨us, hus, hbelow, prune_node (hskipped.trans hskips) hkind⟩

/-- A leaf that is not skipped is left. -/
theorem Marked.prune_leaf (hm : Marked known u) {c : Content} (hu : u.map Place.content = .leaf c)
    (hskips : known.skips c.kind = false) (hkind : IsRetained c.kind)
    (hcombinator : c.kind.isCombinator = false) : prune u = some (.leaf c) := by
  obtain ⟨us, hus, -, hprune⟩ := hm.prune_retained hu hskips hkind
  obtain rfl := List.map_eq_nil_iff.mp hus
  rw [hprune]
  exact retain_leaf hcombinator

/-- A node with one operand is retained with what is left of that. -/
theorem Marked.prune_one (hm : Marked known u) {c : Content} {t : Tree Content}
    (hu : u.map Place.content = .node c [t]) (hskips : known.skips c.kind = false)
    (hkind : IsRetained c.kind) :
    ∃ v, v.map Place.content = t ∧ Marked known v ∧ prune u = retain c (prune v).toList := by
  obtain ⟨us, hus, hbelow, hprune⟩ := hm.prune_retained hu hskips hkind
  obtain ⟨v, rfl, hv⟩ := List.map_eq_singleton_iff.mp hus
  refine ⟨v, hv, hbelow v (by simp), hprune.trans ?_⟩
  cases h : prune v <;> simp [h]

/-- A node with two operands is retained with what is left of both. -/
theorem Marked.prune_two (hm : Marked known u) {c : Content} {t t' : Tree Content}
    (hu : u.map Place.content = .node c [t, t']) (hskips : known.skips c.kind = false)
    (hkind : IsRetained c.kind) :
    ∃ v v', v.map Place.content = t ∧ v'.map Place.content = t' ∧ Marked known v ∧
      Marked known v' ∧ prune u = retain c ((prune v).toList ++ (prune v').toList) := by
  obtain ⟨us, hus, hbelow, hprune⟩ := hm.prune_retained hu hskips hkind
  obtain ⟨v, vs, rfl, hv, hvs⟩ := List.map_eq_cons_iff.mp hus
  obtain ⟨v', rfl, hv'⟩ := List.map_eq_singleton_iff.mp hvs
  refine ⟨v, v', hv, hv', hbelow v (by simp), hbelow v' (by simp), hprune.trans ?_⟩
  cases h : prune v <;> cases h' : prune v' <;> simp [h, h']

/-- What is left of a group is what is left in it. -/
theorem Marked.prune_group (hm : Marked known u) {token : Token} {t : Tree Content}
    (hu : u.map Place.content = .node ⟨.group, token⟩ [t]) :
    ∃ v, v.map Place.content = t ∧ Marked known v ∧ prune u = prune v := by
  obtain ⟨p, us, rfl, hp, hskipped, hus, hbelow⟩ := hm.eq_node hu
  obtain ⟨v, rfl, hv⟩ := List.map_eq_singleton_iff.mp hus
  have hkind : p.kind = .group := congrArg Content.kind hp
  refine ⟨v, hv, hbelow v (by simp), ?_⟩
  rw [prune, hkind, if_neg (by simp [hskipped, Knowledge.skips])]
  rfl

/-- Nested queries and their aggregators are never left out. -/
theorem Marked.prune_block (hm : Marked known u) (h : IsBlock (u.map Place.content)) :
    prune u = some (u.map Place.content) := by
  generalize hu : u.map Place.content = t at h ⊢
  cases h with
  | query q token => exact hm.prune_leaf hu rfl trivial rfl
  | aggregator name q token token' =>
      obtain ⟨v, hv, hmv, hprune⟩ := hm.prune_one hu rfl trivial
      rw [hprune, hmv.prune_leaf hv rfl trivial rfl]
      exact retain_one rfl

end Marked

/-- What is left of a pair is what is left of both operands, of one of them, or
nothing. -/
theorem isPruned_of_retain_two {c : Content} (hkind : c.kind.isBinaryCombinator = true)
    {left right : Option (Tree Content)} (hleft : ∀ v ∈ left, IsPruned v)
    (hright : ∀ v ∈ right, IsPruned v) :
    ∀ v ∈ retain c (left.toList ++ right.toList), IsPruned v := by
  have hcombinator := isCombinator_of_isBinaryCombinator hkind
  intro v hv
  cases left with
  | none =>
      cases right with
      | none => simp [retain, hcombinator] at hv
      | some y =>
          obtain rfl : y = v := by simpa [retain, hkind] using hv
          exact hright y rfl
  | some x =>
      cases right with
      | none =>
          obtain rfl : x = v := by simpa [retain, hkind] using hv
          exact hleft x rfl
      | some y =>
          obtain rfl : .node c [x, y] = v := by simpa [retain] using hv
          exact .binary hkind (hleft x rfl) (hright y rfl)

/-- A negation whose operand is pruned well is. -/
theorem isPruned_of_retain_not {token : Token} {operand : Option (Tree Content)}
    (hoperand : ∀ v ∈ operand, IsPruned v) :
    ∀ v ∈ retain ⟨.not, token⟩ operand.toList, IsPruned v := by
  intro v hv
  cases operand with
  | none => simp [retain, NodeKind.isCombinator] at hv
  | some x =>
      obtain rfl : .node ⟨.not, token⟩ [x] = v := by
        simpa [retain, NodeKind.isBinaryCombinator] using hv
      exact .not (hoperand x rfl)

/-- **Each combinator that pruning leaves has its operands.** -/
theorem Marked.prune_isPruned {known : Knowledge} {t : Tree Content} (h : IsQueryTree t) :
    ∀ {u : Tree Place}, Marked known u → u.map Place.content = t →
      ∀ v ∈ prune u, IsPruned v := by
  induction h with
  | @binary kind token t u hkind left right ihl ihr =>
      intro u hm hu v hv
      have hskips : known.skips kind = false := by
        cases kind <;> simp_all [NodeKind.isBinaryCombinator, Knowledge.skips]
      have hretained : IsRetained kind := by
        cases kind <;> simp_all [NodeKind.isBinaryCombinator, IsRetained]
      obtain ⟨w, w', hw, hw', hmw, hmw', hprune⟩ := hm.prune_two hu hskips hretained
      rw [hprune] at hv
      exact isPruned_of_retain_two hkind (ihl hmw hw) (ihr hmw' hw') v hv
  | not h ih =>
      intro u hm hu v hv
      obtain ⟨w, hw, hmw, hprune⟩ := hm.prune_one hu rfl trivial
      rw [hprune] at hv
      exact isPruned_of_retain_not (ih hmw hw) v hv
  | group h ih =>
      intro u hm hu v hv
      obtain ⟨w, hw, hmw, hprune⟩ := hm.prune_group hu
      exact ih hmw hw v (hprune ▸ hv)
  | search s token =>
      intro u hm hu v hv
      rw [hm.prune_leaf hu rfl trivial rfl] at hv
      obtain rfl := Option.some.inj hv
      exact .search s token
  | filter f token =>
      intro u hm hu v hv
      cases hskips : known.skips (.filter f) with
      | true => simp [hm.prune_skipped hu hskips] at hv
      | false =>
          rw [hm.prune_leaf hu hskips trivial rfl] at hv
          obtain rfl := Option.some.inj hv
          exact .filter f token
  | nestedFilter f token h =>
      intro u hm hu v hv
      cases hskips : known.skips (.nestedFilter f) with
      | true => simp [hm.prune_skipped hu hskips] at hv
      | false =>
          obtain ⟨w, rfl, hmw, hprune⟩ := hm.prune_one hu hskips trivial
          rw [hprune, hmw.prune_block h] at hv
          obtain rfl := Option.some.inj hv
          exact .nestedFilter f token h
  | block h =>
      intro u hm hu v hv
      subst hu
      rw [hm.prune_block h] at hv
      obtain rfl := Option.some.inj hv
      exact .block h
  | toggle name token =>
      intro u hm hu v hv
      simp [hm.prune_skipped hu rfl] at hv
  | comment content token =>
      intro u hm hu v hv
      simp [hm.prune_skipped hu rfl] at hv

/-- Nothing is wrong with the graph of a saturated tree. -/
theorem ofTree_validate {t : Tree Content} (h : Saturated t) : (ofTree t).validate = [] := by
  obtain ⟨u, hcopy, hholds, -⟩ := ofTree_holds t
  exact hholds.validate (hcopy.content ▸ h)

/-- The graph that is evaluated is that of the promoted tree, and nothing is
wrong with it. -/
theorem evaluation_of_prune {g : Graph} {t : Tree Place} {v : Tree Content} (ht : g.tree? = some t)
    (hv : prune t = some v) (hfull : Saturated v) :
    g.evaluation = ⟨ofTree (enumerated (promote v).value), (promote v).notes⟩ := by
  have hvalid := ofTree_validate (enumerated_saturated (promote_saturated hfull))
  simp only [evaluation, ht, Option.bind_some, hv, bind, hvalid, List.append_nil]

/-- A graph of which nothing is left evaluates to an empty one. -/
theorem evaluation_of_prune_none {g : Graph} (h : g.tree?.bind prune = none) :
    g.evaluation = pure {} := by
  rw [evaluation, h]

/-- The places of a graph that holds a tree of marked spots are marked. -/
theorem Holds.marked {known : Knowledge} {g : Graph} {s : Tree Spot} (h : Holds g s)
    (hskipped : ∀ spot ∈ s.preorder, spot.skipped = known.skips spot.kind) :
    ∃ u, g.tree? = some u ∧ u.map Place.content = s.map Spot.content ∧ Marked known u := by
  obtain ⟨u, hu, rfl⟩ := h.exists_tree
  refine ⟨u, hu, ?_, fun p hp => ?_⟩
  · rw [Tree.map_map]
    rfl
  · rw [Tree.preorder_map] at hskipped
    exact hskipped _ (List.mem_map_of_mem hp)

/-- What is evaluated for the tree of a query: nothing if nothing is left, or
else the condition that is, with its combinators promoted. -/
theorem Marked.evaluation_cases {known : Knowledge} {g : Graph} {u : Tree Place}
    (hu : g.tree? = some u) (htree : IsQueryTree (u.map Place.content)) (hm : Marked known u) :
    prune u = none ∧ g.evaluation = pure {} ∨
      ∃ v, prune u = some v ∧ IsConditionTree v ∧
        g.evaluation = ⟨ofTree (enumerated (promote v).value), (promote v).notes⟩ := by
  cases hprune : prune u with
  | none => exact .inl ⟨rfl, evaluation_of_prune_none (by rw [hu]; exact hprune)⟩
  | some v =>
      have hcondition := (Marked.prune_isPruned htree hm rfl v hprune).isConditionTree
      exact .inr ⟨v, rfl, hcondition, evaluation_of_prune hu hprune hcondition.saturated⟩

/-- **What goes wrong on the way to evaluation is never a matter of syntax.** -/
theorem Holds.evaluation_semantic {known : Knowledge} {g : Graph} {s : Tree Spot} (h : Holds g s)
    (htree : IsQueryTree (s.map Spot.content))
    (hskipped : ∀ spot ∈ s.preorder, spot.skipped = known.skips spot.kind) :
    ∀ e ∈ g.evaluation.notes, e.kind = .semantic := by
  obtain ⟨u, hu, hcontent, hmarked⟩ := h.marked hskipped
  rcases hmarked.evaluation_cases hu (hcontent ▸ htree) with ⟨-, heq⟩ | ⟨v, -, -, heq⟩
  · rw [heq]
    simp
  · rw [heq]
    exact promote_semantic v

end FilterQuery.Graph

namespace FilterQuery

open FilterQuery.Graph Grammar

/-- The tree of the draft that is made of derivable lexemes. -/
theorem Draft.derived_tree {text : String} {ls : List Lexeme} (known : Knowledge)
    {t : Tree Content} (ht : Disjunction text ls t) :
    ∃ u, (Draft.ofLexemes known text ls).graph.tree? = some u ∧ u.map Place.content = t ∧
      Marked known u ∧ (Draft.ofLexemes known text ls).errors = known.faultsOf ls := by
  obtain ⟨s, hholds, rfl, hskipped, herrors⟩ := @ofLexemes_derived known text ls t ht
  obtain ⟨u, hu, hcontent, hmarked⟩ := hholds.marked hskipped
  exact ⟨u, hu, hcontent, hmarked, herrors⟩

/-- What is known about filters gives rise to errors of meaning only. -/
def Knowledge.IsSemantic (known : Knowledge) : Prop :=
  ∀ f nested cause, (known.judge f nested).cause = some cause → cause.kind = .semantic

/-- Whatever is wrong with the names in a query has a cause of this sort. -/
structure Knowledge.Blames (known : Knowledge) (p : Cause → Prop) : Prop where
  judge : ∀ f nested cause, (known.judge f nested).cause = some cause → p cause
  aggregator : ∀ name, p (.unknownAggregator name)
  nested : ∀ query, p (.unresolvableNestedQuery query)

/-- What is wrong with a filter has a cause of the sort. -/
theorem Knowledge.Blames.filterFaults {known : Knowledge} {p : Cause → Prop} (h : known.Blames p)
    (f : FilterExpression) (nested : Bool) (token : Token) :
    ∀ e ∈ known.filterFaults f nested token, p e.cause := by
  intro e he
  obtain ⟨cause, hcause, rfl⟩ := List.mem_map.mp he
  exact h.judge f nested cause (Option.mem_toList.mp hcause)

/-- What is wrong with an aggregator has a cause of the sort. -/
theorem Knowledge.Blames.aggregatorFaults {known : Knowledge} {p : Cause → Prop}
    (h : known.Blames p) (block : NestedBlock) :
    ∀ e ∈ known.aggregatorFaults block, p e.cause := by
  intro e he
  obtain ⟨name, -, rfl⟩ := List.mem_map.mp he
  exact h.aggregator name

mutual

/-- What is wrong with a lexeme has a cause of the sort. -/
theorem Knowledge.Blames.faults {known : Knowledge} {p : Cause → Prop} (h : known.Blames p) :
    ∀ (l : Lexeme), ∀ e ∈ known.faults l, p e.cause
  | .group inner _ => by
      rw [Knowledge.faults]
      exact h.faultsOf inner
  | .nested block => by
      rw [Knowledge.faults]
      split
      · exact h.aggregatorFaults block
      · intro e he
        obtain rfl := List.mem_singleton.mp he
        exact h.nested _
  | .filter f none token => by
      rw [Knowledge.faults]
      exact h.filterFaults f false token
  | .filter f (some block) token => by
      rw [Knowledge.faults]
      split
      · intro e he
        rcases List.mem_append.mp he with he | he
        · exact h.filterFaults f true token e he
        · exact h.aggregatorFaults block e he
      · intro e he
        obtain rfl := List.mem_singleton.mp he
        exact h.nested _
  | .and _ | .or _ | .not _ | .toggle _ _ | .comment _ _ | .word _ _ => by
      simp [Knowledge.faults]

/-- What is wrong with lexemes has a cause of the sort. -/
theorem Knowledge.Blames.faultsOf {known : Knowledge} {p : Cause → Prop} (h : known.Blames p) :
    ∀ (ls : List Lexeme), ∀ e ∈ known.faultsOf ls, p e.cause
  | [] => by simp [Knowledge.faultsOf]
  | l :: ls => by
      rw [Knowledge.faultsOf]
      intro e he
      rcases List.mem_append.mp he with he | he
      · exact h.faults l e he
      · exact h.faultsOf ls e he

end

/-- Names in a query are blamed for faults of meaning only. -/
theorem Knowledge.IsSemantic.blames {known : Knowledge} (h : known.IsSemantic) :
    known.Blames (·.kind = .semantic) :=
  ⟨h, fun _ => rfl, fun _ => rfl⟩

/-- The faults of a lexeme are faults of meaning. -/
theorem Knowledge.faults_semantic {known : Knowledge} (h : known.IsSemantic) (l : Lexeme) :
    ∀ e ∈ known.faults l, e.kind = .semantic :=
  h.blames.faults l

/-- The faults of lexemes are faults of meaning. -/
theorem Knowledge.faultsOf_semantic {known : Knowledge} (h : known.IsSemantic)
    (ls : List Lexeme) : ∀ e ∈ known.faultsOf ls, e.kind = .semantic :=
  h.blames.faultsOf ls

/-- **The faults that an engine finds with a filter.** -/
theorem Engine.cause_of_judge {α : Type} {engine : Engine α} {f : FilterExpression} {nested : Bool}
    {cause : Cause} (h : (engine.judge f nested).cause = some cause) :
    cause = .unknownFilter f.name ∨ cause = .missingValue f.name ∨
      cause = .unsupportedOperator f.operator f.name := by
  have hfault : ∀ (skip : Bool) (cause' : Cause),
      (if skip then ({ skipped := true } : Verdict)
        else if engine.validation.checksFilters then { cause := some cause' } else {}).cause =
        some cause → cause = cause' := by
    intro skip cause' h
    split at h
    · cases h
    · split at h
      · exact (Option.some.inj h).symm
      · cases h
  simp only [judge] at h
  split at h
  · exact .inl (hfault _ _ h)
  · split at h
    · exact .inr (.inl (hfault _ _ h))
    · split at h
      · cases h
      · exact .inr (.inr (Option.some.inj h).symm)

/-- An engine finds faults of meaning only. -/
theorem Engine.knowledge_isSemantic {α : Type} (engine : Engine α) :
    engine.knowledge.IsSemantic := by
  intro f nested cause hcause
  rcases Engine.cause_of_judge hcause with rfl | rfl | rfl <;> rfl

end FilterQuery
