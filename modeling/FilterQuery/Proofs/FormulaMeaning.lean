import FilterQuery.Proofs.Formulas
import FilterQuery.Proofs.OptimizedQueries

/-!
# What formulas mean

The query of a formula is valid if the queries of its leaves are: what is known
about a filter does not depend on where it stands.  The graph that is evaluated
is a selection by the formula, and an element is selected exactly if the formula
is true of it.
-/

namespace FilterQuery

open FilterQuery.Graph Grammar Lexeme

variable {α : Type}

section Parse

variable {engine : Engine α} {text : String} {ls : List Lexeme} {u : Tree Place}
  {v : Tree Content} (mode : Mode)

namespace Engine

/-- The query before it is compiled. -/
theorem parse_eq (hscan : scan engine.alphabet text = .ok ls) :
    let draft := Draft.ofLexemes engine.knowledge text ls
    ∃ q : Query α, engine.parse text mode = q.compile ∧ q.engine = engine ∧ q.mode = mode ∧
      q.graph = draft.evaluation.value ∧ q.errors = draft.errors ++ draft.evaluation.notes := by
  intro draft
  rw [parse, hscan]
  exact ⟨_, rfl, rfl, rfl, rfl, rfl⟩

/-- A query without errors had none before it was compiled. -/
theorem draft_of_clean (hscan : scan engine.alphabet text = .ok ls)
    (hclean : (engine.parse text mode).errors = []) :
    (Draft.ofLexemes engine.knowledge text ls).errors = [] ∧
      (Draft.ofLexemes engine.knowledge text ls).evaluation.notes = [] := by
  obtain ⟨q, hq, -, -, -, herrors⟩ := parse_eq mode hscan
  rw [← List.append_eq_nil_iff, ← herrors]
  rw [hq, Query.compile] at hclean
  split at hclean
  · next hnone => exact List.isEmpty_iff.mp hnone
  · exact hclean

/-- The query of a draft without errors, of which nothing is to be evaluated. -/
theorem parse_of_nothing (hscan : scan engine.alphabet text = .ok ls)
    (herrors : (Draft.ofLexemes engine.knowledge text ls).errors = [])
    (hevaluation : (Draft.ofLexemes engine.knowledge text ls).evaluation = pure {}) :
    (engine.parse text mode).graph = {} ∧ (engine.parse text mode).errors = [] := by
  obtain ⟨q, hq, -, -, hgraph, hqerrors⟩ := parse_eq mode hscan
  rw [hevaluation] at hgraph hqerrors
  have hclean : q.errors.isEmpty = true := by
    rw [hqerrors, herrors]
    rfl
  rw [hq, Query.compile, if_pos hclean, hgraph]
  exact ⟨rfl, rfl⟩

/-- A valid query has something left to evaluate, and no error in its draft. -/
theorem prune_of_isValid (hscan : scan engine.alphabet text = .ok ls)
    (htree : (Draft.ofLexemes engine.knowledge text ls).graph.tree? = some u)
    (hvalid : (engine.parse text mode).isValid = true) :
    (Draft.ofLexemes engine.knowledge text ls).errors = [] ∧ ∃ v, prune u = some v := by
  rw [Query.isValid, Bool.and_eq_true, List.isEmpty_iff] at hvalid
  obtain ⟨hclean, -⟩ := draft_of_clean mode hscan hvalid.1
  refine ⟨hclean, ?_⟩
  cases hprune : prune u with
  | some v => exact ⟨v, rfl⟩
  | none =>
      exfalso
      have hevaluation : (Draft.ofLexemes engine.knowledge text ls).evaluation = pure {} := by
        rw [Draft.evaluation, hclean, if_neg (by simp),
          evaluation_of_prune_none (by rw [htree]; exact hprune)]
      rw [(parse_of_nothing mode hscan hclean hevaluation).1] at hvalid
      cases hvalid.2

/-- The query of a draft without errors, of which a tree is to be evaluated. -/
theorem parse_of_tree {t : Tree Content} (hscan : scan engine.alphabet text = .ok ls)
    (herrors : (Draft.ofLexemes engine.knowledge text ls).errors = [])
    (hevaluation : (Draft.ofLexemes engine.knowledge text ls).evaluation = ⟨ofTree t, []⟩) :
    (engine.parse text mode).mode = mode ∧ (engine.parse text mode).graph = ofTree t ∧
      (engine.parse text mode).errors = (engine.planOf t).notes ∧
      (engine.parse text mode).plan = some (engine.planOf t).value := by
  obtain ⟨q, hq, hengine, hmode, hgraph, hqerrors⟩ := parse_eq mode hscan
  rw [hevaluation] at hgraph hqerrors
  obtain ⟨s, hcopy, hs, -⟩ := ofTree_holds t
  have hclean : q.errors.isEmpty = true := by
    rw [hqerrors, herrors]
    rfl
  have hcompile : engine.compile (ofTree t) = _ := hs.compile
  rw [hcopy.content] at hcompile
  rw [hq, Query.compile, if_pos hclean, hengine, hgraph, hcompile]
  exact ⟨hmode, rfl, rfl, rfl⟩

/-- A condition that is left after pruning is selected by. -/
theorem parse_of_prune (hscan : scan engine.alphabet text = .ok ls)
    (htree : (Draft.ofLexemes engine.knowledge text ls).graph.tree? = some u)
    (herrors : (Draft.ofLexemes engine.knowledge text ls).errors = []) (hprune : prune u = some v)
    (hfull : Saturated v) (hpromote : promote v = pure v)
    (hkind : v.label.kind.isEnumerable = false) :
    (engine.parse text mode).mode = mode ∧
      (engine.parse text mode).errors = (engine.conditionOf v).notes ∧
      (engine.parse text mode).plan = some (.select (engine.conditionOf v).value) ∧
      ∃ s, Holds (engine.parse text mode).graph s ∧
        s.map Spot.content = .node ⟨.select, v.label.token⟩ [v] := by
  have hselect : enumerated v = .node ⟨.select, v.label.token⟩ [v] := by
    rw [enumerated, if_neg (by simp [hkind])]
  have hevaluation : (Draft.ofLexemes engine.knowledge text ls).evaluation =
      ⟨ofTree (.node ⟨.select, v.label.token⟩ [v]), []⟩ := by
    rw [Draft.evaluation, herrors, if_neg (by simp), evaluation_of_prune htree hprune hfull,
      hpromote, ← hselect]
    rfl
  obtain ⟨hmode, hgraph, hnotes, hplan⟩ := parse_of_tree mode hscan herrors hevaluation
  obtain ⟨s, hcopy, hs, -⟩ := ofTree_holds (.node ⟨.select, v.label.token⟩ [v])
  rw [Engine.planOf_select] at hnotes hplan
  simp only [Noted.value_bind, Noted.notes_bind, Noted.value_pure, Noted.notes_pure,
    List.append_nil] at hnotes hplan
  exact ⟨hmode, hnotes, hplan, s, hgraph ▸ hs, hcopy.content⟩

end Engine

end Parse

namespace Formula

variable {engine : Engine α} {grouped : Bool} {x : Formula} {t : Tree Content}

/-- What a formula says has no sets in it. -/
theorem Says.isEnumerable (h : Says engine grouped x t) :
    t.label.kind.isEnumerable = false ∧ t.label.kind.isSetOperand = false := by
  cases h with
  | leaf => exact ⟨rfl, rfl⟩
  | not => exact ⟨rfl, rfl⟩
  | pair c => cases c <;> exact ⟨rfl, rfl⟩
  | group => exact ⟨rfl, rfl⟩

/-- What a formula says is saturated. -/
theorem Says.saturated (h : Says engine grouped x t) : Saturated t := by
  induction h with
  | leaf => exact .leaf rfl
  | not token _ ih => exact .one rfl ih
  | pair c token _ _ ihx ihy => cases c <;> exact .two rfl ihx ihy
  | group _ token _ ih => exact .one rfl ih

omit engine in
/-- Two operands that are no sets stay as they are. -/
theorem promoteNode_pair (c : Content) {t u : Tree Content}
    (ht : t.label.kind.isSetOperand = false) (hu : u.label.kind.isSetOperand = false) :
    promoteNode c [t, u] = pure (.node c [t, u]) := by
  unfold promoteNode
  cases setOperation? c.kind with
  | none => rfl
  | some operation => simp [ht, hu]

/-- Conditions are not promoted. -/
theorem Says.promote (h : Says engine grouped x t) : promote t = pure t := by
  induction h with
  | leaf => rfl
  | not token _ ih =>
      simp only [Graph.promote, promoteAll, ih]
      rfl
  | pair c token hx hy ihx ihy =>
      have hx' := hx.isEnumerable.2
      have hy' := hy.isEnumerable.2
      have hpromoteNode := promoteNode_pair ⟨c.kind, token⟩ hx' hy'
      simp only [Graph.promote, promoteAll, ihx, ihy]
      exact hpromoteNode
  | group _ token _ ih =>
      simp only [Graph.promote, promoteAll, ih]
      rfl

/-- Pruning takes off the parentheses. -/
theorem Says.prune (known : Knowledge) (h : Says engine true x t)
    (hkept : ∀ text ∈ x.leaves, ∀ f block alone,
      scan engine.alphabet text = .ok [.filter f block alone] →
        (known.judge f false).skipped = false) :
    ∀ {u : Tree Place}, Marked known u → u.map Place.content = t →
      ∃ v, Graph.prune u = some v ∧ Says engine false x v := by
  induction h with
  | @leaf text f block alone token h htext =>
      intro u hm hu
      have hskips : known.skips (.filter f) = false := hkept text (by simp [leaves]) f block alone h
      exact ⟨_, hm.prune_leaf hu hskips trivial rfl, .leaf h htext⟩
  | not token _ ih =>
      intro u hm hu
      obtain ⟨w, hw, hmw, hprune⟩ := hm.prune_one hu rfl trivial
      obtain ⟨v, hv, hsaid⟩ := ih hkept hmw hw
      exact ⟨_, hprune.trans (by rw [hv]; rfl), .not token hsaid⟩
  | pair c token _ _ ihx ihy =>
      intro u hm hu
      have hskips : known.skips c.kind = false := by cases c <;> rfl
      have hretained : IsRetained c.kind := by cases c <;> trivial
      obtain ⟨w, w', hw, hw', hmw, hmw', hprune⟩ := hm.prune_two hu hskips hretained
      obtain ⟨v, hv, hsaid⟩ :=
        ihx (fun text ht => hkept text (List.mem_append_left _ ht)) hmw hw
      obtain ⟨v', hv', hsaid'⟩ :=
        ihy (fun text ht => hkept text (List.mem_append_right _ ht)) hmw' hw'
      exact ⟨_, hprune.trans (by rw [hv, hv']; rfl), .pair c token hsaid hsaid'⟩
  | group _ token _ ih =>
      intro u hm hu
      obtain ⟨w, hw, hmw, hprune⟩ := hm.prune_group hu
      obtain ⟨v, hv, hsaid⟩ := ih hkept hmw hw
      exact ⟨v, hprune.trans hv, hsaid⟩

variable [BEq α]

/-- **The condition of a formula holds exactly if the formula is true**, if this
is so of its leaves. -/
theorem Says.condition (truth : α → String → Bool) (h : Says engine false x t)
    (hleaf : ∀ text ∈ x.leaves, ∀ f block alone,
      scan engine.alphabet text = .ok [.filter f block alone] →
        ∀ token, (engine.compileFilter f token).notes = [] ∧
          ∀ e, ((engine.compileFilter f token).value.holds e).value = truth e text) :
    (engine.conditionOf t).notes = [] ∧
      ∀ e, ((engine.conditionOf t).value.holds e).value = x.eval (truth e) := by
  induction h with
  | @leaf text f block alone token h htext =>
      rw [Engine.conditionOf_filter]
      exact hleaf text (by simp [leaves]) f block alone h token
  | not token _ ih =>
      obtain ⟨hclean, hholds⟩ := ih hleaf
      rw [Engine.conditionOf_not]
      refine ⟨by simp [hclean], fun e => ?_⟩
      simp only [Noted.value_bind, Noted.value_pure, Condition.negation_value, hholds, eval]
  | pair c token _ _ ihx ihy =>
      obtain ⟨hcleanx, hholdsx⟩ := ihx fun text ht => hleaf text (List.mem_append_left _ ht)
      obtain ⟨hcleany, hholdsy⟩ := ihy fun text ht => hleaf text (List.mem_append_right _ ht)
      cases c with
      | and =>
          rw [Connective.kind, Engine.conditionOf_and]
          refine ⟨by simp [hcleanx, hcleany], fun e => ?_⟩
          simp only [Noted.value_bind, Noted.value_pure, Condition.both_value, hholdsx, hholdsy]
          rfl
      | or =>
          rw [Connective.kind, Engine.conditionOf_or]
          refine ⟨by simp [hcleanx, hcleany], fun e => ?_⟩
          simp only [Noted.value_bind, Noted.value_pure, Condition.either_value, hholdsx, hholdsy]
          rfl
  | group hgrouped => cases hgrouped

end Formula

section Queries

variable [BEq α] {engine : Engine α}

/-- The query of a condition, once it is compiled. -/
theorem Query.select_of_plan {q : Query α} {c : Condition α} {s : Tree Spot}
    (herrors : q.errors = []) (hs : Holds q.graph s) (hplan : q.plan = some (.select c)) :
    q.isValid = true ∧ (∀ e, (q.test e).value = (c.holds e).value) ∧
      ∀ payload, q.results payload = payload.filter fun e => (c.holds e).value := by
  have hvalid : q.isValid = true := by simp [isValid, herrors, Graph.isEmpty, hs.root]
  have hactive : q.activePlan? = some (.select c) := by rw [activePlan?, if_pos hvalid, hplan]
  refine ⟨hvalid, fun e => ?_, fun payload => ?_⟩
  · rw [test, hactive]
    rfl
  · have haligned : q.aligned payload = (Plan.select c).run q.mode payload := by
      rw [aligned, hactive]
    rw [results_eq, haligned, Plan.select_elements]

/-- **The query of one filter.**  If it is valid then nothing is wrong with the
filter, it is not skipped, and the query tests as the filter's condition
does. -/
theorem Engine.test_of_filter {text : String} {f : FilterExpression} {alone : Token} (mode : Mode)
    (hscan : scan engine.alphabet text = .ok [.filter f none alone])
    (hvalid : (engine.parse text mode).isValid = true) :
    (engine.judge f false).cause = none ∧ (engine.judge f false).skipped = false ∧
      (engine.compileFilter f alone).notes = [] ∧
      ∀ e, ((engine.compileFilter f alone).value.holds e).value =
        ((engine.parse text mode).test e).value := by
  have hderived : Disjunction text [.filter f none alone] (.leaf ⟨.filter f, alone⟩) :=
    .single (.single (.operand (.filter f alone)))
  obtain ⟨u, htree, hcontent, hmarked, hfaults⟩ :=
    Draft.derived_tree engine.knowledge hderived
  obtain ⟨herrors, v, hprune⟩ := prune_of_isValid mode hscan htree hvalid
  have hcause : (engine.judge f false).cause = none := by
    have hnone : engine.knowledge.faultsOf [.filter f none alone] = [] := hfaults.symm.trans herrors
    simpa [Knowledge.faultsOf, Knowledge.faults, Knowledge.filterFaults, knowledge] using hnone
  have hkept : (engine.judge f false).skipped = false := by
    cases hskipped : (engine.judge f false).skipped with
    | false => rfl
    | true => cases (hmarked.prune_skipped hcontent hskipped).symm.trans hprune
  have hleaf := hmarked.prune_leaf hcontent hkept trivial rfl
  obtain ⟨-, hnotes, hplan, s, hs, -⟩ :=
    parse_of_prune mode hscan htree herrors hleaf (.leaf rfl) rfl rfl
  rw [conditionOf_filter] at hnotes hplan
  have hclean : (engine.parse text mode).errors = [] := by
    rw [Query.isValid, Bool.and_eq_true] at hvalid
    exact List.isEmpty_iff.mp hvalid.1
  obtain ⟨-, htest, -⟩ := Query.select_of_plan hclean hs hplan
  exact ⟨hcause, hkept, hnotes.symm.trans hclean, fun e => (htest e).symm⟩

/-- What is known about a leaf from the query that it is by itself. -/
theorem Engine.IsLeaf.filter {text : String} (hengine : engine.Reachable) (h : engine.IsLeaf text)
    {f : FilterExpression} {block : Option NestedBlock} {alone : Token}
    (hscan : scan engine.alphabet text = .ok [.filter f block alone]) :
    (engine.judge f false).cause = none ∧ (engine.judge f false).skipped = false ∧
      ∀ token, (engine.compileFilter f token).notes = [] ∧
        ∀ e, ((engine.compileFilter f token).value.holds e).value =
          ((engine.parse text).test e).value := by
  obtain ⟨rfl, -, -⟩ := plainFilter?_of_scan (fun _ => hengine.isOperatorToken) h.plain hscan
  obtain ⟨hcause, hkept, hclean, hholds⟩ := test_of_filter .strict hscan h.valid
  refine ⟨hcause, hkept, fun token => ?_⟩
  obtain ⟨hclean', hvalue⟩ := compileFilter_token f alone token hclean
  exact ⟨hclean', fun e => by rw [← hvalue, hholds]⟩

/-- **A formula means as a query what it says.**  If each leaf is a filter of
plain characters that is a valid query by itself, then the text of the formula
is a valid query.  The graph that is evaluated is a selection by exactly the
tree of the formula, and the results are the elements of the payload for which
the formula is true, where a leaf is true if its own query tests so. -/
theorem formula_means_what_it_says (hengine : engine.Reachable) {x : Formula}
    (hleaves : ∀ text ∈ x.leaves, engine.IsLeaf text) (mode : Mode) :
    let q := engine.parse x.render mode
    q.isValid = true ∧
      (∃ u token t, q.graph.tree? = some u ∧ u.map Place.content = .node ⟨.select, token⟩ [t] ∧
        Formula.Says engine false x t) ∧
      ∀ payload, q.results payload =
        payload.filter fun e => x.eval fun text => ((engine.parse text).test e).value := by
  intro q
  have halphabet : ∀ op ∈ engine.alphabet, IsOperatorToken op := fun _ => hengine.isOperatorToken
  have hplain : ∀ text ∈ x.leaves, IsPlain text.toList := fun text ht => (hleaves text ht).plain
  have hfilter : ∀ text ∈ x.leaves, ∃ f block alone,
      scan engine.alphabet text = .ok [.filter f block alone] ∧
        (engine.judge f false).cause = none := by
    intro text ht
    obtain ⟨f, block, alone, hscan⟩ := (hleaves text ht).single
    exact ⟨f, block, alone, hscan, ((hleaves text ht).filter hengine hscan).1⟩
  obtain ⟨ls, t, -, hderived, hsaid, hfaults, hscanned⟩ :=
    Formula.scansAt halphabet x.render hplain hfilter 0
  have hscan : scan engine.alphabet x.render = .ok ls := by
    have hsteps := x.steps_le
    obtain ⟨k, hk⟩ : ∃ k, x.chars.length + 1 = k + x.steps :=
      ⟨x.chars.length + 1 - x.steps, by omega⟩
    have hwhole := hscanned k [] [] .nothing (by omega) (scanFrom_nil _ _)
    rw [← hk, List.append_nil, List.append_nil] at hwhole
    exact hwhole
  obtain ⟨u, htree, hcontent, hmarked, herrors⟩ :=
    Draft.derived_tree engine.knowledge (.single (.single hderived))
  obtain ⟨v, hprune, hsaid'⟩ := hsaid.prune engine.knowledge
    (fun text ht f block alone hscan => ((hleaves text ht).filter hengine hscan).2.1) hmarked
    hcontent
  obtain ⟨-, hnotes, hplan, s, hs, hselect⟩ := Engine.parse_of_prune mode hscan htree
    (herrors.trans hfaults) hprune hsaid'.saturated hsaid'.promote hsaid'.isEnumerable.1
  obtain ⟨hclean, hholds⟩ := hsaid'.condition
    (fun e text => ((engine.parse text).test e).value)
    fun text ht f block alone hscan => ((hleaves text ht).filter hengine hscan).2.2
  obtain ⟨hvalid, -, hresults⟩ := Query.select_of_plan (hnotes.trans hclean) hs hplan
  obtain ⟨w, hw, rfl⟩ := hs.exists_tree
  refine ⟨hvalid, ⟨w, v.label.token, v, hw, ?_, hsaid'⟩, fun payload => ?_⟩
  · rw [← hselect, Tree.map_map]
    rfl
  · rw [hresults]
    exact List.filter_congr fun e _ => hholds e

/-- The text `(-((on:false or on:false)) and on:true)` over a filter of
booleans. -/
theorem formula_of_one_filter :
    let engine : Engine Bool := (({} : Engine Bool).addFilter (.ofGetter "on" id)).1
    let off : Formula := .leaf "on:false"
    let x : Formula := .pair .and (.not (.pair .or off off)) (.leaf "on:true")
    engine.Reachable ∧ (∀ text ∈ x.leaves, engine.IsLeaf text) ∧
      x.render = "(-((on:false or on:false)) and on:true)" ∧
      (engine.parse x.render).results [true, false, true] = [true, true] := by
  intro engine off x
  have hengine : engine.Reachable := .step .new (.filter _ _)
  have hon : engine.IsLeaf "on:true" :=
    ⟨List.all_eq_true.mp rfl, ⟨_, _, _, rfl⟩, by decide +kernel⟩
  have hoff : engine.IsLeaf "on:false" :=
    ⟨List.all_eq_true.mp rfl, ⟨_, _, _, rfl⟩, by decide +kernel⟩
  have hleaves : ∀ text ∈ x.leaves, engine.IsLeaf text := by
    intro text ht
    have hcases : text = "on:false" ∨ text = "on:true" := by
      simpa [x, off, Formula.leaves] using ht
    rcases hcases with rfl | rfl
    · exact hoff
    · exact hon
  obtain ⟨-, -, hresults⟩ := formula_means_what_it_says hengine hleaves .strict
  exact ⟨hengine, hleaves, rfl, (hresults _).trans (by decide +kernel)⟩

end Queries

end FilterQuery
