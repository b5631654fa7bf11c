import FilterQuery.Proofs.Payloads
import FilterQuery.Proofs.SyntaxErrors

/-!
# Conditions and sets

The words and filters of a query are conditions, its nested queries are sets of
elements.  `and` and `or` combine either sort, but never both: a combinator with
a set on one side only is refused when sets are promoted, and a set below a
selection is refused when that is compiled.  So a valid query is a selection by
a condition in which no set stands but as the value of a filter, or an
expression of sets alone.  Neither refusal ever meets a query of one of these
two shapes.
-/

namespace FilterQuery.Graph

open Grammar (IsBlock)

/-- A condition: combinators over words and filters. -/
inductive IsPredicate : Tree Content → Prop where
  | binary {kind : NodeKind} {token : Token} {t u : Tree Content}
      (h : kind.isBinaryCombinator = true) (left : IsPredicate t) (right : IsPredicate u) :
      IsPredicate (.node ⟨kind, token⟩ [t, u])
  | not {token : Token} {t : Tree Content} (h : IsPredicate t) :
      IsPredicate (.node ⟨.not, token⟩ [t])
  | search (s : SearchExpression) (token : Token) : IsPredicate (.leaf ⟨.search s, token⟩)
  | filter (f : FilterExpression) (token : Token) : IsPredicate (.leaf ⟨.filter f, token⟩)
  | nestedFilter (f : FilterExpression) (token : Token) {t : Tree Content} (h : IsBlock t) :
      IsPredicate (.node ⟨.nestedFilter f, token⟩ [t])

/-- An expression of sets: `and` and `or` over nested queries. -/
inductive IsSetFormula : Tree Content → Prop where
  | binary {kind : NodeKind} {token : Token} {t u : Tree Content}
      (h : kind.isBinaryCombinator = true) (left : IsSetFormula t)
      (right : IsSetFormula u) : IsSetFormula (.node ⟨kind, token⟩ [t, u])
  | block {t : Tree Content} (h : IsBlock t) : IsSetFormula t

/-- A nested query or an aggregator stands in the tree, other than as the value
of a filter. -/
inductive HoldsSet : Tree Content → Prop where
  | root {c : Content} (ts : List (Tree Content)) (h : c.kind.isSetOperand = true) :
      HoldsSet (.node c ts)
  | operand {c : Content} {ts : List (Tree Content)} {t : Tree Content}
      (hvalue : ∀ f, c.kind ≠ .nestedFilter f) (ht : t ∈ ts) (h : HoldsSet t) :
      HoldsSet (.node c ts)

/-- A combinator as the set operation that it stands for among sets. -/
def Content.amongSets (c : Content) : Content :=
  { c with kind := (setOperation? c.kind).getD c.kind }

variable {t u : Tree Content}

/-- A combinator of two is no operand of sets alone. -/
theorem isSetOperand_of_isBinaryCombinator {kind : NodeKind}
    (h : kind.isBinaryCombinator = true) : kind.isSetOperand = false := by
  cases kind <;> first | rfl | cases h

/-- A predicate has nothing to enumerate. -/
theorem IsPredicate.isEnumerable (h : IsPredicate t) : t.label.kind.isEnumerable = false := by
  cases h with
  | binary h _ _ => exact isEnumerable_of_isBinaryCombinator h
  | not _ => rfl
  | search s token => rfl
  | filter f token => rfl
  | nestedFilter f token _ => rfl

/-- A predicate is no operand of sets. -/
theorem IsPredicate.isSetOperand (h : IsPredicate t) : t.label.kind.isSetOperand = false := by
  refine eq_false_of_ne_true fun hset => ?_
  cases h.isEnumerable.symm.trans (isEnumerable_of_isSetOperand hset)

/-- In a condition sets stand as values of filters only. -/
theorem IsPredicate.not_holdsSet (h : IsPredicate t) : ¬ HoldsSet t := by
  induction h with
  | binary h _ _ ihl ihr =>
      intro hset
      cases hset with
      | root _ hroot => cases (isSetOperand_of_isBinaryCombinator h).symm.trans hroot
      | operand _ hmem hbelow =>
          rcases List.mem_pair.mp hmem with rfl | rfl
          · exact ihl hbelow
          · exact ihr hbelow
  | not _ ih =>
      intro hset
      cases hset with
      | root _ hroot => cases hroot
      | operand _ hmem hbelow =>
          obtain rfl := List.mem_singleton.mp hmem
          exact ih hbelow
  | search s token =>
      intro hset
      cases hset with
      | root _ hroot => cases hroot
      | operand _ hmem _ => cases hmem
  | filter f token =>
      intro hset
      cases hset with
      | root _ hroot => cases hroot
      | operand _ hmem _ => cases hmem
  | nestedFilter f token _ =>
      intro hset
      cases hset with
      | root _ hroot => cases hroot
      | operand hvalue _ _ => exact hvalue f rfl

/-- **A query in which no set stands is a condition.** -/
theorem IsPruned.isPredicate_of_no_set (h : IsPruned t) (hset : ¬ HoldsSet t) : IsPredicate t := by
  induction h with
  | @binary kind token t u h _ _ ihl ihr =>
      have hvalue : ∀ f, (⟨kind, token⟩ : Content).kind ≠ .nestedFilter f := by
        rintro f rfl
        cases h
      exact .binary h (ihl fun ht => hset (.operand hvalue (by simp) ht))
        (ihr fun hu => hset (.operand hvalue (by simp) hu))
  | not _ ih => exact .not (ih fun ht => hset (.operand nofun (by simp) ht))
  | search s token => exact .search s token
  | filter f token => exact .filter f token
  | nestedFilter f token h => exact .nestedFilter f token h
  | block h =>
      exfalso
      cases h with
      | query q token => exact hset (.root _ rfl)
      | aggregator name q token token' => exact hset (.root _ rfl)

/-- Conjunctions have an operation on sets, and so have disjunctions. -/
theorem setOperation?_of_isBinaryCombinator {kind : NodeKind}
    (h : kind.isBinaryCombinator = true) :
    kind = .and ∧ setOperation? kind = some .intersection ∨
      kind = .or ∧ setOperation? kind = some .union := by
  cases kind <;> first | exact .inl ⟨rfl, rfl⟩ | exact .inr ⟨rfl, rfl⟩ | cases h

section Pair

variable {kind : NodeKind} (h : kind.isBinaryCombinator = true) (token : Token)

include h

/-- A combinator of two sets becomes a set operation. -/
theorem promoteNode_sets (ht : t.label.kind.isSetOperand = true)
    (hu : u.label.kind.isSetOperand = true) :
    promoteNode ⟨kind, token⟩ [t, u] = pure (.node (Content.amongSets ⟨kind, token⟩) [t, u]) := by
  rcases setOperation?_of_isBinaryCombinator h with ⟨-, hoperation⟩ | ⟨-, hoperation⟩
  · simp [promoteNode, Content.amongSets, hoperation, ht, hu]
  · simp [promoteNode, Content.amongSets, hoperation, ht, hu]

end Pair

/-- Promotion of two operands promotes each, and then the node over them. -/
theorem promote_pair (c : Content) (t u : Tree Content) :
    promote (.node c [t, u]) =
      ⟨(promoteNode c [(promote t).value, (promote u).value]).value,
        (promote t).notes ++ (promote u).notes ++
          (promoteNode c [(promote t).value, (promote u).value]).notes⟩ := by
  have hnode := promote_node c [t, u]
  have hnotes : [t, u].flatMap (fun t => (promote t).notes) =
      (promote t).notes ++ (promote u).notes := by simp
  rw [hnotes] at hnode
  exact congrArg₂ Noted.mk hnode.1 hnode.2

/-- Promotion of a negation promotes what is negated. -/
theorem promote_not (token : Token) (t : Tree Content) :
    promote (.node ⟨.not, token⟩ [t]) =
      ⟨.node ⟨.not, token⟩ [(promote t).value], (promote t).notes⟩ := by
  have hnode := promote_node ⟨.not, token⟩ [t]
  have hnotes : (promote (.node ⟨.not, token⟩ [t])).notes = (promote t).notes := by
    rw [hnode.2]
    simp [promoteNode, setOperation?]
  exact congrArg₂ Noted.mk hnode.1 hnotes

/-- Nothing is promoted in a condition. -/
theorem IsPredicate.promote (h : IsPredicate t) : promote t = pure t := by
  induction h with
  | @binary kind token t u h hl hr ihl ihr =>
      rw [promote_pair, ihl, ihr]
      have hnone := Formula.promoteNode_pair ⟨kind, token⟩ hl.isSetOperand hr.isSetOperand
      rw [Noted.value_pure, Noted.value_pure, hnone]
      rfl
  | not _ ih =>
      rw [promote_not, ih]
      rfl
  | search s token => rfl
  | filter f token => rfl
  | nestedFilter f token h => cases h <;> rfl

/-- **Everything is promoted in an expression of sets.** -/
theorem IsSetFormula.promote (h : IsSetFormula t) :
    promote t = pure (t.map Content.amongSets) ∧ IsSetTree (t.map Content.amongSets) := by
  induction h with
  | @binary kind token t u h _ _ ihl ihr =>
      have hpair := promoteNode_sets h token ihl.2.isSetOperand ihr.2.isSetOperand
      have hmap : (Tree.node ⟨kind, token⟩ [t, u]).map Content.amongSets =
          .node (Content.amongSets ⟨kind, token⟩)
            [t.map Content.amongSets, u.map Content.amongSets] := rfl
      rw [hmap, promote_pair, ihl.1, ihr.1, Noted.value_pure, Noted.value_pure, hpair]
      refine ⟨rfl, ?_⟩
      rcases setOperation?_of_isBinaryCombinator h with ⟨rfl, -⟩ | ⟨rfl, -⟩
      · exact .intersection ihl.2 ihr.2
      · exact .union ihl.2 ihr.2
  | @block t h =>
      have hmap : t.map Content.amongSets = t := by cases h <;> rfl
      rw [hmap]
      exact ⟨by cases h <;> rfl, .block h⟩

/-- What has been promoted to a set is an expression of sets. -/
theorem IsPruned.isSetFormula (h : IsPruned t)
    (hset : (Graph.promote t).value.label.kind.isSetOperand = true) : IsSetFormula t := by
  induction h with
  | @binary kind token t u h _ _ ihl ihr =>
      rw [promote_pair] at hset
      rcases promoteNode_cases ⟨kind, token⟩ [(Graph.promote t).value, (Graph.promote u).value] with
        hvalue | ⟨-, -, hoperands, -⟩
      · rw [hvalue] at hset
        cases (isSetOperand_of_isBinaryCombinator h).symm.trans hset
      · exact .binary h (ihl (hoperands _ (by simp))) (ihr (hoperands _ (by simp)))
  | not _ _ =>
      rw [promote_not] at hset
      cases hset
  | search s token => cases hset
  | filter f token => cases hset
  | nestedFilter f token h => cases h <;> cases hset
  | block h => exact .block h

variable {α : Type} {engine : Engine α}

/-- A set cannot be compiled to a condition. -/
theorem conditionOf_ne_nil (h : t.label.kind.isSetOperand = true) :
    (engine.conditionOf t).notes ≠ [] := by
  intro hclean
  obtain ⟨c, ts⟩ := t
  cases (Engine.isConditionNode_of_clean hclean).isSetOperand.symm.trans h

/-- **What is refused neither when it is promoted nor when it is compiled is a
condition.** -/
theorem IsPruned.isPredicate (h : IsPruned t) (hpromote : (Graph.promote t).notes = [])
    (hclean : (engine.conditionOf (Graph.promote t).value).notes = []) : IsPredicate t := by
  induction h with
  | @binary kind token t u h _ _ ihl ihr =>
      rw [promote_pair] at hpromote hclean
      obtain ⟨hbelow, hnode⟩ := List.append_eq_nil_iff.mp hpromote
      obtain ⟨hl, hr⟩ := List.append_eq_nil_iff.mp hbelow
      rcases promoteNode_cases ⟨kind, token⟩ [(Graph.promote t).value, (Graph.promote u).value] with
        hvalue | ⟨operation, hoperation, -, hvalue⟩
      · rw [hvalue] at hclean
        rcases setOperation?_of_isBinaryCombinator h with ⟨rfl, -⟩ | ⟨rfl, -⟩
        · rw [Engine.conditionOf_and] at hclean
          simp only [Noted.notes_bind, Noted.notes_pure, List.append_nil,
            List.append_eq_nil_iff] at hclean
          exact .binary h (ihl hl hclean.1) (ihr hr hclean.2)
        · rw [Engine.conditionOf_or] at hclean
          simp only [Noted.notes_bind, Noted.notes_pure, List.append_nil,
            List.append_eq_nil_iff] at hclean
          exact .binary h (ihl hl hclean.1) (ihr hr hclean.2)
      · exfalso
        rw [hvalue] at hclean
        refine conditionOf_ne_nil ?_ hclean
        rcases setOperation?_of_isBinaryCombinator h with ⟨-, heq⟩ | ⟨-, heq⟩
        · obtain rfl := Option.some.inj (heq.symm.trans hoperation)
          rfl
        · obtain rfl := Option.some.inj (heq.symm.trans hoperation)
          rfl
  | not _ ih =>
      rw [promote_not] at hpromote hclean
      rw [Engine.conditionOf_not] at hclean
      simp only [Noted.notes_bind, Noted.notes_pure, List.append_nil] at hclean
      exact .not (ih hpromote hclean)
  | search s token => exact .search s token
  | filter f token => exact .filter f token
  | nestedFilter f token h => exact .nestedFilter f token h
  | @block t h =>
      exfalso
      rw [promote_of_isBlock h] at hclean
      refine conditionOf_ne_nil ?_ hclean
      cases h <;> rfl

/-- What is wrong with a condition is wrong with a leaf of it. -/
theorem IsPredicate.conditionOf_leaves (h : IsPredicate t) :
    Engine.NotesLeaves (engine.conditionOf t) := by
  induction h with
  | @binary kind token t u h _ _ ihl ihr =>
      rcases setOperation?_of_isBinaryCombinator h with ⟨rfl, -⟩ | ⟨rfl, -⟩
      · rw [Engine.conditionOf_and]
        exact ihl.bind fun _ => ihr.bind fun _ => .pure _
      · rw [Engine.conditionOf_or]
        exact ihl.bind fun _ => ihr.bind fun _ => .pure _
  | not _ ih =>
      rw [Engine.conditionOf_not]
      exact ih.bind fun _ => .pure _
  | search s token => exact Engine.compileSearch_leaves token s
  | filter f token => exact Engine.compileFilter_leaves token f
  | nestedFilter f token h =>
      rw [Engine.conditionOf_nestedFilter]
      exact Engine.compileNestedFilter_leaves token f (planOf_block_leaves h)

end FilterQuery.Graph

namespace FilterQuery.Engine

open FilterQuery.Graph

variable {α : Type} {engine : Engine α} {text : String} {mode : Mode}

/-- An engine finds nothing wrong with a name but what it means by itself. -/
theorem knowledge_blames (engine : Engine α) : engine.knowledge.Blames Cause.IsOfLeaf where
  judge f nested cause hcause := by
    rcases cause_of_judge hcause with rfl | rfl | rfl <;> exact ⟨rfl, rfl⟩
  aggregator _ := ⟨rfl, rfl⟩
  nested _ := ⟨rfl, rfl⟩

/-- The draft of a query without fatal errors has none. -/
theorem draft_of_no_fatal {ls : List Lexeme} (hscan : Lexeme.scan engine.alphabet text = .ok ls)
    (hfatal : ∀ e ∈ (engine.parse text mode).errors, e.isFatal = false) :
    ∀ e ∈ (Draft.ofLexemes engine.knowledge text ls).errors, e.isFatal = false := by
  intro e he
  refine eq_false_of_ne_true fun hfatal' => ?_
  have hmem : e ∈ (engine.parse text mode).errors.filter (·.isFatal) := by
    rw [parse_fatal mode hscan]
    exact List.mem_filter.mpr ⟨he, hfatal'⟩
  rw [hfatal e (List.mem_filter.mp hmem).1] at hfatal'
  cases hfatal'

/-- An error of a query is one of its draft, or of the way to evaluation, or of
the plan. -/
theorem mem_errors_cases {ls : List Lexeme} (hscan : Lexeme.scan engine.alphabet text = .ok ls)
    {e : QueryError} (he : e ∈ (engine.parse text mode).errors) :
    let draft := Draft.ofLexemes engine.knowledge text ls
    e ∈ draft.errors ∨ e ∈ draft.evaluation.notes ∨
      e ∈ (engine.compile draft.evaluation.value).notes := by
  intro draft
  obtain ⟨q, hq, hengine, -, hgraph, herrors⟩ := parse_eq mode hscan
  rw [hq, Query.compile] at he
  split at he
  · rw [hengine, hgraph] at he
    exact .inr (.inr he)
  · rw [herrors] at he
    exact (List.mem_append.mp he).imp_right .inl

/-- The graph of a tree compiles to the plan of the tree. -/
theorem compile_ofTree (engine : Engine α) (t : Tree Content) :
    engine.compile (ofTree t) =
      ⟨some (engine.planOf t).value, (engine.planOf t).notes⟩ := by
  obtain ⟨s, hcopy, hs, -⟩ := ofTree_holds t
  have hcompile : engine.compile (ofTree t) = _ := hs.compile
  rw [hcopy.content] at hcompile
  exact hcompile

/-- The tree of the graph that is evaluated. -/
def evaluated? (q : Query α) : Option (Tree Content) := q.graph.tree?.map (Tree.map Place.content)

/-- The tree that a query evaluates is the one that its graph was made of. -/
theorem evaluated?_of_ofTree {q : Query α} {t : Tree Content} (h : q.graph = ofTree t) :
    evaluated? q = some t := by
  obtain ⟨u, hu, rfl, -⟩ := ofTree_tree? t
  rw [evaluated?, h, hu]
  rfl

/-- What the evaluation of a query starts from: its lexemes, and the tree that
pruning leaves. -/
structure Evaluates (engine : Engine α) (text : String) (mode : Mode) (ls : List Lexeme)
    (t : Tree Content) : Prop where
  scan : Lexeme.scan engine.alphabet text = .ok ls
  errors : (Draft.ofLexemes engine.knowledge text ls).errors = []
  pruned : (Draft.ofLexemes engine.knowledge text ls).graph.tree?.bind prune = some t
  shape : IsConditionTree t
  promoted : (promote t).notes = []
  graph : (engine.parse text mode).graph = ofTree (enumerated (promote t).value)
  clean : (engine.planOf (enumerated (promote t).value)).notes = []
  plan : (engine.parse text mode).activePlan? =
    some (engine.planOf (enumerated (promote t).value)).value

/-- **A valid query is evaluated by the plan of a tree.** -/
theorem exists_evaluates (hvalid : (engine.parse text mode).isValid = true) :
    ∃ ls t, engine.Evaluates text mode ls t := by
  have hclean : (engine.parse text mode).errors = [] := by
    rw [Query.isValid, Bool.and_eq_true] at hvalid
    exact List.isEmpty_iff.mp hvalid.1
  cases hscan : Lexeme.scan engine.alphabet text with
  | error e =>
      rw [parse, hscan] at hclean
      cases hclean
  | ok ls =>
      obtain ⟨hdraft, hnotes⟩ := draft_of_clean mode hscan hclean
      have hfatal : ∀ e ∈ (Draft.ofLexemes engine.knowledge text ls).errors,
          e.isFatal = false := by simp [hdraft]
      rcases Draft.evaluation_of_clean hfatal with ⟨-, hnothing⟩ | ⟨t, ht, hcondition, hsome⟩
      · rw [Query.isValid, (parse_of_nothing mode hscan hdraft hnothing).1,
          Bool.and_eq_true] at hvalid
        cases hvalid.2
      · rw [hsome] at hnotes
        have hpromote : (promote t).notes = [] := hnotes
        rw [hpromote] at hsome
        obtain ⟨-, hgraph, herrors, hplan⟩ := parse_of_tree mode hscan hdraft hsome
        refine ⟨ls, t, hscan, hdraft, ht, hcondition, hpromote, hgraph, ?_, ?_⟩
        · rw [← herrors, hclean]
        · rw [Query.activePlan?, if_pos hvalid, hplan]

/-- **A valid query is of one of two shapes.** -/
theorem shape_of_isValid (hvalid : (engine.parse text mode).isValid = true) :
    ∃ t, (engine.parse text mode).queryGraph.tree?.bind prune = some t ∧
      (IsPredicate t ∧
          evaluated? (engine.parse text mode) = some (.node ⟨.select, t.label.token⟩ [t]) ∨
        IsSetFormula t ∧
          evaluated? (engine.parse text mode) = some (t.map Content.amongSets)) := by
  obtain ⟨ls, t, h⟩ := exists_evaluates hvalid
  have hfatal : ∀ e ∈ (Draft.ofLexemes engine.knowledge text ls).errors, e.isFatal = false := by
    simp [h.errors]
  have hpruned : IsPruned t := Draft.isPruned_of_no_fatal hfatal h.pruned
  have hplan := h.clean
  refine ⟨t, by rw [(parse_form mode h.scan).2.2.2, h.pruned], ?_⟩
  rw [evaluated?_of_ofTree h.graph]
  unfold enumerated at hplan ⊢
  by_cases hkind : (promote t).value.label.kind.isEnumerable = true
  · have hset : IsSetFormula t :=
      hpruned.isSetFormula (h.shape.promote.isSetTree hkind).isSetOperand
    rw [if_pos hkind, hset.promote.1]
    exact .inr ⟨hset, rfl⟩
  · rw [if_neg hkind, planOf_select] at hplan
    have hcondition : (engine.conditionOf (promote t).value).notes = [] := by simpa using hplan
    have hpredicate : IsPredicate t := hpruned.isPredicate h.promoted hcondition
    rw [if_neg hkind, hpredicate.promote]
    exact .inl ⟨hpredicate, rfl⟩

/-- **A query of one of two shapes is not refused for what it combines.** -/
theorem not_isMixture_of_shape
    (hfatal : ∀ e ∈ (engine.parse text mode).errors, e.isFatal = false) {t : Tree Content}
    (ht : (engine.parse text mode).queryGraph.tree?.bind prune = some t)
    (hshape : ¬ HoldsSet t ∨ IsSetFormula t) :
    ∀ e ∈ (engine.parse text mode).errors, e.cause.isMixture = false := by
  intro e he
  cases hscan : Lexeme.scan engine.alphabet text with
  | error e =>
      rw [parse, hscan] at ht
      cases ht
  | ok ls =>
      have hdraft := draft_of_no_fatal hscan hfatal
      rw [(parse_form mode hscan).2.2.2] at ht
      rcases Draft.evaluation_of_clean hdraft with ⟨hnone, -⟩ | ⟨v, hv, -, hsome⟩
      · cases hnone.symm.trans ht
      obtain rfl : v = t := Option.some.inj (hv.symm.trans ht)
      -- Nothing is noted on the way to evaluation, and what compiling notes is about leaves.
      have hclean : (promote v).notes = [] ∧
          NotesLeaves (engine.planOf (enumerated (promote v).value)) := by
        unfold enumerated
        rcases hshape with hset | hset
        · have hpredicate := (Draft.isPruned_of_no_fatal hdraft hv).isPredicate_of_no_set hset
          rw [hpredicate.promote, Noted.value_pure, if_neg (by simp [hpredicate.isEnumerable]),
            planOf_select]
          exact ⟨rfl, hpredicate.conditionOf_leaves.bind fun _ => .pure _⟩
        · obtain ⟨hpromote, htree⟩ := hset.promote
          have hkind := isEnumerable_of_isSetOperand htree.isSetOperand
          rw [hpromote, Noted.value_pure, if_pos hkind]
          exact ⟨rfl, htree.planOf_leaves⟩
      rcases mem_errors_cases hscan he with he | he | he
      · exact (Draft.cause_of_no_fatal hdraft engine.knowledge_blames e he).isMixture
      · rw [hsome, hclean.1] at he
        cases he
      · rw [hsome, compile_ofTree] at he
        exact (hclean.2 e he).isMixture

/-- **Conditions and sets never mix in a valid query.**  Of a valid query
pruning leaves either a condition, in which no set stands but as the value of a
filter, and what is evaluated is the selection by it; or an expression of sets,
and what is evaluated is that with every combinator as a set operation.  A query
of one of these two shapes without a fatal error is never refused for mixing
them. -/
theorem conditions_and_sets_never_mix (engine : Engine α) (text : String) (mode : Mode)
    (hfatal : ∀ e ∈ (engine.parse text mode).errors, e.isFatal = false) :
    let q := engine.parse text mode
    (q.isValid = true → ∃ t, q.queryGraph.tree?.bind prune = some t ∧
      ((¬ HoldsSet t ∧ IsPredicate t) ∧
          evaluated? q = some (.node ⟨.select, t.label.token⟩ [t]) ∨
        IsSetFormula t ∧ evaluated? q = some (t.map Content.amongSets))) ∧
      ∀ t, q.queryGraph.tree?.bind prune = some t → (¬ HoldsSet t ∨ IsSetFormula t) →
        ∀ e ∈ q.errors, e.cause ≠ .mixedOperations ∧ e.cause ≠ .nestedQueryAsCondition := by
  intro q
  refine ⟨fun hvalid => ?_, fun t ht hshape e he => ?_⟩
  · obtain ⟨t, ht, hshape⟩ := shape_of_isValid hvalid
    refine ⟨t, ht, hshape.imp_left fun ⟨hpredicate, hevaluated⟩ => ?_⟩
    exact ⟨⟨hpredicate.not_holdsSet, hpredicate⟩, hevaluated⟩
  · have hcause := not_isMixture_of_shape hfatal ht hshape e he
    constructor
    · intro heq
      rw [heq] at hcause
      cases hcause
    · intro heq
      rw [heq] at hcause
      cases hcause

/-- The text `{a} (first{b} or {c})`, a valid expression of three sets. -/
theorem sets_of_three_queries :
    let engine : Engine Nat := { nestedHandler := some fun _ _ => [] }
    let q := engine.parse "\x7ba\x7d (first\x7bb\x7d or \x7bc\x7d)"
    q.isValid = true ∧ ∃ t, q.queryGraph.tree?.bind prune = some t ∧ IsSetFormula t ∧
      evaluated? q = some (t.map Content.amongSets) := by
  intro engine q
  have hvalid : q.isValid = true := by decide +kernel
  have hroot : (evaluated? q).map (·.label.kind) = some .intersection := by decide +kernel
  have hclean : q.errors = [] := by decide +kernel
  have hfatal : ∀ e ∈ q.errors, e.isFatal = false := by simp [hclean]
  obtain ⟨t, ht, hshape⟩ := (conditions_and_sets_never_mix engine _ .strict hfatal).1 hvalid
  rcases hshape with ⟨-, hselect⟩ | ⟨hset, hevaluated⟩
  · rw [hselect] at hroot
    cases hroot
  · exact ⟨hvalid, t, ht, hset, hevaluated⟩

end FilterQuery.Engine
