import FilterQuery.Graph.Evaluation
import FilterQuery.Proofs.Grammar
import FilterQuery.Proofs.Passes

/-!
# Trees that are evaluated

The tree of an evaluation graph has one of two shapes: nested queries below set
operations, or a selection by a condition.  A condition is built from filters
and words by the combinators; nested queries may stand in it as well, which no
plan allows but is an error of meaning only.

Promotion turns conditions of nested queries into set operations, the root
becomes a selection if it yields no elements by itself, and optimization
rewrites below it.  None of them leaves these shapes.
-/

namespace FilterQuery.Graph

open Grammar (IsBlock IsQueryTree)

/-- Trees are promoted one by one. -/
theorem promoteAll_eq (ts : List (Tree Content)) :
    promoteAll ts = ⟨ts.map fun t => (promote t).value, ts.flatMap fun t => (promote t).notes⟩ := by
  induction ts with
  | nil => rfl
  | cons t ts ih =>
      simp only [promoteAll, ih, bind, pure, List.map_cons, List.flatMap_cons, List.append_nil]

/-- A node is promoted behind the trees below it. -/
theorem promote_node (c : Content) (ts : List (Tree Content)) :
    (promote (.node c ts)).value = (promoteNode c (ts.map fun t => (promote t).value)).value ∧
      (promote (.node c ts)).notes = ts.flatMap (fun t => (promote t).notes) ++
        (promoteNode c (ts.map fun t => (promote t).value)).notes := by
  rw [promote, promoteAll_eq]
  exact ⟨rfl, rfl⟩

/-- A promoted node is a set operation over operands that yield elements; any
other stays what it is. -/
theorem promoteNode_cases (c : Content) (ts : List (Tree Content)) :
    (promoteNode c ts).value = .node c ts ∨
      ∃ operation, setOperation? c.kind = some operation ∧
        (∀ t ∈ ts, t.label.kind.isSetOperand = true) ∧
        (promoteNode c ts).value = .node { c with kind := operation } ts := by
  unfold promoteNode
  split
  · exact .inl rfl
  · next operation hoperation =>
      split
      · next hall => exact .inr ⟨operation, hoperation, List.all_eq_true.mp hall, rfl⟩
      · split
        · exact .inl rfl
        · exact .inl rfl

/-- Promoting a node notes errors of meaning only. -/
theorem promoteNode_semantic (c : Content) (ts : List (Tree Content)) :
    ∀ e ∈ (promoteNode c ts).notes, e.kind = .semantic := by
  intro e he
  unfold promoteNode at he
  split at he
  · simp at he
  · split at he
    · simp at he
    · split at he
      · obtain rfl := List.mem_singleton.mp he
        rfl
      · simp at he

/-- Promoting a tree notes errors of meaning only. -/
theorem promote_semantic (t : Tree Content) : ∀ e ∈ (promote t).notes, e.kind = .semantic := by
  induction t with
  | node c ts ih =>
      intro e he
      rw [(promote_node c ts).2] at he
      rcases List.mem_append.mp he with he | he
      · obtain ⟨t, ht, het⟩ := List.mem_flatMap.mp he
        exact ih t ht e het
      · exact promoteNode_semantic _ _ e he

/-- An operation on sets has as many operands as the combinator that it comes
from. -/
theorem arity_of_setOperation {kind operation : NodeKind}
    (h : setOperation? kind = some operation) : operation.arity = kind.arity := by
  unfold setOperation? at h
  split at h
  · obtain rfl := Option.some.inj h
    rfl
  · obtain rfl := Option.some.inj h
    rfl
  · cases h

/-- Promoting keeps the number of operands. -/
theorem promote_saturated {t : Tree Content} (h : Saturated t) :
    Saturated (promote t).value := by
  induction h with
  | @node c ts arity below ih =>
      have hbelow : ∀ u ∈ ts.map fun t => (promote t).value, Saturated u := by
        intro u hu
        obtain ⟨t, ht, rfl⟩ := List.mem_map.mp hu
        exact ih t ht
      rw [(promote_node c ts).1]
      rcases promoteNode_cases c (ts.map fun t => (promote t).value) with hvalue | hpromoted
      · rw [hvalue]
        exact .node (by simpa using arity) hbelow
      · obtain ⟨operation, hoperation, -, hvalue⟩ := hpromoted
        rw [hvalue]
        exact .node (by simpa [arity_of_setOperation hoperation] using arity) hbelow

/-- Making a tree enumerable keeps the number of operands. -/
theorem enumerated_saturated {t : Tree Content} (h : Saturated t) : Saturated (enumerated t) := by
  unfold enumerated
  split
  · exact h
  · exact .one rfl h

/-- What pruning leaves of a query: combinators over words, filters and nested
queries. -/
inductive IsPruned : Tree Content → Prop where
  | binary {kind : NodeKind} {token : Token} {t u : Tree Content}
      (h : kind.isBinaryCombinator = true) (left : IsPruned t) (right : IsPruned u) :
      IsPruned (.node ⟨kind, token⟩ [t, u])
  | not {token : Token} {t : Tree Content} (h : IsPruned t) : IsPruned (.node ⟨.not, token⟩ [t])
  | search (s : SearchExpression) (token : Token) : IsPruned (.leaf ⟨.search s, token⟩)
  | filter (f : FilterExpression) (token : Token) : IsPruned (.leaf ⟨.filter f, token⟩)
  | nestedFilter (f : FilterExpression) (token : Token) {t : Tree Content} (h : IsBlock t) :
      IsPruned (.node ⟨.nestedFilter f, token⟩ [t])
  | block {t : Tree Content} (h : IsBlock t) : IsPruned t

/-- Nested queries below set operations, which yield elements of their own. -/
inductive IsSetTree : Tree Content → Prop where
  | block {t : Tree Content} (h : IsBlock t) : IsSetTree t
  | intersection {token : Token} {t u : Tree Content} (left : IsSetTree t) (right : IsSetTree u) :
      IsSetTree (.node ⟨.intersection, token⟩ [t, u])
  | union {token : Token} {t u : Tree Content} (left : IsSetTree t) (right : IsSetTree u) :
      IsSetTree (.node ⟨.union, token⟩ [t, u])

/-- A condition, in which nested queries may stand out of place. -/
inductive IsConditionTree : Tree Content → Prop where
  | binary {kind : NodeKind} {token : Token} {t u : Tree Content}
      (h : kind.isBinaryCombinator = true) (left : IsConditionTree t)
      (right : IsConditionTree u) : IsConditionTree (.node ⟨kind, token⟩ [t, u])
  | not {token : Token} {t : Tree Content} (h : IsConditionTree t) :
      IsConditionTree (.node ⟨.not, token⟩ [t])
  | search (s : SearchExpression) (token : Token) : IsConditionTree (.leaf ⟨.search s, token⟩)
  | filter (f : FilterExpression) (token : Token) : IsConditionTree (.leaf ⟨.filter f, token⟩)
  | nestedFilter (f : FilterExpression) (token : Token) {t : Tree Content} (h : IsBlock t) :
      IsConditionTree (.node ⟨.nestedFilter f, token⟩ [t])
  | set {t : Tree Content} (h : IsSetTree t) : IsConditionTree t

/-- What a query evaluates: sets of elements, or a selection from the
payload. -/
inductive IsEvaluationTree : Tree Content → Prop where
  | set {t : Tree Content} (h : IsSetTree t) : IsEvaluationTree t
  | select {token : Token} {t : Tree Content} (h : IsConditionTree t) :
      IsEvaluationTree (.node ⟨.select, token⟩ [t])

section Shapes

variable {t u : Tree Content}

/-- A nested query has as many operands as it should. -/
theorem saturated_of_isBlock (h : IsBlock t) : Saturated t := by
  cases h with
  | query q token => exact .leaf rfl
  | aggregator name q token token' => exact .one rfl (.leaf rfl)

/-- A query has as many operands everywhere as it should. -/
theorem saturated_of_isQueryTree (h : IsQueryTree t) : Saturated t := by
  induction h with
  | binary h _ _ ihl ihr => exact .two (arity_of_isBinaryCombinator h) ihl ihr
  | not _ ih => exact .one rfl ih
  | group _ ih => exact .one rfl ih
  | search s token => exact .leaf rfl
  | filter f token => exact .leaf rfl
  | nestedFilter f token h => exact .one rfl (saturated_of_isBlock h)
  | block h => exact saturated_of_isBlock h
  | toggle name token => exact .leaf rfl
  | comment content token => exact .leaf rfl

/-- What pruning leaves is a condition. -/
theorem IsPruned.isConditionTree (h : IsPruned t) : IsConditionTree t := by
  induction h with
  | binary h _ _ ihl ihr => exact .binary h ihl ihr
  | not _ ih => exact .not ih
  | search s token => exact .search s token
  | filter f token => exact .filter f token
  | nestedFilter f token h => exact .nestedFilter f token h
  | block h => exact .set (.block h)

/-- A tree of sets has as many operands as it should. -/
theorem IsSetTree.saturated (h : IsSetTree t) : Saturated t := by
  induction h with
  | block h => exact saturated_of_isBlock h
  | intersection _ _ ihl ihr => exact .two rfl ihl ihr
  | union _ _ ihl ihr => exact .two rfl ihl ihr

/-- A condition has as many operands as it should. -/
theorem IsConditionTree.saturated (h : IsConditionTree t) : Saturated t := by
  induction h with
  | binary h _ _ ihl ihr => exact .two (arity_of_isBinaryCombinator h) ihl ihr
  | not _ ih => exact .one rfl ih
  | search s token => exact .leaf rfl
  | filter f token => exact .leaf rfl
  | nestedFilter f token h => exact .one rfl (saturated_of_isBlock h)
  | set h => exact h.saturated

/-- What a query evaluates has as many operands as it should. -/
theorem IsEvaluationTree.saturated (h : IsEvaluationTree t) : Saturated t := by
  cases h with
  | set h => exact h.saturated
  | select h => exact .one rfl h.saturated

/-- The root of a tree of sets is a set operand. -/
theorem IsSetTree.isSetOperand (h : IsSetTree t) : t.label.kind.isSetOperand = true := by
  cases h with
  | block h => cases h <;> rfl
  | intersection _ _ => rfl
  | union _ _ => rfl

/-- Set operands can be enumerated. -/
theorem isEnumerable_of_isSetOperand {kind : NodeKind} (h : kind.isSetOperand = true) :
    kind.isEnumerable = true := by
  cases kind <;> first | rfl | cases h

/-- What a query evaluates can be enumerated. -/
theorem IsEvaluationTree.isEnumerable (h : IsEvaluationTree t) :
    t.label.kind.isEnumerable = true := by
  cases h with
  | set h => exact isEnumerable_of_isSetOperand h.isSetOperand
  | select _ => rfl

/-- A condition that yields elements is one of sets. -/
theorem IsConditionTree.isSetTree (h : IsConditionTree t)
    (hkind : t.label.kind.isEnumerable = true) : IsSetTree t := by
  cases h with
  | binary h _ _ => cases (isEnumerable_of_isBinaryCombinator h).symm.trans hkind
  | not _ => cases hkind
  | search s token => cases hkind
  | filter f token => cases hkind
  | nestedFilter f token _ => cases hkind
  | set h => exact h

/-- There is nothing to promote in a nested query. -/
theorem promote_of_isBlock (h : IsBlock t) : (promote t).value = t := by
  cases h with
  | query q token => rfl
  | aggregator name q token token' => rfl

/-- There is nothing to promote in sets. -/
theorem IsSetTree.promote (h : IsSetTree t) : (promote t).value = t := by
  induction h with
  | block h => exact promote_of_isBlock h
  | intersection _ _ ihl ihr =>
      rw [(promote_node _ _).1, List.map_cons, List.map_cons, List.map_nil, ihl, ihr]
      rfl
  | union _ _ ihl ihr =>
      rw [(promote_node _ _).1, List.map_cons, List.map_cons, List.map_nil, ihl, ihr]
      rfl

/-- **Promotion keeps conditions.** -/
theorem IsConditionTree.promote (h : IsConditionTree t) : IsConditionTree (promote t).value := by
  induction h with
  | @binary kind token t u h _ _ ihl ihr =>
      rw [(promote_node _ _).1, List.map_cons, List.map_cons, List.map_nil]
      rcases promoteNode_cases ⟨kind, token⟩ [(Graph.promote t).value, (Graph.promote u).value] with
        hvalue | ⟨operation, hoperation, hoperands, hvalue⟩
      · rw [hvalue]
        exact .binary h ihl ihr
      · have hl : IsSetTree (Graph.promote t).value :=
          ihl.isSetTree (isEnumerable_of_isSetOperand (hoperands _ (by simp)))
        have hr : IsSetTree (Graph.promote u).value :=
          ihr.isSetTree (isEnumerable_of_isSetOperand (hoperands _ (by simp)))
        rw [hvalue]
        unfold setOperation? at hoperation
        split at hoperation
        · obtain rfl := Option.some.inj hoperation
          exact .set (.intersection hl hr)
        · obtain rfl := Option.some.inj hoperation
          exact .set (.union hl hr)
        · cases hoperation
  | @not token t _ ih =>
      have hvalue : (Graph.promote (.node ⟨.not, token⟩ [t])).value =
          .node ⟨.not, token⟩ [(Graph.promote t).value] := (promote_node _ _).1
      rw [hvalue]
      exact .not ih
  | search s token => exact .search s token
  | filter f token => exact .filter f token
  | @nestedFilter f token t h =>
      have hvalue : (Graph.promote (.node ⟨.nestedFilter f, token⟩ [t])).value =
          .node ⟨.nestedFilter f, token⟩ [(Graph.promote t).value] := (promote_node _ _).1
      rw [hvalue, promote_of_isBlock h]
      exact .nestedFilter f token h
  | set h =>
      rw [h.promote]
      exact .set h

/-- **What is evaluated for a condition has the shape to be evaluated.** -/
theorem IsConditionTree.enumerated (h : IsConditionTree t) : IsEvaluationTree (enumerated t) := by
  unfold Graph.enumerated
  split
  · next hkind => exact .set (h.isSetTree hkind)
  · exact .select h

/-- A rewriting of the tree keeps the shapes that it has; there is nothing to
rewrite in sets. -/
structure KeepsShape (t u : Tree Content) : Prop where
  set : IsSetTree t → u = t
  condition : IsConditionTree t → IsConditionTree u
  evaluation : IsEvaluationTree t → IsEvaluationTree u

/-- If rewritings may keep the shape of the trees below a node, they keep that
of the node. -/
theorem KeepsShape.node {c : Content} {ts us : List (Tree Content)}
    (h : List.Forall₂ KeepsShape ts us) : KeepsShape (.node c ts) (.node c us) := by
  have hset : IsSetTree (.node c ts) → us = ts := by
    intro hc
    cases hc with
    | block hblock =>
        cases hblock with
        | query q token => exact List.forall₂_nil_left_iff.mp h
        | aggregator name q token token' =>
            obtain ⟨v, rfl, hv⟩ := Tree.forall₂_one h
            rw [hv.set (.block (.query q token'))]
    | intersection hl hr =>
        obtain ⟨l, r, rfl, hl', hr'⟩ := Tree.forall₂_pair h
        rw [hl'.set hl, hr'.set hr]
    | union hl hr =>
        obtain ⟨l, r, rfl, hl', hr'⟩ := Tree.forall₂_pair h
        rw [hl'.set hl, hr'.set hr]
  refine ⟨fun hc => by rw [hset hc], fun hc => ?_, fun hc => ?_⟩
  · cases hc with
    | binary hkind hl hr =>
        obtain ⟨l, r, rfl, hl', hr'⟩ := Tree.forall₂_pair h
        exact .binary hkind (hl'.condition hl) (hr'.condition hr)
    | not ht =>
        obtain ⟨v, rfl, hv⟩ := Tree.forall₂_one h
        exact .not (hv.condition ht)
    | search s token =>
        obtain rfl := List.forall₂_nil_left_iff.mp h
        exact .search s token
    | filter f token =>
        obtain rfl := List.forall₂_nil_left_iff.mp h
        exact .filter f token
    | nestedFilter f token hblock =>
        obtain ⟨v, rfl, hv⟩ := Tree.forall₂_one h
        rw [hv.set (.block hblock)]
        exact .nestedFilter f token hblock
    | set hs =>
        rw [hset hs]
        exact .set hs
  · cases hc with
    | set hs =>
        rw [hset hs]
        exact .set hs
    | select ht =>
        obtain ⟨v, rfl, hv⟩ := Tree.forall₂_one h
        exact .select (hv.condition ht)

/-- A rewriting of a node that yields no elements has to keep conditions
only. -/
theorem KeepsShape.of_condition {c : Content} {ts : List (Tree Content)}
    (hkind : c.kind.isEnumerable = false)
    (h : IsConditionTree (.node c ts) → IsConditionTree u) : KeepsShape (.node c ts) u := by
  have hset : ¬ IsSetTree (.node c ts) := by
    intro hs
    have hoperand := isEnumerable_of_isSetOperand hs.isSetOperand
    rw [Tree.label_node, hkind] at hoperand
    cases hoperand
  refine ⟨fun hs => absurd hs hset, h, fun he => ?_⟩
  have henumerable := he.isEnumerable
  rw [Tree.label_node, hkind] at henumerable
  cases henumerable

/-- A negation in a condition negates a condition. -/
theorem IsConditionTree.of_not {token : Token} (h : IsConditionTree (.node ⟨.not, token⟩ [t])) :
    IsConditionTree t := by
  cases h with
  | not h => exact h
  | set h => cases h.isSetOperand

/-- The operands of a condition are conditions. -/
theorem IsConditionTree.of_binary {kind : NodeKind} {token : Token}
    (hkind : kind.isBinaryCombinator = true) (h : IsConditionTree (.node ⟨kind, token⟩ [t, u])) :
    IsConditionTree t ∧ IsConditionTree u := by
  cases h with
  | binary _ hl hr => exact ⟨hl, hr⟩
  | set h =>
      have henumerable := isEnumerable_of_isSetOperand h.isSetOperand
      cases (isEnumerable_of_isBinaryCombinator hkind).symm.trans henumerable

/-- **Optimization keeps the shape of what is evaluated.** -/
theorem keepsShape_allowsRewriting : AllowsRewriting KeepsShape where
  refl _ := ⟨fun _ => rfl, id, id⟩
  trans h h' :=
    ⟨fun hs => by rw [h'.set (h.set hs ▸ hs), h.set hs], h'.condition ∘ h.condition,
      h'.evaluation ∘ h.evaluation⟩
  node := .node
  deMorgan hdual token token' a b := by
    obtain ⟨hkind, hkind'⟩ := isBinaryCombinator_of_dual hdual
    refine .of_condition rfl fun h => ?_
    obtain ⟨ha, hb⟩ := h.of_not.of_binary hkind
    exact .binary hkind' (.not ha) (.not hb)
  comm hkind token a b := by
    refine .of_condition (isEnumerable_of_isBinaryCombinator hkind) fun h => ?_
    obtain ⟨ha, hb⟩ := h.of_binary hkind
    exact .binary hkind hb ha
  notNot token token' t := .of_condition rfl fun h => h.of_not.of_not

end Shapes

end FilterQuery.Graph
