import FilterQuery.Proofs.ReachableQueries
import FilterQuery.Proofs.SetExpressions

/-!
# Tested queries

Whether an element is in the result of a query can be asked without evaluating
the query over a payload: a selection looks at the element alone, and sets are
evaluated strictly, whatever the mode of the query.  Both ways give the same
answer: a payload is filtered by the test, and sets hold the elements that pass
it.
-/

namespace FilterQuery

open FilterQuery.Graph

variable {α : Type} {engine : Engine α}

/-- A nested query compiles to one, if at all. -/
theorem Engine.compileNested_of_clean {q : NestedExpression} {token : Token}
    (h : (engine.compileNested q token).notes = []) :
    ∃ query filter handler,
      (engine.compileNested q token).value = .nested query filter handler := by
  unfold Engine.compileNested at h ⊢
  cases hhandler : engine.nestedHandler with
  | none =>
      rw [hhandler] at h
      cases h
  | some handler => exact ⟨_, _, _, rfl⟩

/-- **Sets compile to a set expression**, if at all. -/
theorem Graph.IsSetTree.isSetExpression {t : Tree Content} (h : IsSetTree t)
    (hclean : (engine.planOf t).notes = []) : (engine.planOf t).value.IsSetExpression := by
  induction h with
  | block h =>
      cases h with
      | query q token =>
          obtain ⟨query, filter, handler, hvalue⟩ := Engine.compileNested_of_clean hclean
          have hplan : (engine.planOf (.leaf ⟨.nestedQuery q, token⟩)).value =
              .nested query filter handler := hvalue
          rw [hplan]
          exact .nested query filter handler
      | aggregator name q token token' =>
          rw [Engine.planOf_aggregator] at hclean ⊢
          cases ha : engine.aggregators.find? name with
          | none =>
              rw [ha] at hclean
              cases hclean
          | some a =>
              rw [ha] at hclean
              have hsource : (engine.compileNested q token').notes = [] :=
                (List.append_eq_nil_iff.mp hclean).1
              obtain ⟨query, filter, handler, hvalue⟩ := Engine.compileNested_of_clean hsource
              have hplan : (engine.planOf (.leaf ⟨.nestedQuery q, token'⟩)).value =
                  .nested query filter handler := hvalue
              dsimp only
              rw [Noted.value_bind, Noted.value_pure, hplan]
              exact .aggregate a query filter handler
  | intersection _ _ ihl ihr =>
      rw [Engine.planOf_intersection] at hclean ⊢
      simp only [Noted.notes_bind, Noted.notes_pure, List.append_nil,
        List.append_eq_nil_iff] at hclean
      exact .intersection (ihl hclean.1) (ihr hclean.2)
  | union _ _ ihl ihr =>
      rw [Engine.planOf_union] at hclean ⊢
      simp only [Noted.notes_bind, Noted.notes_pure, List.append_nil,
        List.append_eq_nil_iff] at hclean
      exact .union (ihl hclean.1) (ihr hclean.2)

section Plans

variable {p : Plan α}

/-- A plan of sets selects by no condition. -/
theorem Plan.IsSetExpression.ne_select (h : p.IsSetExpression) (c : Condition α) :
    p ≠ .select c := by
  rintro rfl
  cases h

variable [BEq α]

/-- A set expression does not read the payload. -/
theorem Plan.IsSetExpression.run_payload (h : p.IsSetExpression) (mode : Mode)
    (payload : List α) : p.run mode payload = p.run mode [] := by
  cases h with
  | nested query filter handler => rfl
  | aggregate a query filter handler => rfl
  | intersection _ _ => cases mode <;> rfl
  | union _ _ => cases mode <;> rfl

/-- **The test of a set expression is membership**, in either mode. -/
theorem Plan.IsSetExpression.contains_eq_yields [EquivBEq α] (h : p.IsSetExpression) (mode : Mode)
    (payload : List α) (e : α) :
    (p.run mode payload).elements.contains e = (p.yields e).value := by
  have hstrict : (p.run mode payload).elements.contains e =
      (p.run .strict []).elements.contains e := by
    cases mode with
    | strict => rw [h.run_payload]
    | fast => rw [h.fast_contains, h.run_payload]
  rw [hstrict, yields_value h.ne_select, List.contains_eq_any_beq]
  congr 1
  funext found
  exact BEq.comm

end Plans

namespace Query

variable {q : Query α}

/-- A query without errors that says something has the plan of the tree in its
graph. -/
theorem IsSound.activePlan (h : q.IsSound) (herrors : q.errors = []) {r : NodeId}
    (hroot : q.graph.root = some r) :
    ∃ t, IsEvaluationTree t ∧ t.label.kind = q.graph.kind r ∧ (q.engine.planOf t).notes = [] ∧
      q.activePlan? = some (q.engine.planOf t).value := by
  have hvalid : q.isValid = true := by simp [isValid, herrors, Graph.isEmpty, hroot]
  obtain ⟨s, hs, hclean, hplan⟩ := h.compiled hvalid
  rcases h.graph with hnone | ⟨s', hs', hshape⟩
  · cases hnone.symm.trans hroot
  · have hsame : s' = s := Option.some.inj (hs'.tree.symm.trans hs.tree)
    subst hsame
    obtain rfl : rootId s' = r := Option.some.inj (hs.root.symm.trans hroot)
    refine ⟨_, hshape, ?_, hclean, by rw [activePlan?, if_pos hvalid, hplan]⟩
    rw [hs.laid.kind_root, Tree.label_map]
    rfl

/-- An invalid query has no plan to follow. -/
theorem activePlan?_of_not_isValid (h : q.errors ≠ [] ∨ q.graph.root = none) :
    q.activePlan? = none := by
  rw [activePlan?, if_neg]
  rcases h with herrors | hroot
  · simp [isValid, herrors]
  · simp [isValid, Graph.isEmpty, hroot]

variable [BEq α]

/-- The results of a valid query are what its plan yields for the payload. -/
theorem results_of_activePlan {plan : Plan α} (h : q.activePlan? = some plan) (payload : List α) :
    q.results payload = (plan.run q.mode payload).elements := by
  rw [results_eq, aligned, h]

/-- The test of a valid query is the one of its plan. -/
theorem test_of_activePlan {plan : Plan α} (h : q.activePlan? = some plan) (e : α) :
    q.test e = plan.yields e := by
  rw [test, h]

/-- **Testing and applying a query tell the same story**, for every query that a
program can have.  A query without errors that says something is a selection or
yields sets.  A selection filters the payload by the test, in either mode, and
fast evaluation yields a slot for each element.  Sets hold an element exactly if
it passes the test.  Any other query gives back the payload, and every element
passes, or gives back nothing, and none does. -/
theorem test_agrees_with_apply [EquivBEq α] (h : Reachable engine q) :
    (∀ r, q.errors = [] → q.graph.root = some r →
      (q.graph.kind r = .select ∨ (q.graph.kind r).isSetOperand = true) ∧
      (q.graph.kind r = .select → ∀ payload,
        q.results payload = (payload.filter fun e => (q.test e).value) ∧
          (q.mode = .fast → (q.aligned payload).slots =
            payload.map fun e => if (q.test e).value then some e else none)) ∧
      ((q.graph.kind r).isSetOperand = true → ∀ payload e,
        (q.results payload).contains e = (q.test e).value)) ∧
    (q.errors ≠ [] ∨ q.graph.root = none →
      (∀ payload, q.results payload = if q.returnsPayload then payload else []) ∧
        ∀ e, (q.test e).value = q.returnsPayload) := by
  refine ⟨fun r herrors hroot => ?_, fun hinvalid => ?_⟩
  · obtain ⟨t, hshape, hkind, hclean, hactive⟩ := h.isSound.activePlan herrors hroot
    rw [← hkind]
    cases hshape with
    | set hset =>
        have hexpression := hset.isSetExpression hclean
        have hoperand := hset.isSetOperand
        refine ⟨.inr hoperand, fun hselect => ?_, fun _ payload e => ?_⟩
        · rw [hselect] at hoperand
          cases hoperand
        · rw [results_of_activePlan hactive, test_of_activePlan hactive]
          exact hexpression.contains_eq_yields q.mode payload e
    | select hcondition =>
        rw [Engine.planOf_select] at hactive
        refine ⟨.inl rfl, fun _ payload => ⟨?_, fun hmode => ?_⟩, fun hoperand => ?_⟩
        · rw [results_of_activePlan hactive]
          simp only [test_of_activePlan hactive]
          exact Plan.select_elements _ _ _
        · rw [aligned, hactive]
          simp only [test_of_activePlan hactive, hmode]
          exact Plan.select_fast_slots _ _
        · cases hoperand
  · have hnone := activePlan?_of_not_isValid hinvalid
    refine ⟨fun payload => ?_, fun e => ?_⟩
    · rw [results, apply, Run.elements_withoutEmpty, aligned, hnone]
      dsimp only
      split
      · exact Run.elements_of_slots (Run.slots_ofElements payload)
      · rfl
    · rw [test, hnone]
      rfl

/-- A selection and a union over booleans: `on:true`, and two nested queries. -/
theorem tests_of_a_selection_and_a_union :
    let engine : Engine Bool :=
      { (({} : Engine Bool).addFilter (.ofGetter "on" id)).1 with
        nestedHandler := some fun query _ => if query = "yes" then [true] else [] }
    let selection := engine.parse "on:true" .fast
    let union := engine.parse "\x7byes\x7d or \x7bno\x7d" .fast
    Reachable engine selection ∧ Reachable engine union ∧
      (selection.aligned [true, false, true]).slots = [some true, none, some true] ∧
      ∀ e, (union.results []).contains e = (union.test e).value := by
  intro engine selection union
  have hselection : Reachable engine selection := .parsed _ _
  have hunion : Reachable engine union := .parsed _ _
  obtain ⟨-, hfilters, -⟩ :=
    (test_agrees_with_apply hselection).1 1 (by decide +kernel) (by decide +kernel)
  obtain ⟨-, -, hcontains⟩ :=
    (test_agrees_with_apply hunion).1 2 (by decide +kernel) (by decide +kernel)
  have hslots := (hfilters (by decide +kernel) [true, false, true]).2 (by decide +kernel)
  exact ⟨hselection, hunion, hslots.trans (by decide +kernel), hcontains (by decide +kernel) []⟩

end Query

end FilterQuery
